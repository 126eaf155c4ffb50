import CredentialGate.CommandLine.Level
import CredentialGate.Config.Layers

/-! Reading the arguments of the command line. They are read from the left, and the first fault
ends the reading, as does a question for help or for the version. -/
namespace CredentialGate.CommandLine

open Session

/-- Why no command is run. -/
inductive Stop
  | misuse
  | help
  | version
deriving DecidableEq, Repr

/-- What has been given on one level. -/
structure Given where
  level : Level
  options : List (String × String)
  words : List String
deriving DecidableEq, Repr

namespace Given

def on (level : Level) : Given := ⟨level, [], []⟩

/-- Adds an option, which may be given once on a level. -/
def addOption (g : Given) (choice : Choice) (value : String) : Except Stop Given :=
  if (g.options.lookup choice.long).isSome ∨ !choice.accepts value then .error .misuse
  else .ok { g with options := g.options ++ [(choice.long, value)] }

def addWord (g : Given) (word : String) : Except Stop Given :=
  if g.words.length < g.level.words then .ok { g with words := g.words ++ [word] }
  else .error .misuse

def value? (g : Given) (choice : Choice) : Option String := g.options.lookup choice.long

def value (g : Given) (choice : Choice) : String := (g.value? choice).getD ""

def isComplete (g : Given) : Bool :=
  g.level.commands.isEmpty && g.words.length == g.level.words &&
    g.level.required.all fun choice => (g.value? choice).isSome

end Given

inductive Argument
  | long (name : String) (value? : Option String)
  | short (letter : Char) (rest : List Char)
  | separator
  | word
deriving DecidableEq, Repr

/-- A single hyphen is a word. -/
def Argument.of (s : String) : Argument :=
  match s.toList with
  | ['-', '-'] => .separator
  | '-' :: '-' :: text =>
    let name := text.takeWhile (· ≠ '=')
    let value? := match text.drop name.length with
      | '=' :: value => some (String.ofList value)
      | _ => none
    .long (String.ofList name) value?
  | '-' :: letter :: rest => .short letter rest
  | _ => .word

/-- The value that is attached to a short option; an equals sign may stand between. -/
def attached? : List Char → Option String
  | [] => none
  | '=' :: value => some (String.ofList value)
  | value => some (String.ofList value)

def helpOn (level : Level) : List String → Stop
  | [] => .help
  | word :: more =>
    match level.commands.lookup word with
    | some next => helpOn next more
    | none => if word = "help" ∧ more.isEmpty ∧ !level.commands.isEmpty then .help else .misuse

/-- What an argument asks for on a level. -/
inductive Wish
  /-- An option with the value that is attached to it. -/
  | choose (choice : Choice) (value? : Option String)
  | stop (reason : Stop)
  | words
  | word

/-- A question for help or for the version takes no value, and only the topmost level knows its
version. -/
def wishOf (level : Level) (arg : String) : Wish :=
  match Argument.of arg with
  | .long name value? =>
    if name = "help" ∧ value?.isNone then .stop .help
    else if name = "version" ∧ value?.isNone ∧ level = .top then .stop .version
    else match level.choices.find? (·.long = name) with
      | some choice => .choose choice value?
      | none => .stop .misuse
  | .short letter rest =>
    if letter = 'h' then .stop .help
    else if letter = 'V' ∧ level = .top then .stop .version
    else match level.choices.find? (·.short? = some letter) with
      | some choice => .choose choice (attached? rest)
      | none => .stop .misuse
  | .separator => .words
  | .word => .word

/-- Reads the arguments of a level and of those below it. The levels above it stand in `outer`. -/
def scan (outer : List Given) (here : Given) : List String → Except Stop (List Given)
  | [] => if here.isComplete then .ok (outer ++ [here]) else .error .misuse
  | arg :: rest =>
    match wishOf here.level arg with
    | .stop reason => .error reason
    | .words => do
      let here ← rest.foldlM Given.addWord here
      if here.isComplete then .ok (outer ++ [here]) else .error .misuse
    | .word =>
      match here.level.commands.lookup arg with
      | some next => scan (outer ++ [here]) (.on next) rest
      | none =>
        if here.level.commands.isEmpty then
          match here.addWord arg with
          | .ok here => scan outer here rest
          | .error reason => .error reason
        else if arg = "help" then .error (helpOn here.level rest)
        else .error .misuse
    | .choose choice (some value) =>
      if choice.takesValue then
        match here.addOption choice value with
        | .ok here => scan outer here rest
        | .error reason => .error reason
      else .error .misuse
    | .choose choice none =>
      if choice.takesValue then
        match rest with
        | value :: rest =>
          if Argument.of value = .word then
            match here.addOption choice value with
            | .ok here => scan outer here rest
            | .error reason => .error reason
          else .error .misuse
        | [] => .error .misuse
      else
        match here.addOption choice "" with
        | .ok here => scan outer here rest
        | .error reason => .error reason

inductive SessionCommand
  | login (email? password? : Option String)
  | status
  | logout
  | resetLink (email : String)
  | resetPassword (email token : String) (password? : Option String)
deriving DecidableEq, Repr

inductive Command
  | serve (port? : Option UInt16) (bind? : Option String)
  | initDatabase
  | addUser (user : Store.User) (token? : Option String)
  | revokeUser (email : String)
  | review (token : String)
  | session (policy? : Option LogoutPolicy) (command : SessionCommand)
deriving DecidableEq, Repr

structure Invocation where
  configPath : Files.FilePath
  logLevel : String
  logJson : Bool
  command : Command
deriving DecidableEq, Repr

/-- The value that is given on the deepest level. -/
def deepest? (levels : List Given) (choice : Choice) : Option String :=
  levels.reverse.findSome? (·.value? choice)

def passwordVariable : String := "TOKENGATE_PASSWORD"

/-- The command of the deepest level. A password may come from the environment. -/
def commandOf? (env : Config.Environment) (levels : List Given) (g : Given) : Option Command :=
  let password? := (g.value? .password).or (env.get? passwordVariable)
  let policy? := (deepest? levels .logoutPolicy).bind LogoutPolicy.ofText?
  match g.level with
  | .serve => some (.serve ((g.value? .port).bind portOf?) (g.value? .bind))
  | .dbInit => some .initDatabase
  | .userAdd =>
    some (.addUser ⟨g.value .name, g.value .email, g.value .authority⟩ (g.value? .token))
  | .userRevoke => some (.revokeUser (g.value .email))
  | .review => g.words.head?.map .review
  | .login => some (.session policy? (.login (g.value? .email) password?))
  | .status => some (.session policy? .status)
  | .logout => some (.session policy? .logout)
  | .resetLink => some (.session policy? (.resetLink (g.value .email)))
  | .resetPassword =>
    some (.session policy? (.resetPassword (g.value .email) (g.value .token) password?))
  | .top | .db | .user | .session => none

def Invocation.read (env : Config.Environment) (args : List String) : Except Stop Invocation := do
  let levels ← scan [] (.on .top) args
  match levels.getLast?.bind (commandOf? env levels) with
  | some command =>
    return {
      configPath := ⟨(deepest? levels .config).getD Config.fileName⟩
      logLevel := (deepest? levels .logLevel).getD "info"
      logJson := (deepest? levels .logJson).isSome
      command }
  | none => .error .misuse

end CredentialGate.CommandLine
