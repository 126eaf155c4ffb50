import CredentialGate.Config.Layers
import CredentialGate.Text.Blank

/-! Variables from a file of lines `name = value`. The file is read up to the first line that is
bad; what stands before it counts, and a variable that is set already stays as it is. -/
namespace CredentialGate.CommandLine

open Files Config

namespace Dotenv

def fileName : FilePath := ⟨".env"⟩

/-- How a line goes on: quotation marks and backslashes carry a line over its end. -/
inductive Phase
  | plain
  | blank
  | escaped
  | single
  | singleEscaped
  | double
  | doubleEscaped
  | comment
deriving DecidableEq, Repr

/-- The phase behind a character outside of quotation marks. -/
def Phase.outside (c : Char) : Phase :=
  if c = '\\' then escaped else if c = '"' then double else if c = '\'' then single else plain

def Phase.step (phase : Phase) (c : Char) : Phase :=
  match phase with
  | plain => if Text.isBlank c ∧ c ≠ '\n' ∧ c ≠ '\r' then blank else outside c
  | blank => if c = '#' then comment else outside c
  | escaped => plain
  | single => if c = '\\' then singleEscaped else if c = '\'' then plain else single
  | singleEscaped => single
  | double => if c = '\\' then doubleEscaped else if c = '"' then plain else double
  | doubleEscaped => double
  | comment => comment

/-- The phase at the end of a line, and the line up to a comment. -/
def walk (phase : Phase) (line : List Char) : Phase × List Char :=
  match line with
  | [] => (phase, [])
  | c :: rest =>
    let next := phase.step c
    if next = .comment then (.comment, [])
    else
      let (last, kept) := walk next rest
      (last, c :: kept)

def withoutEnd (line : List Char) : List Char :=
  match line.reverse with
  | '\n' :: '\r' :: rest => rest.reverse
  | '\n' :: rest => rest.reverse
  | _ => line

def startsComment (line : List Char) : Bool := (Text.trimStart line).head? = some '#'

/-- A line together with those that it is carried over to, or the fault at which reading stops. A
text between quotation marks has to end. -/
def joinLines (phase : Phase) (before : List Char) : List (List Char) → List (Option (List Char))
  | [] => if phase = .plain then [] else [none]
  | line :: more =>
    if startsComment (before ++ line) then some [] :: joinLines .plain [] more
    else
      match walk phase line with
      | (.comment, kept) => some (before ++ kept) :: joinLines .plain [] more
      | (.plain, _) => some (withoutEnd (before ++ line)) :: joinLines .plain [] more
      | (phase, _) => joinLines phase (before ++ line) more

def isKeyStart (c : Char) : Bool := c.isAlpha || c == '_'
def isKeyChar (c : Char) : Bool := c.isAlphanum || c == '_' || c == '.'

def takeKey? (text : List Char) : Option (String × List Char) :=
  if text.head?.any isKeyStart then
    some (String.ofList (text.takeWhile isKeyChar), Text.trimStart (text.dropWhile isKeyChar))
  else none

/-- The key of a line and the text behind its equals sign. The word `export` may stand in front,
and may be a key itself. -/
def takeAssignment? (line : List Char) : Option (String × List Char) := do
  let (key, rest) ← takeKey? line
  match rest with
  | '=' :: rest => return (key, Text.trimStart rest)
  | _ =>
    if key = "export" then
      let (key, rest) ← takeKey? rest
      match rest with
      | '=' :: rest => return (key, Text.trimStart rest)
      | _ => none
    else none

/-- Where the reader of a value is: in a run of ordinary text, behind a blank or a backslash, or in
the name of a variable, which may stand in braces. -/
inductive Mode
  | text
  | ended
  | escaped
  | name (letters : List Char)
  | braced (letters : List Char)
deriving DecidableEq, Repr

inductive Quotes
  | none
  | single
  | double
deriving DecidableEq, Repr

/-- A name goes on with letters and digits; a character beyond ASCII counts as a letter. -/
def isNameChar (c : Char) : Bool := c.isAlphanum || (0x80 ≤ c.toNat && !Text.isBlank c)

def unescape? (c : Char) : Option Char :=
  if c = 'n' then some '\n'
  else if c ∈ ['\\', '\'', '"', '$', ' '] then some c
  else .none

/-- The value that a text stands for; `done` holds what has been read, in reverse. Variables are
replaced outside single marks. -/
def valueFrom? (valueOf : String → String) (mode : Mode) (quotes : Quotes) (done : List Char) :
    List Char → Option String
  | [] =>
    match mode, quotes with
    | .braced _, _ => .none
    | _, .single => .none
    | _, .double => .none
    | .name letters, .none => some (String.ofList done.reverse ++ resolve letters)
    | _, .none => some (String.ofList done.reverse)
  | c :: rest =>
    match mode, quotes with
    | .ended, _ =>
      if c = ' ' ∨ c = '\t' then valueFrom? valueOf .ended quotes done rest
      else if c = '#' then some (String.ofList done.reverse)
      else .none
    | .escaped, _ =>
      match unescape? c with
      | some c => valueFrom? valueOf .text quotes (c :: done) rest
      | .none => .none
    | .name letters, _ =>
      if isNameChar c then valueFrom? valueOf (.name (c :: letters)) quotes done rest
      else if c = '\x7B' ∧ letters.isEmpty then valueFrom? valueOf (.braced []) quotes done rest
      else
        let done := (resolve letters).toList.reverse ++ done
        if c = '$' then valueFrom? valueOf (.name []) quotes done rest
        else valueFrom? valueOf .text quotes (c :: done) rest
    | .braced letters, _ =>
      if c = '\x7D' then
        valueFrom? valueOf .text quotes ((resolve letters).toList.reverse ++ done) rest
      else valueFrom? valueOf (.braced (c :: letters)) quotes done rest
    | .text, .single =>
      if c = '\'' then valueFrom? valueOf .text .none done rest
      else valueFrom? valueOf .text .single (c :: done) rest
    | .text, .double =>
      if c = '$' then valueFrom? valueOf (.name []) .double done rest
      else if c = '"' then valueFrom? valueOf .text .none done rest
      else if c = '\\' then valueFrom? valueOf .escaped .double done rest
      else valueFrom? valueOf .text .double (c :: done) rest
    | .text, .none =>
      if c = '$' then valueFrom? valueOf (.name []) .none done rest
      else if c = '\'' then valueFrom? valueOf .text .single done rest
      else if c = '"' then valueFrom? valueOf .text .double done rest
      else if c = '\\' then valueFrom? valueOf .escaped .none done rest
      else if c = ' ' ∨ c = '\t' then valueFrom? valueOf .ended .none done rest
      else valueFrom? valueOf .text .none (c :: done) rest
where resolve (letters : List Char) : String := valueOf (String.ofList letters.reverse)

/-- The environment under way, and the values that the file has given so far. -/
structure Draft where
  env : Environment
  given : List (String × String)

/-- The environment comes first, then what the file has given last. -/
def Draft.valueOf (d : Draft) (name : String) : String :=
  ((d.env.get? name).or (d.given.lookup name)).getD ""

def Draft.set (d : Draft) (key value : String) : Draft where
  env :=
    if (d.env.get? key).isSome then d.env
    else { d.env with values := d.env.values ++ [(key, value)] }
  given := (key, value) :: d.given

/-- What a line sets; none if the line is bad. -/
def Draft.readLine? (d : Draft) (line : List Char) : Option Draft :=
  let line := Text.trimStart (Text.trimEnd line)
  if line.isEmpty ∨ line.head? = some '#' then some d
  else do
    let (key, text) ← takeAssignment? line
    if text.isEmpty ∨ text.head? = some '#' then return d.set key ""
    else return d.set key (← valueFrom? d.valueOf .text .none [] text)

/-- Reads lines up to the first that is bad. -/
def readLines (d : Draft) : List (Option (List Char)) → Draft
  | some line :: more =>
    match d.readLine? line with
    | some d => readLines d more
    | none => d
  | _ => d

def byteOrderMark : List UInt8 := [0xEF, 0xBB, 0xBF]

def splitBytes (line : List UInt8) : List UInt8 → List (List UInt8)
  | [] => if line.isEmpty then [] else [line.reverse]
  | b :: rest =>
    if b = 0x0A then (b :: line).reverse :: splitBytes [] rest else splitBytes (b :: line) rest

/-- The lines with their ends, in front of the first that is no UTF-8. -/
def linesOf (bytes : List UInt8) : List (List Char) :=
  let lines := (splitBytes [] bytes).map Text.ofUtf8?
  (lines.takeWhile Option.isSome).filterMap (·.map String.toList)

def underContent (env : Environment) (bytes : List UInt8) : Environment :=
  let bytes := if byteOrderMark.isPrefixOf bytes then bytes.drop 3 else bytes
  (readLines ⟨env, []⟩ (joinLines .plain [] (linesOf bytes))).env

/-- The environment with the variables of the file in the working directory, if there is one. -/
def load (env : Environment) (t : Tree) : Environment :=
  match t.readBytes? fileName with
  | some bytes => underContent env bytes
  | none => env

end Dotenv

end CredentialGate.CommandLine
