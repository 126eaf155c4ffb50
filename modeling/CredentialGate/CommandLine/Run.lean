import CredentialGate.CommandLine.Dotenv
import CredentialGate.CommandLine.Invocation
import CredentialGate.CommandLine.LogFilter
import CredentialGate.CommandLine.Report
import CredentialGate.Http.Collaborators

/-! Running the command line: the dotenv file, the arguments, the settings, and then the command.
A command works on the tree of files and on the network. -/
namespace CredentialGate.CommandLine

open Files Session

/-- What a run finds around it. A user at a terminal may be asked for what is missing. -/
structure Surroundings (σ : Type) where
  network : Http.Network σ
  canListen : String → UInt16 → Bool
  /-- The token of a user that is added without one. -/
  freshToken : Audit.Uuid
  today : Audit.Date
  typedEmail? : Option String
  typedPassword? : Option String

structure World (σ : Type) where
  tree : Tree
  network : σ

def programName : String := "tokengate"
def version : String := "0.1.0"

/-! Commands on the database -/

def initDatabase (path : FilePath) (t : Tree) : Report × Tree :=
  match Store.Database.openAt path t with
  | (.ok _, t) => (.print ("Credential database initialized at " ++ path.text), t)
  | (.error _, t) => (.fail (.cannotInitialize path), t)

/-- The token to issue: the given one without blanks around it, or a fresh one. -/
def tokenToIssue (fresh : Audit.Uuid) : Option String → Except Failure String
  | none => .ok fresh.simple
  | some given =>
    let token := Text.trim given
    if token.isEmpty then .error .emptyToken else .ok token

/-- A change of the users, and the line that tells of it. -/
def changeUsers (path : FilePath) (t : Tree)
    (change : Store.Database → Tree → Except Failure String × Tree) : Report × Tree :=
  match Store.Database.openAt path t with
  | (.error _, t) => (.fail .cannotOpenDatabase, t)
  | (.ok d, t) =>
    match change d t with
    | (.ok line, t) => (.print line, t)
    | (.error e, t) => (.fail e, t)

def addUser (user : Store.User) (token : Except Failure String) (d : Store.Database) (t : Tree) :
    Except Failure String × Tree :=
  match token with
  | .error e => (.error e, t)
  | .ok token =>
    let (result, _, t) := d.upsert user token t
    ((result.mapError .store).map fun _ => token, t)

def revokeUser (email : String) (d : Store.Database) (t : Tree) : Except Failure String × Tree :=
  let (result, _, t) := d.revoke email t
  ((result.mapError .store).map fun _ => "Revoked token for " ++ email, t)

/-- A review at the command line is not audited. -/
def reviewToken (path : FilePath) (token : String) (t : Tree) : Report × Tree :=
  match Store.Database.openAt path t with
  | (.error _, t) => (.fail .cannotOpenDatabase, t)
  | (.ok d, t) =>
    let (outcome, _) := Review.review (d.lookup t) .discard (.forToken token) ()
    let remark := "HTTP " ++ toString outcome.status ++ " " ++ Webhook.phraseOf outcome.status
    (⟨[outcome.body.document.displayOver], [remark], none, none⟩, t)

/-- Opens the database and the audit log, then listens. -/
def serve (s : Config.Server) (canListen : String → UInt16 → Bool) (t : Tree) : Report × Tree :=
  match Store.Database.openAt s.dbPath t with
  | (.error _, t) => (.fail .cannotOpenDatabase, t)
  | (.ok d, t) =>
    match Audit.Log.openAt s.auditLog t with
    | (.error _, t) => (.fail .cannotOpenAuditLog, t)
    | (.ok log, t) =>
      if canListen s.bind s.port then (⟨[], [], none, some ⟨s.bind, s.port, d, log⟩⟩, t)
      else (.fail (.cannotListen (s.bind ++ ":" ++ toString s.port.toNat)), t)

/-! Commands of a session -/

/-- The state of a session, and its message if it has one. -/
def describe (c : Controller) : List String :=
  let state := match c.state with
    | .authenticated identity _ =>
      "Authenticated as " ++ identity.name ++ " <" ++ identity.email ++ "> (" ++
        identity.authority ++ ")"
    | .localOnly identity =>
      "Logged in as " ++ identity.name ++ " <" ++ identity.email ++
        ">, but the identity directory has not confirmed the user"
    | other => "Not authenticated (" ++ other.kind.name ++ ")"
  state :: if c.message.isEmpty then [] else [c.message]

/-- A report of lines, with a failure unless all went well. -/
def reportUnless (success : Bool) (reason : Failure) (lines : List String) : Report :=
  ⟨lines, [], if success then none else some reason, none⟩

/-- What a logout tells. It has failed if it has left a message. -/
def describeLogout (c : Controller) : String :=
  if c.message.isEmpty then "Logged out" else "Logout failed: " ++ c.message

/-- One command, as operations of a session that has just been opened. -/
def runSession (around : Surroundings σ) (others : Collaborators τ) (command : SessionCommand)
    (s : Situation τ) : Report × Situation τ :=
  match command with
  | .login email? password? =>
    match email?.or around.typedEmail?, password?.or around.typedPassword? with
    | none, _ => (.fail .noEmail, s)
    | some _, none => (.fail .noPassword, s)
    | some email, some password =>
      let s := Session.login others email password s
      let success := s.controller.state.local?.isSome
      (reportUnless success .loginFailed (describe s.controller), s)
  | .status =>
    let s := start others s
    (⟨describe s.controller, [], none, none⟩, s)
  | .logout =>
    let s := logout others (start others s)
    (.print (describeLogout s.controller), s)
  | .resetLink email =>
    let (sent, s) := sendResetLink others email s
    (reportUnless sent .resetLinkFailed [s.controller.message], s)
  | .resetPassword email token password? =>
    match password?.or around.typedPassword? with
    | none => (.fail .noPassword, s)
    | some password =>
      let (updated, s) := resetPassword others ⟨email, token, password, password⟩ s
      (reportUnless updated .resetPasswordFailed [s.controller.message], s)

def backendsOf (c : Config.Client) : Except Config.Failure Http.Backends := do
  let directory ← c.identityApiUrl
  return ⟨.of c.primaryUrl c.paths, .of directory c.identityApiPrefix⟩

def session (around : Surroundings σ) (c : Config.Client) (env : Config.Environment)
    (command : SessionCommand) (w : World σ) : Report × World σ :=
  match backendsOf c with
  | .error e => (.fail (.config e), w)
  | .ok backends =>
    let setting : Http.Setting σ := ⟨w.network, .file ⟨c.storagePath env⟩, w.tree⟩
    let (report, s) := runSession around (backends.collaborators around.network) command
      (opening c.logoutPolicy setting)
    (report, ⟨s.world.tree, s.world.network⟩)

/-! The run -/

def onTree (command : Tree → Report × Tree) (w : World σ) : Report × World σ :=
  let (report, tree) := command w.tree
  (report, { w with tree := tree })

def Command.overrides : Command → Config.Overrides
  | .serve port? bind? => ⟨bind?, port?, none⟩
  | .session policy? _ => ⟨none, none, policy?⟩
  | _ => .none

def execute (around : Surroundings σ) (s : Config.Settings) (env : Config.Environment)
    (command : Command) (w : World σ) : Report × World σ :=
  let s := s.overriddenBy command.overrides
  let users := s.server.dbPath
  match command with
  | .serve _ _ => onTree (serve s.server around.canListen) w
  | .initDatabase => onTree (initDatabase users) w
  | .addUser user token? =>
    onTree (fun t => changeUsers users t (addUser user (tokenToIssue around.freshToken token?))) w
  | .revokeUser email => onTree (fun t => changeUsers users t (revokeUser email)) w
  | .review token => onTree (reviewToken users token) w
  | .session _ command => session around s.client env command w

def logVariable : String := "RUST_LOG"

/-- A filter in the environment wins over the level, unless it is none. -/
def hasLogFilter (env : Config.Environment) (level : String) : Bool :=
  (env.get? logVariable).any LogFilter.accepts || LogFilter.accepts level

def logFile (dir : FilePath) (today : Audit.Date) : FilePath :=
  dir.join (programName ++ ".log." ++ String.ofList (Audit.Timestamp.writeYear today.year ++
    '-' :: Audit.Timestamp.padded 2 today.month ++ '-' :: Audit.Timestamp.padded 2 today.day))

/-- Makes the log of the day; none if that is impossible. -/
def openLog? (dir? : Option FilePath) (today : Audit.Date) (t : Tree) : Option Tree :=
  match dir? with
  | none => some t
  | some dir =>
    match t.openFile? (logFile dir today) with
    | some (_, _, t) => some t
    | none => ((t.makeDirectories dir).2.openFile? (logFile dir today)).map (·.2.2)

/-- The exit code of a run whose log cannot be made. -/
def brokenLogCode : Nat := 101

/-- A run under settings that have been loaded. -/
def proceed (around : Surroundings σ) (s : Config.Settings) (env : Config.Environment)
    (i : Invocation) (w : World σ) : Outcome × World σ :=
  if hasLogFilter env i.logLevel then
    match openLog? s.server.logDir? around.today w.tree with
    | none => (.silent brokenLogCode, w)
    | some tree =>
      let (report, w) := execute around s env i.command { w with tree := tree }
      (.of report, w)
  else (.of (.fail (.badLogLevel i.logLevel)), w)

def invoke (around : Surroundings σ) (env : Config.Environment) (i : Invocation) (w : World σ) :
    Outcome × World σ :=
  match Config.Settings.loadOrDefault i.configPath w.tree env with
  | .error e => (.of (.fail (.config e)), w)
  | .ok s => proceed around s env i w

/-- A run of the program. The text of its help is not part of this library. -/
def run (around : Surroundings σ) (env : Config.Environment) (args : List String) (w : World σ) :
    Outcome × World σ :=
  let env := Dotenv.load env w.tree
  match Invocation.read env args with
  | .error .misuse => (.silent 2, w)
  | .error .help => (.silent 0, w)
  | .error .version =>
    ({ Outcome.silent 0 with output := programName ++ " " ++ version ++ "\n" }, w)
  | .ok i => invoke around env i w

/-! The files that a run may look at. One file names others, so the list grows as the files become
known; it is complete once those that it names are. -/

def namedFiles (s : Config.Settings) (env : Config.Environment) (today : Audit.Date) :
    List FilePath :=
  [s.server.dbPath, s.server.auditLog, s.client.storagePath env] ++
    (s.server.logDir?.map (logFile · today)).toList

/-- The files of a run, as far as a tree tells. -/
def footprint (env : Config.Environment) (args : List String) (today : Audit.Date) (t : Tree) :
    List FilePath :=
  let env := Dotenv.load env t
  Dotenv.fileName ::
    match Invocation.read env args with
    | .error _ => []
    | .ok i =>
      i.configPath ::
        match Config.Settings.loadOrDefault i.configPath t env with
        | .error _ => []
        | .ok s => namedFiles s env today

/-- How many files in a row name one another: the dotenv file, the settings, and their files. -/
def footprintDepth : Nat := 3

end CredentialGate.CommandLine
