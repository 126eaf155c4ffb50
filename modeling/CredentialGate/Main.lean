import CredentialGate.CommandLine.Run
import CredentialGate.Program.Connection
import CredentialGate.Program.Disk
import Std.Time.DateTime.Timestamp

/-! The program: it reads what a run looks at, computes the run, and carries out what has come of
it. -/
namespace CredentialGate.Program

open CommandLine

def readVariables : IO (List (String × String)) := do
  let bytes := (← IO.FS.readBinFile "/proc/self/environ").data.toList
  let entries := (Text.ofUtf8Lossy bytes).splitOn (String.singleton (Char.ofNat 0))
  return entries.filterMap fun entry =>
    let name := entry.toList.takeWhile (· ≠ '=')
    if name.isEmpty then none
    else some (String.ofList name, String.ofList (entry.toList.drop (name.length + 1)))

def currentStamp : IO Audit.Stamp := do
  let nanos := (← Std.Time.Timestamp.now).toNanosecondsSinceUnixEpoch.val
  let id := Audit.Uuid.ofRandom (← IO.getRandomBytes 16).data.toList
  return ⟨id, .ofUnix (nanos / 1000000000) (nanos % 1000000000).toNat⟩

/-- A line that the user types at a terminal; none if there is no terminal. -/
def askForEmail (env : Config.Environment) (args : List String) : IO (Option String) := do
  let stdin ← IO.getStdin
  match Invocation.read env args, ← stdin.isTty with
  | .ok ⟨_, _, _, .session _ (.login none (some _))⟩, true =>
    IO.eprint "Email: "
    return some (Text.trim (← stdin.getLine))
  | _, _ => return none

/-- The surroundings of a run that may listen wherever it wants. -/
def surroundings (stamp : Audit.Stamp) (email? : Option String) : Surroundings Replay where
  network := replay
  canListen _ _ := true
  freshToken := stamp.id
  today := stamp.time.date
  typedEmail? := email?
  typedPassword? := none

def readFiles (env : Config.Environment) (args : List String) (today : Audit.Date) :
    IO Files.Tree := do
  let mut t ← workingTree
  for _ in List.range footprintDepth do
    t ← loadPaths t (footprint env args today t)
  return t

def runOver (around : Surroundings Replay) (env : Config.Environment) (args : List String)
    (t : Files.Tree) (network : Replay) : (Outcome × Files.Tree) × Replay :=
  let (outcome, world) := CommandLine.run around env args ⟨t, network⟩
  ((outcome, world.tree), world.network)

/-- Answers a request on the files as they are now. -/
def answerNow (env : Config.Environment) (args : List String) (request : Webhook.Request) :
    IO Webhook.Reply := do
  let first ← currentStamp
  let second ← currentStamp
  let t ← readFiles env args first.time.date
  let (outcome, opened) := (runOver (surroundings first none) env args t ⟨[], none⟩).1
  match outcome.service? with
  | none => return .notFound
  | some service =>
    let stamps (n : Nat) : Audit.Stamp := if n = 0 then first else second
    let (reply, _, after) := service.answer stamps request (0, opened)
    carryOutAll t after
    return reply

def finish (outcome : Outcome) : IO UInt32 := do
  IO.print outcome.output
  IO.eprint outcome.errors
  return outcome.code.toUInt32

end CredentialGate.Program

open CredentialGate Program in
/-- Runs the command that the arguments name, and serves until it is interrupted. -/
def main (args : List String) : IO UInt32 := do
  let env : Config.Environment := ⟨← readVariables, none⟩
  let stamp ← currentStamp
  let t ← readFiles env args stamp.time.date
  let around := surroundings stamp (← askForEmail env args)
  let (outcome, after) ← overNetwork (runOver around env args t) []
  match outcome.service? with
  | none =>
    carryOutAll t after
    finish outcome
  | some service =>
    match ← listenAt service.bind service.port with
    | some server =>
      carryOutAll t after
      answerAll server (answerNow env args)
      finish outcome
    | none =>
      let refused := { around with canListen := fun _ _ => false }
      let ((outcome, after), _) := runOver refused env args t ⟨[], none⟩
      carryOutAll t after
      finish outcome
