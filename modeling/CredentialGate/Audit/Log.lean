import CredentialGate.Audit.Event
import CredentialGate.Files.Tree
import CredentialGate.Review.Decision

/-! The audit log: a file with one event per line, which only grows. An open log goes on writing to
the file that it has opened, also when the file has lost its name; it reads whatever file has the
name. -/
namespace CredentialGate.Audit

open Files

structure Log where
  path : FilePath
  serial : Nat
deriving DecidableEq, Repr

inductive LogFailure
  | cannotMakeDirectory
  | cannotOpen (path : FilePath)
  | cannotRead
  | badLine
deriving DecidableEq, Repr

def LogFailure.message : LogFailure → String
  | cannotMakeDirectory => "Failed to create audit directory"
  | cannotOpen path => "Failed to open audit log " ++ path.text
  | cannotRead => "Failed to read audit log"
  | badLine => "Failed to parse audit line"

/-- What the surroundings give an event. -/
structure Stamp where
  id : Uuid
  time : Timestamp
deriving DecidableEq, Repr

def Event.of (stamp : Stamp) (action : Action) : Event := ⟨stamp.id, stamp.time, action⟩

/-- The line of an event, with its end. -/
def Event.line (e : Event) : Bytes := e.document.write ++ [Json.lineFeed]

/-- The events of the lines of a text; lines of blanks count for nothing. -/
def eventsOf (content : String) : Except LogFailure (List Event) :=
  ((Text.lines content).filter fun line => !(Text.trim line).isEmpty).mapM fun line =>
    (Event.read (Text.utf8 line)).mapError fun _ => .badLine

namespace Log

def openAt (p : FilePath) (t : Tree) : Except LogFailure Log × Tree :=
  match t.makeParents p with
  | (false, t) => (.error .cannotMakeDirectory, t)
  | (true, t) =>
    match t.openFile? p with
    | none => (.error (.cannotOpen p), t)
    | some (_, f, t) => (.ok ⟨p, f.serial⟩, t)

def record (log : Log) (event : Event) (t : Tree) : Tree := t.appendTo log.serial event.line

/-- Every event, oldest first. -/
def readAll (log : Log) (t : Tree) : Except LogFailure (List Event) :=
  match t.readText? log.path with
  | some content => eventsOf content
  | none => .error .cannotRead

/-- The log as a destination of review actions. The state counts the events, which are stamped in
their order. -/
def sink (log : Log) (stamps : Nat → Stamp) : Review.Sink (Nat × Tree) where
  record action
    | (count, t) => (true, (count + 1, log.record (.of (stamps count) action) t))

end Log

end CredentialGate.Audit
