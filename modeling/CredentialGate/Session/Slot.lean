import CredentialGate.Files.Tree
import CredentialGate.Identity
import CredentialGate.Text.Blank

/-! The slot in which a session keeps its credential between runs: a value in memory, or a file
that holds the token and nothing else. A policy says what a failed logout does to it. -/
namespace CredentialGate.Session

open Files

inductive SlotFailure
  | cannotRead (path : FilePath)
  | cannotMakeDirectory
  | cannotWrite (path : FilePath)
  | cannotRestrict
  | cannotRemove (path : FilePath)
  | refused
deriving DecidableEq, Repr

def SlotFailure.message : SlotFailure → String
  | cannotRead path => "Failed to read credential file " ++ path.text
  | cannotMakeDirectory => "Failed to create credential directory"
  | cannotWrite path => "Failed to write credential file " ++ path.text
  | cannotRestrict => "Failed to restrict credential file permissions"
  | cannotRemove path => "Failed to remove credential file " ++ path.text
  | refused => "storage refused"

/-- The file slot at a path. Each operation is given the tree and returns what becomes of it. -/
structure FileSlot where
  path : FilePath
deriving DecidableEq, Repr

namespace FileSlot

/-- The token without the blanks around it. A missing file and one of blanks hold none. -/
def load (slot : FileSlot) (t : Tree) : Except SlotFailure (Option Credential) :=
  if t.contains slot.path then
    match t.readText? slot.path with
    | none => .error (.cannotRead slot.path)
    | some content =>
      let token := Text.trim content
      .ok (if token.isEmpty then none else some ⟨token⟩)
  else .ok none

/-- Puts the token into the file, which then only its owner may read. -/
def save (slot : FileSlot) (c : Credential) (t : Tree) : Except SlotFailure Unit × Tree :=
  match t.makeParents slot.path with
  | (false, t) => (.error .cannotMakeDirectory, t)
  | (true, t) =>
    match t.write? slot.path (.bytes (Text.utf8 c.token)) with
    | none => (.error (.cannotWrite slot.path), t)
    | some t =>
      match t.setMode? slot.path ownerOnly with
      | none => (.error .cannotRestrict, t)
      | some t => (.ok (), t)

/-- Removes the file. A slot that is empty may be cleared. -/
def clear (slot : FileSlot) (t : Tree) : Except SlotFailure Unit × Tree :=
  if t.contains slot.path then
    match t.remove? slot.path with
    | none => (.error (.cannotRemove slot.path), t)
    | some t => (.ok (), t)
  else (.ok (), t)

end FileSlot

inductive Slot
  | memory (credential? : Option Credential)
  | file (slot : FileSlot)
deriving DecidableEq, Repr

namespace Slot

def load (slot : Slot) (t : Tree) : Except SlotFailure (Option Credential) :=
  match slot with
  | .memory credential? => .ok credential?
  | .file slot => slot.load t

def save (slot : Slot) (c : Credential) (t : Tree) : Except SlotFailure Unit × Slot × Tree :=
  match slot with
  | .memory _ => (.ok (), .memory (some c), t)
  | .file stored =>
    let (result, t) := stored.save c t
    (result, slot, t)

def clear (slot : Slot) (t : Tree) : Except SlotFailure Unit × Slot × Tree :=
  match slot with
  | .memory _ => (.ok (), .memory none, t)
  | .file stored =>
    let (result, t) := stored.clear t
    (result, slot, t)

end Slot

/-- What a logout that fails does to the stored credential. One that succeeds always clears it. -/
inductive LogoutPolicy
  | retain
  | clearOnFailure
deriving DecidableEq, Repr

namespace LogoutPolicy

def standard : LogoutPolicy := retain

def name : LogoutPolicy → String
  | retain => "retain"
  | clearOnFailure => "clear_on_failure"

/-- The policy of exactly this name. -/
def ofName? (s : String) : Option LogoutPolicy :=
  [retain, clearOnFailure].find? (·.name = s)

/-- A hyphen counts as an underscore, and the case of letters does not count. -/
def ofText? (s : String) : Option LogoutPolicy :=
  ofName? (s.map fun c => if c = '-' then '_' else c.toLower)

def refusal (s : String) : String :=
  "Invalid logout policy '" ++ s ++ "'. Valid values: retain, clear_on_failure"

end LogoutPolicy

end CredentialGate.Session
