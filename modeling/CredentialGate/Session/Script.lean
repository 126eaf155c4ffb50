import CredentialGate.Session.Operation

/-! Collaborators that answer from a script, over a slot in memory or in a tree of files. A slot
operation that the script refuses leaves the slot alone. -/
namespace CredentialGate.Session

structure Script where
  login : Except BackendFailure LocalIdentity
  whoami : Except BackendFailure LocalIdentity
  logout : Except BackendFailure Unit
  resetLink : Except BackendFailure Unit
  resetPassword : Except BackendFailure Unit
  directory : Except BackendFailure RemoteIdentity
  refuseLoad : Bool
  refuseSave : Bool
  refuseClear : Bool

/-- The script without a word: nobody issues or confirms anything, all else succeeds. -/
def Script.silent : Script where
  login := .error (.unreachable "")
  whoami := .error (.unreachable "")
  logout := .ok ()
  resetLink := .ok ()
  resetPassword := .ok ()
  directory := .error (.unreachable "")
  refuseLoad := false
  refuseSave := false
  refuseClear := false

structure Stage where
  script : Script
  slot : Slot
  tree : Files.Tree

namespace Stage

def load (s : Stage) : Except SlotFailure (Option Credential) × Stage :=
  (if s.script.refuseLoad then .error .refused else s.slot.load s.tree, s)

def save (c : Credential) (s : Stage) : Except SlotFailure Unit × Stage :=
  if s.script.refuseSave then (.error .refused, s)
  else
    let (result, slot, tree) := s.slot.save c s.tree
    (result, { s with slot := slot, tree := tree })

def clear (s : Stage) : Except SlotFailure Unit × Stage :=
  if s.script.refuseClear then (.error .refused, s)
  else
    let (result, slot, tree) := s.slot.clear s.tree
    (result, { s with slot := slot, tree := tree })

def collaborators : Collaborators Stage where
  login _ _ s := (s.script.login, s)
  whoami _ s := (s.script.whoami, s)
  logout _ s := (s.script.logout, s)
  sendResetLink _ s := (s.script.resetLink, s)
  resetPassword _ s := (s.script.resetPassword, s)
  fetchUser _ _ _ s := (s.script.directory, s)
  load := load
  save := save
  clear := clear

end Stage

end CredentialGate.Session
