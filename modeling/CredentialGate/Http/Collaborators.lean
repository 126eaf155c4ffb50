import CredentialGate.Http.Directory
import CredentialGate.Http.Primary
import CredentialGate.Session.Operation

/-! The collaborators of a session at work: both backends over one network, and a slot in the tree
of files. -/
namespace CredentialGate.Http

open Session

structure Backends where
  primary : Primary
  directory : Directory
deriving DecidableEq, Repr

/-- What the calls of a session change: the network, the slot and the files. -/
structure Setting (σ : Type) where
  network : σ
  slot : Slot
  tree : Files.Tree

namespace Setting

def overNetwork (call : σ → α × σ) (s : Setting σ) : α × Setting σ :=
  let (a, network) := call s.network
  (a, { s with network := network })

def overSlot (call : Slot → Files.Tree → α × Slot × Files.Tree) (s : Setting σ) : α × Setting σ :=
  let (a, slot, tree) := call s.slot s.tree
  (a, { s with slot := slot, tree := tree })

end Setting

open Setting

def Backends.collaborators (b : Backends) (net : Network σ) : Collaborators (Setting σ) where
  login email password := overNetwork (b.primary.login net email password)
  whoami bearer := overNetwork (b.primary.whoami net bearer)
  logout bearer? := overNetwork (b.primary.logout net bearer?)
  sendResetLink email := overNetwork (b.primary.sendResetLink net email)
  resetPassword reset := overNetwork (b.primary.resetPassword net reset)
  fetchUser authority name bearer? := overNetwork (b.directory.fetchUser net authority name bearer?)
  load s := (s.slot.load s.tree, s)
  save credential := overSlot (·.save credential)
  clear := overSlot (·.clear)

end CredentialGate.Http
