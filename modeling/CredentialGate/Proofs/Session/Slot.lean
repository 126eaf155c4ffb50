import CredentialGate.Proofs.Files.Parent
import CredentialGate.Proofs.Text.Utf8
import CredentialGate.Session.Slot

/-! What a slot keeps. A credential that could be saved is kept as it is, and loaded again unless
there are blanks around it, which a file slot drops. -/
namespace CredentialGate.Session

open Files

/-- The credential without the blanks around it, unless it is blank. -/
def withoutBlanks? (c : Credential) : Option Credential :=
  if (Text.trim c.token).isEmpty then none else some ⟨Text.trim c.token⟩

/-- A credential that no blanks stand around stays as it is. -/
theorem withoutBlanks?_eq_self_iff (c : Credential) :
    withoutBlanks? c = some c ↔ c.token ≠ "" ∧ Text.trim c.token = c.token := by
  obtain ⟨token⟩ := c
  unfold withoutBlanks?
  split
  · rename_i blank
    rw [String.isEmpty_iff] at blank
    simp only [blank, reduceCtorEq, false_iff, not_and]
    exact fun filled empty => filled empty.symm
  · rename_i filled
    rw [String.isEmpty_iff] at filled
    simp only [Option.some.injEq, Credential.mk.injEq]
    refine ⟨fun bare => ⟨fun empty => ?_, bare⟩, And.right⟩
    exact filled (bare.trans empty)

namespace FileSlot

variable {slot : FileSlot} {t : Tree} {c : Credential}

theorem load_kept (kept : t.readBytes? slot.path = some (Text.utf8 c.token)) :
    slot.load t = .ok (withoutBlanks? c) := by
  have text : t.readText? slot.path = some c.token := by
    rw [Tree.readText?, kept]
    exact Text.ofUtf8_utf8 c.token
  have there : t.contains slot.path = true := by
    cases found : t.find? slot.path with
    | none => simp [Tree.readBytes?, Tree.read?, Tree.file?, found] at kept
    | some node => simp [Tree.contains, found]
  simp [load, there, text, withoutBlanks?]

/-- A slot that holds a credential is a file, and the credential is not empty. -/
theorem load_found (held : slot.load t = .ok (some c)) :
    c.isEmpty = false ∧ ∃ place f, t.locate slot.path = some place ∧
      t.node? place = some (.file f) ∧ slot.path.endsInDirectory = false := by
  unfold load at held
  split at held
  · split at held
    · cases held
    · rename_i text read
      constructor
      · dsimp only at held
        split at held <;> cases held
        rename_i filled
        simpa [Credential.isEmpty] using filled
      · obtain ⟨b, found, -⟩ := Option.bind_eq_some_iff.1 read
        obtain ⟨place, f, located, standing, -, plain⟩ := Tree.readBytes?_stands found
        exact ⟨place, f, located, standing, plain⟩
  · cases held

/-- A slot that holds a credential can be cleared. -/
theorem clear_held (held : slot.load t = .ok (some c)) :
    slot.load (slot.clear t).2 = .ok none := by
  obtain ⟨-, place, f, located, standing, plain⟩ := load_found held
  obtain ⟨within, vacant⟩ := Tree.erase_found standing
  have there : t.find? slot.path = some (.file f) := by
    simp [Tree.find?, located, standing, plain]
  have gone : (t.erase place).find? slot.path = none := by
    simp [Tree.find?, within.locate located, vacant]
  simp [clear, Tree.contains, there, Tree.remove?, Tree.file?, located, load, gone]

/-- What a save leaves of the file that it has opened: the bytes, then the mode. -/
def saved (f : File) (c : Credential) : File := ⟨f.serial, .bytes (Text.utf8 c.token), ownerOnly⟩

theorem save_opened {u w : Tree} {place : Place} {f : File}
    (made : t.makeParents slot.path = (true, u))
    (opened : u.openFile? slot.path = some (place, f, w)) (next : Credential) :
    slot.save next t = (.ok (),
      (w.set place (.file { f with content := .bytes (Text.utf8 next.token) })).set place
        (.file (saved f next))) := by
  obtain ⟨-, located, standing, -⟩ := Tree.openFile?_stands opened
  let g : File := { f with content := .bytes (Text.utf8 next.token) }
  obtain ⟨-, found, stands⟩ := Tree.set_found located standing g
  have written : u.write? slot.path (.bytes (Text.utf8 next.token)) =
      some (w.set place (.file g)) := by
    simp [Tree.write?, opened, g]
  have restricted : (w.set place (.file g)).setMode? slot.path ownerOnly =
      some ((w.set place (.file g)).set place (.file (saved f next))) := by
    simp [Tree.setMode?, found, stands, saved, g]
  simp [save, made, written, restricted, g]

/-- Whatever can be opened for writing takes a credential. -/
theorem save_fits {u : Tree} (made : t.makeParents slot.path = (true, u))
    (room : (u.openFile? slot.path).isSome = true) (next : Credential) :
    ∃ v, slot.save next t = (.ok (), v) ∧
      v.readBytes? slot.path = some (Text.utf8 next.token) := by
  obtain ⟨⟨place, f, w⟩, opened⟩ := Option.isSome_iff_exists.1 room
  obtain ⟨-, located, standing, plain⟩ := Tree.openFile?_stands opened
  obtain ⟨-, located, standing⟩ := Tree.set_found located standing
    { f with content := .bytes (Text.utf8 next.token) }
  obtain ⟨-, located, standing⟩ := Tree.set_found located standing (saved f next)
  exact ⟨_, save_opened made opened next, Tree.readBytes?_found located plain standing⟩

/-- A slot that holds a credential takes another in its place. -/
theorem save_held (held : slot.load t = .ok (some c)) (next : Credential) :
    (slot.save next t).1 = .ok () := by
  obtain ⟨-, place, f, located, standing, plain⟩ := load_found held
  have opened := Tree.openFile?_again located standing plain
  obtain ⟨v, saved, -⟩ :=
    save_fits (Tree.makeParents_located located) (Option.isSome_of_eq_some opened) next
  rw [saved]

end FileSlot

namespace Slot

/-- The slot holds exactly this credential. -/
def Keeps (slot : Slot) (t : Tree) (c : Credential) : Prop :=
  match slot with
  | .memory held? => held? = some c
  | .file stored => t.readBytes? stored.path = some (Text.utf8 c.token)

theorem save_keeps {slot : Slot} {c : Credential} {t : Tree}
    (saved : (slot.save c t).1 = .ok ()) :
    (slot.save c t).2.1.Keeps (slot.save c t).2.2 c := by
  cases slot with
  | memory held? => rfl
  | file stored =>
    simp only [save, FileSlot.save] at saved ⊢
    split at saved
    · cases saved
    · split at saved
      · cases saved
      · rename_i written
        split at saved
        · cases saved
        · rename_i restricted
          exact Tree.readBytes?_written written restricted

theorem Keeps.load_eq {slot : Slot} {t : Tree} {c : Credential} (keeps : slot.Keeps t c)
    (bare : Text.trim c.token = c.token) (present : c.token ≠ "") : slot.load t = .ok (some c) := by
  cases slot with
  | memory held? => exact congrArg Except.ok keeps
  | file stored =>
    have kept : withoutBlanks? c = some c := (withoutBlanks?_eq_self_iff c).2 ⟨present, bare⟩
    exact (FileSlot.load_kept keeps).trans (congrArg Except.ok kept)

end Slot

end CredentialGate.Session
