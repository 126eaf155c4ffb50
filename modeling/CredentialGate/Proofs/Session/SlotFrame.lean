import CredentialGate.Http.Collaborators
import CredentialGate.Proofs.Files.Ancestors
import CredentialGate.Proofs.Session.Slot
import Mathlib.Control.Monad.Basic

/-! What a slot in a file touches. A save makes directories on the way to the path and puts one
file, a clear removes one, and a load only looks; every case in which one of them fails comes before
a file is written or removed. -/
namespace CredentialGate.Session.FileSlot

open Files

variable {slot : FileSlot} {c : Credential} {t u : Tree}

/-- A save fails before anything is written, or it succeeds. It has only made directories if it
fails, and has put one whole file otherwise. -/
theorem save_cases (slot : FileSlot) (c : Credential) (t : Tree) :
    let made := (t.makeParents slot.path).2
    (∃ e, slot.save c t = (.error e, made)) ∨
    ∃ place f opened u, made.openFile? slot.path = some (place, f, opened) ∧
      slot.save c t = (.ok (), u) ∧ u.here = opened.here ∧
      ∀ other, u.node? other =
        if other = place then some (.file (saved f c)) else opened.node? other := by
  intro made
  rcases tried : t.makeParents slot.path with ⟨_ | _, v⟩
  · exact .inl ⟨.cannotMakeDirectory, by simp [save, tried, made]⟩
  · obtain rfl : v = made := by simp [made, tried]
    cases found : made.openFile? slot.path with
    | none => exact .inl ⟨.cannotWrite slot.path, by simp [save, tried, Tree.write?, found]⟩
    | some opened =>
      obtain ⟨place, f, opened⟩ := opened
      obtain ⟨-, -, standing, -⟩ := Tree.openFile?_stands found
      have named : place ≠ [] :=
        Tree.ne_root (by simp [standing] : opened.node? place ≠ some .directory)
      refine .inr ⟨place, f, opened, _, rfl, save_opened tried found c, rfl, fun other => ?_⟩
      rw [Tree.node?_set _ named, Tree.node?_set _ named]
      split <;> rfl

/-- A clear removes the one file, if there is any. -/
theorem clear_cases (slot : FileSlot) (t : Tree) :
    t.contains slot.path = false ∧ slot.clear t = (.ok (), t) ∨
    (∃ place f, t.locate slot.path = some place ∧ t.node? place = some (.file f) ∧
      slot.clear t = (.ok (), t.erase place)) ∨
    slot.clear t = (.error (.cannotRemove slot.path), t) := by
  cases found : t.find? slot.path with
  | none => exact .inl (by simp [Tree.contains, clear, found])
  | some node =>
    obtain ⟨place, located, standing, -⟩ := Tree.find?_stands found
    refine .inr ?_
    cases node with
    | directory =>
      exact .inr (by simp [clear, Tree.contains, found, Tree.remove?, Tree.file?, located])
    | file f =>
      refine .inl ⟨place, f, located, standing, ?_⟩
      simp [clear, Tree.contains, found, Tree.remove?, Tree.file?, located]

theorem contains_erased {place : Place} {f : File} (located : t.locate slot.path = some place)
    (standing : t.node? place = some (.file f)) : (t.erase place).contains slot.path = false := by
  obtain ⟨within, gone⟩ := Tree.erase_found standing
  simp [Tree.contains, Tree.find?, within.locate located, gone]

theorem clear_vacant (vacant : t.contains slot.path = false) : slot.clear t = (.ok (), t) := by
  simp [clear, vacant]

/-- A save that succeeds leaves the file at the path, and every other place as it was, but for
directories on the way. -/
theorem save_ok (succeeds : slot.save c t = (.ok (), u)) :
    (∃ f, u.find? slot.path = some (.file f) ∧ f.content = .bytes (Text.utf8 c.token) ∧
      f.mode = ownerOnly) ∧
    u.here = t.here ∧ ∀ place, place ≠ t.placeNamed slot.path →
      u.node? place = t.node? place ∨
      t.Above slot.path place ∧ t.node? place = none ∧ u.node? place = some .directory := by
  have makes := Tree.makeParents_makes t slot.path
  rcases save_cases slot c t with ⟨e, failed⟩ | ⟨place, f, opened, v, found, ended, here, nodes⟩
  · simp [succeeds] at failed
  · obtain rfl : u = v := by simpa [succeeds] using ended
    obtain ⟨before, located, standing, plain⟩ := Tree.openFile?_stands found
    have within : Tree.Within opened u := ⟨here, fun other directory => by
      rw [nodes, if_neg]
      · exact directory
      · rintro rfl
        simp [standing] at directory⟩
    have named : place = t.placeNamed slot.path := by
      rw [Tree.locate_named (Tree.openFile?_located found), Tree.placeNamed, makes.startOf_eq,
        Tree.placeNamed]
    refine ⟨⟨saved f c, ?_, rfl, rfl⟩, here.trans (before.here.trans makes.here), ?_⟩
    · simp [Tree.find?, within.locate located, nodes, plain]
    · rintro other apart
      rw [← named] at apart
      rw [nodes, if_neg apart, Tree.openFile?_elsewhere found apart]
      exact makes.nodes other

/-- A save fails where a directory stands, and below a file. -/
theorem save_blocked (blocked : t.find? slot.path = some .directory ∨
      ∃ place f, t.Above slot.path place ∧ t.node? place = some (.file f)) :
    ∃ e, (slot.save c t).1 = .error e := by
  have makes := Tree.makeParents_makes t slot.path
  rcases save_cases slot c t with ⟨e, failed⟩ | ⟨place, f, opened, v, found, -, -, -⟩
  · exact ⟨e, by rw [failed]⟩
  · exfalso
    have located := Tree.openFile?_located found
    rcases blocked with directory | ⟨above, g, on, standing⟩
    · have kept := Tree.within_makeParents t slot.path
      obtain ⟨other, reached, standing, -⟩ := Tree.find?_stands directory
      obtain rfl : place = other := Option.some_inj.1 (located.symm.trans (kept.locate reached))
      have stays := kept.directories place standing
      rcases Tree.openFile?_before found with file | ⟨vacant, -⟩
      · simp [stays] at file
      · simp [stays] at vacant
    · rw [← makes.file_iff] at standing
      have directory := Tree.above_located located ((makes.above_iff slot.path above).2 on)
      simp [standing] at directory

/-- Whatever a tree of files is like, a slot in it touches no other place than its own, except that
a save makes directories on the way. A save that succeeds puts the whole file, which then only its
owner may read, whatever it was; one that fails changes no file. A load changes nothing. A clear
that succeeds leaves no file, and can be repeated; one that fails changes nothing. -/
theorem file_slot_confined (slot : FileSlot) (t : Tree) :
    (∀ c u, slot.save c t = (.ok (), u) →
      (∃ f, u.find? slot.path = some (.file f) ∧ f.content = .bytes (Text.utf8 c.token) ∧
        f.mode = ownerOnly) ∧
      u.here = t.here ∧ ∀ place, place ≠ t.placeNamed slot.path →
        u.node? place = t.node? place ∨
        t.Above slot.path place ∧ t.node? place = none ∧ u.node? place = some .directory) ∧
    (∀ c, (t.find? slot.path = some .directory ∨
        ∃ place f, t.Above slot.path place ∧ t.node? place = some (.file f)) →
      ∃ e, (slot.save c t).1 = .error e) ∧
    (∀ c e u, slot.save c t = (.error e, u) → Tree.Makes (t.Above slot.path) t u ∧
      ∀ place f, u.node? place = some (.file f) ↔ t.node? place = some (.file f)) ∧
    (∀ (τ : Type) (b : Http.Backends) (net : Http.Network τ) (world : τ),
      ((b.collaborators net).load ⟨world, .file slot, t⟩).2 = ⟨world, .file slot, t⟩) ∧
    (∀ u, slot.clear t = (.ok (), u) → u.contains slot.path = false ∧
      slot.clear u = (.ok (), u) ∧ (t.contains slot.path = false → u = t) ∧
      u.here = t.here ∧
      ∀ place, place ≠ t.placeNamed slot.path → u.node? place = t.node? place) ∧
    ∀ e u, slot.clear t = (.error e, u) → u = t := by
  refine ⟨fun c u => save_ok, fun c => save_blocked, ?_, fun _ _ _ _ => rfl, ?_, ?_⟩
  · intro c e u fails
    have makes := Tree.makeParents_makes t slot.path
    rcases save_cases slot c t with ⟨e, failed⟩ | ⟨place, f, opened, v, -, ended, -, -⟩
    · obtain ⟨-, rfl⟩ := Prod.mk.inj (fails.symm.trans failed)
      exact ⟨makes, makes.file_iff⟩
    · simp [fails] at ended
  · intro u succeeds
    rcases clear_cases slot t with
      ⟨vacant, ended⟩ | ⟨place, f, located, standing, ended⟩ | ended
    · obtain ⟨-, rfl⟩ := Prod.mk.inj (succeeds.symm.trans ended)
      exact ⟨vacant, ended, fun _ => rfl, rfl, fun _ _ => rfl⟩
    · obtain ⟨-, rfl⟩ := Prod.mk.inj (succeeds.symm.trans ended)
      have vacant := contains_erased located standing
      have named : place ≠ [] :=
        Tree.ne_root (by simp [standing] : t.node? place ≠ some .directory)
      refine ⟨vacant, clear_vacant vacant, fun absent => ?_, rfl, fun other apart => ?_⟩
      · exact (Prod.mk.inj (ended.symm.trans (clear_vacant absent))).2
      · rw [← Tree.locate_named located] at apart
        rw [Tree.node?_erase t named, if_neg apart]
    · simp [succeeds] at ended
  · intro e u fails
    rcases clear_cases slot t with ⟨-, ended⟩ | ⟨_, _, -, -, ended⟩ | ended
    · simp [fails] at ended
    · simp [fails] at ended
    · exact (Prod.mk.inj (fails.symm.trans ended)).2

/-- A file that everybody may read is put anew, a file beside it stays, and a directory in the place
of another slot is left alone. -/
theorem readable_file_restricted :
    let t : Tree := ⟨[(["conf"], .directory),
      (["conf", "api_token"], .file ⟨0, .bytes (Text.utf8 "old"), fileMode⟩),
      (["conf", "note"], .file ⟨1, .bytes (Text.utf8 "kept"), fileMode⟩)], 2, []⟩
    let slot : FileSlot := ⟨⟨"conf/../conf/api_token"⟩⟩
    let u := (slot.save ⟨"abc"⟩ t).2
    (slot.save ⟨"abc"⟩ t).1 = .ok () ∧
      (∃ f, u.find? slot.path = some (.file f) ∧ f.content = .bytes (Text.utf8 "abc") ∧
        f.mode = ownerOnly) ∧
      u.node? ["conf", "note"] = t.node? ["conf", "note"] ∧
      (∃ e, ((FileSlot.mk ⟨"conf"⟩).save ⟨"abc"⟩ t).1 = .error e) ∧
      (slot.clear u).1 = .ok () ∧ (slot.clear u).2.contains slot.path = false := by
  intro t slot u
  have saves : (slot.save ⟨"abc"⟩ t).1 = .ok () := by decide +kernel
  have clears : (slot.clear u).1 = .ok () := by decide +kernel
  obtain ⟨save, -⟩ := file_slot_confined slot t
  obtain ⟨-, -, -, -, clear, -⟩ := file_slot_confined slot u
  obtain ⟨-, blocked, -⟩ := file_slot_confined ⟨⟨"conf"⟩⟩ t
  obtain ⟨put, -, elsewhere⟩ := save ⟨"abc"⟩ u (Prod.ext saves rfl)
  refine ⟨saves, put, ?_, blocked ⟨"abc"⟩ (.inl (by decide +kernel)), clears,
    (clear _ (Prod.ext clears rfl)).1⟩
  rcases elsewhere ["conf", "note"] (by decide +kernel) with same | ⟨-, vacant, -⟩
  · exact same
  · exact absurd vacant (by decide)

end CredentialGate.Session.FileSlot
