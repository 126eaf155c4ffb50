import CredentialGate.Proofs.Files.Parent

/-! The places on the way to a path. Making room for a file puts directories there, where nothing
stood, and touches nothing else. -/
namespace CredentialGate.Files.Tree

/-- The place is on the way to what the path names. -/
def Above (t : Tree) (p : FilePath) (place : Place) : Prop :=
  ∃ n < p.parts.length, place = (p.parts.take n).foldl placeNamed.onward (t.startOf p)

/-- The one tree has become the other by directories that were made where nothing stood, in places
of one kind. -/
structure Makes (kind : Place → Prop) (t u : Tree) : Prop where
  here : u.here = t.here
  nodes : ∀ place, u.node? place = t.node? place ∨
    kind place ∧ t.node? place = none ∧ u.node? place = some .directory

section

variable {kind other : Place → Prop} {t u v : Tree}

theorem Makes.refl (kind : Place → Prop) (t : Tree) : Makes kind t t := ⟨rfl, fun _ => .inl rfl⟩

theorem Makes.trans (first : Makes kind t u) (later : Makes kind u v) : Makes kind t v where
  here := later.here.trans first.here
  nodes place := by
    rcases first.nodes place with kept | ⟨fits, vacant, made⟩
    · rw [← kept]
      exact later.nodes place
    · rcases later.nodes place with kept | ⟨-, again, -⟩
      · exact .inr ⟨fits, vacant, kept.trans made⟩
      · simp [made] at again

theorem Makes.mono (makes : Makes kind t u) (wider : ∀ place, kind place → other place) :
    Makes other t u where
  here := makes.here
  nodes place := (makes.nodes place).imp_right fun ⟨fits, made⟩ => ⟨wider place fits, made⟩

/-- Files stay as they are, and none is made. -/
theorem Makes.file_iff (makes : Makes kind t u) (place : Place) (f : File) :
    u.node? place = some (.file f) ↔ t.node? place = some (.file f) := by
  rcases makes.nodes place with kept | ⟨-, vacant, made⟩
  · rw [kept]
  · simp [vacant, made]

theorem Makes.startOf_eq (makes : Makes kind t u) (p : FilePath) : u.startOf p = t.startOf p := by
  simp only [startOf, makes.here]

theorem Makes.above_iff (makes : Makes kind t u) (p : FilePath) (place : Place) :
    u.Above p place ↔ t.Above p place := by
  simp only [Above, makes.startOf_eq p]

theorem makes_directory {place : Place} (fits : kind place) (vacant : t.node? place = none) :
    Makes kind t (t.set place .directory) where
  here := rfl
  nodes other := by
    have free : t.node? place ≠ some .directory := by simp [vacant]
    rw [node?_set t (ne_root free)]
    split
    · rename_i same
      exact .inr ⟨same ▸ fits, same ▸ vacant, rfl⟩
    · exact .inl rfl

end

theorem makeAlong_makes (t : Tree) (place : Place) (parts : List String) :
    Makes (fun other => ∃ n ≤ parts.length, other = (parts.take n).foldl placeNamed.onward place)
      t (t.makeAlong place parts).2 := by
  induction parts generalizing t place with
  | nil => exact .refl _ t
  | cons part parts ih =>
    have further (start : Place) (next : placeNamed.onward place part = start) (u : Tree) :
        Makes (fun other => ∃ n ≤ (part :: parts).length,
          other = ((part :: parts).take n).foldl placeNamed.onward place)
          u (u.makeAlong start parts).2 := by
      refine (ih u start).mono ?_
      rintro _ ⟨n, fits, rfl⟩
      exact ⟨n + 1, Nat.succ_le_succ fits, by simp [next]⟩
    simp only [makeAlong]
    split
    · rename_i up
      exact further _ (if_pos up) t
    · rename_i down
      have next : placeNamed.onward place part = place ++ [part] := if_neg down
      split
      · split
        · exact further _ next t
        · exact .refl _ t
        · rename_i vacant
          refine .trans (makes_directory ⟨1, by simp, ?_⟩ vacant) (further _ next _)
          simp [next]
      · exact .refl _ t

/-- The directories that are made for a file are on the way to it. -/
theorem makeParents_makes (t : Tree) (p : FilePath) :
    Makes (t.Above p) t (t.makeParents p).2 := by
  unfold makeParents
  split
  · exact .refl _ t
  · rename_i deep
    have above := above_of_deep deep
    unfold makeDirectories
    split
    · rw [startOf_parent above, FilePath.parent_parts above]
      refine (makeAlong_makes t _ _).mono ?_
      rintro _ ⟨n, fits, rfl⟩
      rw [List.length_dropLast] at fits
      refine ⟨n, by omega, ?_⟩
      rw [List.dropLast_eq_take, List.take_take, Nat.min_eq_left fits]
    · exact .refl _ t

/-- Only directories lead to a place. -/
theorem walk_above {t : Tree} {place found : Place} {parts : List String}
    (walked : t.walk place parts = some found) (n : Nat) (fits : n < parts.length) :
    t.node? ((parts.take n).foldl placeNamed.onward place) = some .directory := by
  induction parts generalizing place n with
  | nil => simp at fits
  | cons part parts ih =>
    have standing := walk_directory walked
    cases n with
    | zero => exact standing
    | succ n =>
      simp only [walk, standing] at walked
      rw [List.take_succ_cons, List.foldl_cons, placeNamed.onward]
      have fits : n < parts.length := Nat.lt_of_succ_lt_succ fits
      split at walked
      · rw [if_pos ‹_›]
        exact ih walked n fits
      · rw [if_neg ‹_›]
        split at walked
        · exact ih walked n fits
        · cases walked

theorem above_located {t : Tree} {p : FilePath} {place found : Place}
    (located : t.locate p = some found) (above : t.Above p place) :
    t.node? place = some .directory := by
  obtain ⟨n, fits, rfl⟩ := above
  unfold locate at located
  split at located
  · exact walk_above located n fits
  · cases located

/-- Opening a file changes no other place. -/
theorem openFile?_elsewhere {t u : Tree} {p : FilePath} {place other : Place} {f : File}
    (opened : t.openFile? p = some (place, f, u)) (apart : other ≠ place) :
    u.node? other = t.node? other := by
  unfold openFile? at opened
  split at opened
  · cases opened
  · split at opened
    · cases opened
    · split at opened <;> cases opened
      rfl
    · rename_i vacant
      split at opened <;> cases opened
      have free : t.node? place ≠ some .directory := by simp [vacant]
      exact (node?_set t (ne_root free) _ other).trans (if_neg apart)

end CredentialGate.Files.Tree
