import CredentialGate.Toml.Reader

/-! What the small readers take, and where a run of characters ends. -/
namespace CredentialGate.Toml

namespace Reader

@[simp] theorem run_peek (input : List Char) : peek.run input = some (input.head?, input) := rfl

@[simp] theorem run_next_cons (c : Char) (rest : List Char) :
    next.run (c :: rest) = some (c, rest) := rfl

@[simp] theorem run_ofOption (a : α) (input : List Char) :
    (ofOption (some a)).run input = some (a, input) := rfl

theorem run_take {chars : List Char} {n : Nat} (length : chars.length = n) (rest : List Char) :
    (take n).run (chars ++ rest) = some (chars, rest) := by
  simp [take, ← length]

theorem run_goesOn (expected rest : List Char) :
    (goesOn expected).run (expected ++ rest) = some (true, rest) := by
  simp [goesOn]

theorem run_goesOn_other {expected input : List Char} (other : ¬ expected <+: input) :
    (goesOn expected).run input = some (false, input) := by
  simp [goesOn, other]

theorem run_goesOn_head {c : Char} {input : List Char} (other : input.head? ≠ some c)
    (more : List Char) : (goesOn (c :: more)).run input = some (false, input) := by
  apply run_goesOn_other
  rintro ⟨rest, rfl⟩
  exact other rfl

/-- The text does not go on with a character of this class. -/
def StopsAt (p : Char → Bool) (rest : List Char) : Prop := rest.head?.any p = false

theorem run_takeWhile {p : Char → Bool} {run rest : List Char} (all : ∀ c ∈ run, p c = true)
    (stops : StopsAt p rest) : (takeWhile p).run (run ++ rest) = some (run, rest) := by
  have none_left : rest.takeWhile p = [] ∧ rest.dropWhile p = rest := by
    cases rest with
    | nil => exact ⟨rfl, rfl⟩
    | cons c rest =>
      have other : p c = false := by simpa [StopsAt] using stops
      simp [other]
  simp [takeWhile, List.takeWhile_append_of_pos all, List.dropWhile_append_of_pos all, none_left]

end Reader

theorem run_blanks {pad rest : List Char} (all : ∀ c ∈ pad, isBlank c = true)
    (visible : Reader.StopsAt isBlank rest) : blanks.run (pad ++ rest) = some ((), rest) := by
  rw [blanks, Reader.run_bind, Reader.run_takeWhile all visible]
  rfl

theorem run_blanks_none {rest : List Char} (visible : Reader.StopsAt isBlank rest) :
    blanks.run rest = some ((), rest) := @run_blanks [] rest (by simp) visible

end CredentialGate.Toml
