import CredentialGate.Text.Blank

/-! Lines that have been ended are split again. A line may hold anything but a line feed and a
carriage return: one that stands at its end would be taken for a part of the end. -/
namespace CredentialGate.Text

/-- A line that ends where its line feed stands, and not before. -/
def Unbroken (line : List Char) : Prop := '\n' ∉ line ∧ '\r' ∉ line

theorem dropReturn_unbroken {line : List Char} (unbroken : Unbroken line) :
    dropReturn line = line := by
  unfold dropReturn
  split
  · rename_i rest reversed
    have member : '\r' ∈ line.reverse := by simp [reversed]
    exact absurd (List.mem_reverse.1 member) unbroken.2
  · rfl

theorem linesFrom_append {line : List Char} (unbroken : '\n' ∉ line) (before rest : List Char) :
    linesFrom before (line ++ rest) = linesFrom (line.reverse ++ before) rest := by
  induction line generalizing before with
  | nil => rfl
  | cons c line ih =>
    rw [List.mem_cons, not_or] at unbroken
    have other : c ≠ '\n' := Ne.symm unbroken.1
    rw [List.cons_append, linesFrom, ih unbroken.2]
    · simp
    · exact fun same => other same

theorem lines_ended {lines : List (List Char)} (unbroken : ∀ line ∈ lines, Unbroken line) :
    Text.lines (String.ofList (lines.flatMap (· ++ ['\n']))) = lines.map String.ofList := by
  rw [Text.lines, String.toList_ofList]
  congr 1
  induction lines with
  | nil => rfl
  | cons line lines ih =>
    rw [List.forall_mem_cons] at unbroken
    rw [List.flatMap_cons, List.append_assoc, linesFrom_append unbroken.1.1, List.singleton_append,
      linesFrom, List.append_nil, List.reverse_reverse, dropReturn_unbroken unbroken.1,
      ih unbroken.2]

end CredentialGate.Text
