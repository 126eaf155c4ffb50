import CredentialGate.Audit.Uuid
import Mathlib.Algebra.Ring.Nat

/-! Identifiers are read back from the form that they are written in. -/
namespace CredentialGate.Audit.Uuid

open Text

theorem hexValue?_lowerDigit : ∀ n < 16, hexValue? (lowerDigit n) = some n := by decide

theorem hexDigits_succ (count n : Nat) :
    hexDigits (count + 1) n = lowerDigit (n / 16 ^ count % 16) :: hexDigits count n := by
  simp [hexDigits, List.range_succ]

theorem length_hexDigits (count n : Nat) : (hexDigits count n).length = count := by
  simp [hexDigits]

/-- Digits behind a number are the lowest ones of the number that they make with it. -/
theorem foldl_hexDigits (count n m : Nat) :
    (hexDigits count n).foldl (fun n c => n.bind fun n => (hexValue? c).map (n * 16 + ·)) (some m) =
      some (m * 16 ^ count + n % 16 ^ count) := by
  induction count generalizing m with
  | zero => simp [hexDigits, Nat.mod_one]
  | succ count ih =>
    rw [hexDigits_succ, List.foldl_cons, Option.bind_some,
      hexValue?_lowerDigit _ (Nat.mod_lt _ (by decide)), Option.map_some, ih]
    have split : n % 16 ^ (count + 1) = n / 16 ^ count % 16 * 16 ^ count + n % 16 ^ count := by
      rw [Nat.pow_succ, Nat.mod_mul]
      ac_rfl
    rw [split, Nat.add_mul, Nat.pow_succ]
    congr 1
    ac_rfl

theorem length_hyphenated (size : Nat) (sizes : List Nat) (digits : List Char)
    (enough : (size :: sizes).sum = digits.length) :
    (hyphenated (size :: sizes) digits).length = digits.length + sizes.length := by
  induction sizes generalizing size digits with
  | nil => simp [hyphenated]
  | cons next sizes ih =>
    rw [List.sum_cons] at enough
    rw [hyphenated, List.length_append, List.length_cons,
      ih next (digits.drop size) (by rw [List.length_drop]; omega)]
    simp only [List.length_take, List.length_drop, List.length_cons]
    omega

theorem dropHyphens?_hyphenated (size : Nat) (sizes : List Nat) (digits : List Char)
    (enough : (size :: sizes).sum = digits.length) :
    dropHyphens? (size :: sizes) (hyphenated (size :: sizes) digits) = some digits := by
  induction sizes generalizing size digits with
  | nil =>
    have whole : digits.length = size := by simpa using enough.symm
    simp [hyphenated, dropHyphens?, whole]
  | cons next sizes ih =>
    rw [List.sum_cons] at enough
    have first : (digits.take size).length = size := by
      rw [List.length_take]
      omega
    have later := ih next (digits.drop size) (by rw [List.length_drop]; omega)
    rw [hyphenated, dropHyphens?, List.drop_left' first, List.take_left' first]
    simp [later, List.take_append_drop]

theorem read?_display (u : Uuid) : read? u.display = some u := by
  have enough : groupSizes.sum = (hexDigits 32 u.bits.toNat).length := by
    rw [length_hexDigits]
    rfl
  have length : (hyphenated groupSizes (hexDigits 32 u.bits.toNat)).length = 36 := by
    rw [groupSizes, length_hyphenated _ _ _ enough, length_hexDigits]
    rfl
  have number : hexNumber? (hexDigits 32 u.bits.toNat) = some u.bits.toNat := by
    have bound : u.bits.toNat < 16 ^ 32 := u.bits.isLt
    have folded := foldl_hexDigits 32 u.bits.toNat 0
    rwa [Nat.zero_mul, Nat.zero_add, Nat.mod_eq_of_lt bound] at folded
  simp only [read?, display, String.toList_ofList, length]
  simp [ofHyphenated?, groupSizes, dropHyphens?_hyphenated _ _ _ enough, ofDigits?,
    length_hexDigits, number]

end CredentialGate.Audit.Uuid
