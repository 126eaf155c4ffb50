import CredentialGate.Proofs.Toml.Reader
import CredentialGate.Toml.Scalar

/-! Natural numbers are read back from their digits. A word of digits is no other scalar: the words
for booleans, dates, times and signed numbers all hold some other character. -/
namespace CredentialGate.Toml

open Reader

/-- Digits and nothing else, at least one. -/
structure IsDigits (word : List Char) : Prop where
  all : ∀ c ∈ word, c.isDigit = true
  filled : word ≠ []

theorem isDigits_toDigits (n : Nat) : IsDigits (Nat.toDigits 10 n) where
  all _ member := Nat.isDigit_of_mem_toDigits (by decide) (by decide) member
  filled := List.ne_nil_of_length_pos Nat.length_toDigits_pos

theorem IsDigits.not_mem {word : List Char} (digits : IsDigits word) {c : Char}
    (other : c.isDigit = false) : c ∉ word := fun member => by
  simp [digits.all c member] at other

theorem digits?_all {word : List Char} (digits : IsDigits word) :
    digits? Char.isDigit word = some word := by
  obtain ⟨all, filled⟩ := digits
  fun_induction digits? Char.isDigit word with
  | case1 => exact absurd rfl filled
  | case2 c digit => rfl
  | case3 c other => exact absurd (all c (by simp)) other
  | case4 c rest digit ih => exact absurd (all '_' (by simp)) (by decide)
  | case5 c rest other => exact absurd (all c (by simp)) other
  | case6 c rest single underscore digit ih =>
    rw [List.forall_mem_cons] at all
    rw [ih all.2 (fun empty => single (by rw [empty]))]
    rfl
  | case7 c rest _ _ other => exact absurd (all c (by simp)) other

theorem digitChar_zero : ∀ n < 10, Nat.digitChar n = '0' → n = 0 := by decide

/-- Only zero is written with a zero in front. -/
theorem eq_zero_of_head {n : Nat} (head : (Nat.toDigits 10 n).head? = some '0') : n = 0 := by
  induction n using Nat.strongRecOn with
  | ind n ih =>
    by_cases small : n < 10
    · rw [Nat.toDigits_of_lt_base small, List.head?_cons, Option.some_inj] at head
      exact digitChar_zero n small head
    · obtain ⟨c, more, spelled⟩ := List.exists_cons_of_ne_nil (isDigits_toDigits (n / 10)).filled
      rw [Nat.toDigits_of_base_le (by decide) (Nat.le_of_not_lt small), spelled,
        List.cons_append, List.head?_cons] at head
      have zero := ih (n / 10) (by omega) (by rw [spelled, List.head?_cons, head])
      omega

theorem decimalDigits?_toDigits (n : Nat) :
    decimalDigits? (Nat.toDigits 10 n) = some (Nat.toDigits 10 n) := by
  have single : ¬ ((Nat.toDigits 10 n).head? = some '0' ∧ (Nat.toDigits 10 n).length ≠ 1) := by
    rintro ⟨head, long⟩
    obtain rfl := eq_zero_of_head head
    exact long rfl
  simp only [decimalDigits?, digits?_all (isDigits_toDigits n), Option.bind_eq_bind,
    Option.bind_some, if_neg single]

theorem hexValue?_digit {c : Char} (digit : c.isDigit = true) :
    Text.hexValue? c = some (c.toNat - '0'.toNat) := by
  have bounds : '0' ≤ c ∧ c ≤ '9' := by
    simpa [Char.isDigit, Char.le_def] using digit
  rw [Text.hexValue?, if_pos bounds]

theorem foldl_number {word : List Char} (all : ∀ c ∈ word, c.isDigit = true) (start : Nat) :
    word.foldl (fun n c => n * 10 + (Text.hexValue? c).getD 0) start =
      Nat.ofDigitChars 10 word start := by
  unfold Nat.ofDigitChars
  induction word generalizing start with
  | nil => rfl
  | cons c word ih =>
    rw [List.forall_mem_cons] at all
    rw [List.foldl_cons, List.foldl_cons, ih all.2, hexValue?_digit all.1, Option.getD_some,
      Nat.mul_comm]

theorem number_toDigits (n : Nat) : number 10 (Nat.toDigits 10 n) = n := by
  refine (foldl_number (isDigits_toDigits n).all 0).trans ?_
  exact Nat.ofDigitChars_toDigits (by decide) (by decide)

theorem takeSign_digits {word : List Char} (digits : IsDigits word) :
    takeSign word = (false, word) := by
  unfold takeSign
  split
  · exact absurd List.mem_cons_self (digits.not_mem rfl)
  · exact absurd List.mem_cons_self (digits.not_mem rfl)
  · rfl

theorem integer?_toDigits (n : Nat) : integer? (Nat.toDigits 10 n) = some (n : Int) := by
  have digits := isDigits_toDigits n
  unfold integer?
  split
  · exact absurd (by simp_all) (digits.not_mem (c := 'x') rfl)
  · exact absurd (by simp_all) (digits.not_mem (c := 'o') rfl)
  · exact absurd (by simp_all) (digits.not_mem (c := 'b') rfl)
  · simp [takeSign_digits digits, decimalDigits?_toDigits, number_toDigits]

theorem not_isDate {word : List Char} (noDash : '-' ∉ word) : isDate word = false := by
  unfold isDate
  split
  · exact absurd (by simp) noDash
  · rfl

theorem not_isTime {word : List Char} (noColon : ':' ∉ word) : isTime word = false := by
  unfold isTime
  split
  · exact absurd (by simp) noColon
  · rfl

theorem not_isMoment {word : List Char} (digits : IsDigits word) : isMoment word = false := by
  rw [isMoment, not_isDate (digits.not_mem rfl), not_isTime (digits.not_mem rfl)]
  split
  · rename_i separator time behind
    have member : separator ∈ word := List.mem_of_mem_drop (behind ▸ List.mem_cons_self)
    have other (c : Char) (mark : c.isDigit = false) : (separator == c) = false :=
      beq_false_of_ne fun same => digits.not_mem mark (same ▸ member)
    simp [other 'T' rfl, other 't' rfl, other ' ' rfl]
  · rfl

theorem scalar?_toDigits (n : Nat) : scalar? (Nat.toDigits 10 n) = some (.integer n) := by
  have digits := isDigits_toDigits n
  have noLetter {word : List Char} {c : Char} (member : c ∈ word) (letter : c.isDigit = false) :
      Nat.toDigits 10 n ≠ word := by
    rintro rfl
    exact digits.not_mem letter member
  rw [scalar?, if_neg (noLetter (c := 't') (by simp) rfl),
    if_neg (noLetter (c := 'f') (by simp) rfl), not_isMoment digits, integer?_toDigits]
  rfl

end CredentialGate.Toml
