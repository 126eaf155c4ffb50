import CredentialGate.Proofs.Json.Numeral

/-! Integers. What an integer is written as is a numeral, and it is read back from there as long as
it has no more than 64 bits. -/
namespace CredentialGate.Json

open Reader

/-- The number that digits spell behind those of another one. -/
def spelledFrom (n : Nat) (digits : Bytes) : Nat :=
  digits.foldl (fun n digit => n * 10 + digitValue digit) n

/-- The integer of a numeral that has neither fraction nor exponent. -/
def integerOf : Bytes → Int
  | [] => 0
  | b :: digits => if b = minusMark then -spelledFrom 0 digits else spelledFrom 0 (b :: digits)

/-- The integers of 64 bits, with a sign or without. -/
structure Is64Bit (n : Int) : Prop where
  low : -(Nat.pow 2 63 : Nat) ≤ n
  high : n < (Nat.pow 2 64 : Nat)

/-- The numeral is that of an integer of 64 bits. -/
def IsInteger (numeral : Bytes) : Prop := ∃ n, Is64Bit n ∧ numeral = (Number.integer n).write

theorem digit_spelled : ∀ n < 10,
    isDigit (zeroDigit + UInt8.ofNat n) = true ∧ digitValue (zeroDigit + UInt8.ofNat n) = n ∧
      (zeroDigit + UInt8.ofNat n = zeroDigit → n = 0) := by
  decide

theorem spelledFrom_snoc (n : Nat) (digits : Bytes) (digit : UInt8) :
    spelledFrom n (digits ++ [digit]) = spelledFrom n digits * 10 + digitValue digit := by
  rw [spelledFrom, List.foldl_append]
  rfl

theorem spelledFrom_digitsOf (n : Nat) : spelledFrom 0 (digitsOf n) = n := by
  induction n using digitsOf.induct with
  | case1 n small => simp [digitsOf, small, spelledFrom, digit_spelled n small]
  | case2 n large ih =>
    have digit := (digit_spelled (n % 10) (Nat.mod_lt n (by decide))).2.1
    rw [digitsOf, if_neg large, spelledFrom_snoc, ih, digit]
    omega

theorem digitRun_digitsOf (n : Nat) : DigitRun (digitsOf n) := by
  induction n using digitsOf.induct with
  | case1 n small => simp [digitsOf, small, DigitRun, digit_spelled n small]
  | case2 n large ih =>
    have digit := (digit_spelled (n % 10) (Nat.mod_lt n (by decide))).1
    rw [digitsOf, if_neg large]
    refine ⟨by simp, ?_⟩
    rw [List.forall_mem_append, List.forall_mem_singleton]
    exact ⟨ih.2, digit⟩

theorem digitsOf_first {n : Nat} (positive : 0 < n) :
    ∃ b more, digitsOf n = b :: more ∧ b ≠ zeroDigit := by
  induction n using digitsOf.induct with
  | case1 n small =>
    exact ⟨_, [], by rw [digitsOf, if_pos small],
      fun zero => Nat.ne_of_gt positive ((digit_spelled n small).2.2 zero)⟩
  | case2 n large ih =>
    obtain ⟨b, more, begun, nonzero⟩ := ih (by omega)
    exact ⟨b, _, by rw [digitsOf, if_neg large, begun, List.cons_append], nonzero⟩

theorem isWhole_digitsOf (n : Nat) : IsWhole (digitsOf n) := by
  cases n with
  | zero => exact .inl (by rw [digitsOf, if_pos (by decide)]; rfl)
  | succ n =>
    obtain ⟨b, more, begun, nonzero⟩ := digitsOf_first n.succ_pos
    exact .inr ⟨b, more, begun, nonzero, begun ▸ digitRun_digitsOf (n + 1)⟩

theorem isNumeral_integer (n : Int) : IsNumeral (Number.integer n).write := by
  cases n with
  | ofNat n =>
    exact ⟨[], digitsOf n, [], [], .inl rfl, isWhole_digitsOf n, .inl rfl, .inl rfl, by
      simp [Number.write]⟩
  | negSucc n =>
    exact ⟨[minusMark], digitsOf (n + 1), [], [], .inr rfl, isWhole_digitsOf _, .inl rfl, .inl rfl,
      by simp [Number.write]⟩

theorem digit_ne_minus {b : UInt8} (digit : isDigit b = true) : b ≠ minusMark := by
  rintro rfl
  revert digit
  decide

theorem integerOf_write (n : Int) : integerOf (Number.integer n).write = n := by
  cases n with
  | ofNat n =>
    obtain ⟨b, more, begun, digit⟩ := (isWhole_digitsOf n).begins
    rw [Number.write, begun, integerOf, if_neg (digit_ne_minus digit), ← begun,
      spelledFrom_digitsOf]
    rfl
  | negSucc n =>
    rw [Number.write, integerOf, if_pos rfl, spelledFrom_digitsOf]
    rfl

theorem le_spelledFrom (n : Nat) (digits : Bytes) : n ≤ spelledFrom n digits := by
  induction digits generalizing n with
  | nil => exact Nat.le_refl n
  | cons digit digits ih =>
    have later := ih (n * 10 + digitValue digit)
    rw [spelledFrom, List.foldl_cons, ← spelledFrom]
    omega

theorem absorb_all {limit n : Nat} {digits : Bytes} (fits : spelledFrom n digits < limit) :
    absorb limit n digits = (spelledFrom n digits, []) := by
  induction digits generalizing n with
  | nil => rfl
  | cons digit digits ih =>
    have step : spelledFrom n (digit :: digits) =
        spelledFrom (n * 10 + digitValue digit) digits := rfl
    rw [step] at fits ⊢
    rw [absorb, if_pos (Nat.lt_of_le_of_lt (le_spelledFrom _ digits) fits), ih fits]

theorem number?_natural {n : Nat} (fits : n < Nat.pow 2 64) :
    Numeral.number? ⟨false, digitsOf n, [], none⟩ = some (.integer n) := by
  have all : absorb (Nat.pow 2 64) 0 (digitsOf n) = (n, []) := by
    rw [absorb_all (by rw [spelledFrom_digitsOf]; exact fits), spelledFrom_digitsOf]
  simp only [Numeral.number?, Numeral.isPlain, List.isEmpty_nil, Option.isNone_none, Bool.and_self,
    all, Bool.not_false, if_true]

theorem number?_negative {n : Nat} (fits : n + 1 ≤ Nat.pow 2 63) :
    Numeral.number? ⟨true, digitsOf (n + 1), [], none⟩ = some (.integer (.negSucc n)) := by
  have below : n + 1 < Nat.pow 2 64 := Nat.lt_of_le_of_lt fits (by decide)
  have all : absorb (Nat.pow 2 64) 0 (digitsOf (n + 1)) = (n + 1, []) := by
    rw [absorb_all (by rw [spelledFrom_digitsOf]; exact below), spelledFrom_digitsOf]
  have within : 0 < n + 1 ∧ n + 1 ≤ Nat.pow 2 63 := ⟨n.succ_pos, fits⟩
  simp only [Numeral.number?, Numeral.isPlain, List.isEmpty_nil, Option.isNone_none, Bool.and_self,
    all, Bool.not_true, Bool.false_eq_true, if_false, if_pos within]
  rfl

theorem run_noFraction {rest : Bytes} (delimited : Delimited rest) :
    fractionPart.run rest = .ok ([], rest) := by
  have stops := delimited.stopsAt (p := (· == pointMark)) (by decide)
  have noPoint : rest.head? ≠ some pointMark := fun head => by simpa using stops _ head
  simp [fractionPart, run_bind, noPoint]

theorem run_noExponent {rest : Bytes} (delimited : Delimited rest) :
    exponentPart.run rest = .ok (none, rest) := by
  have stops := delimited.stopsAt (p := isExponentMark) (by decide)
  cases rest with
  | nil => rfl
  | cons b rest => simp [exponentPart, run_bind, stops b rfl]

/-- An integer of 64 bits is read from where it is written. -/
theorem Is64Bit.run {n : Int} (bits : Is64Bit n) {rest : Bytes} (delimited : Delimited rest) :
    number.run ((Number.integer n).write ++ rest) = .ok (.integer n, rest) := by
  have whole (m : Nat) : wholePart.run (digitsOf m ++ rest) = .ok (digitsOf m, rest) :=
    (isWhole_digitsOf m).run (delimited.stopsAt (by decide))
  cases n with
  | ofNat n =>
    obtain ⟨b, more, begun, digit⟩ := (isWhole_digitsOf n).begins
    have unsigned : minusSign.run (digitsOf n ++ rest) = .ok (false, digitsOf n ++ rest) := by
      simp [minusSign, run_bind, begun, digit_ne_minus digit]
    have fits : n < Nat.pow 2 64 := Int.ofNat_lt.1 bits.high
    simp [number, numeral, Number.write, run_bind, unsigned, whole, run_noFraction delimited,
      run_noExponent delimited, number?_natural fits]
  | negSucc n =>
    have signed : minusSign.run (minusMark :: (digitsOf (n + 1) ++ rest)) =
        .ok (true, digitsOf (n + 1) ++ rest) := by
      simp [minusSign, run_bind]
    have fits : n + 1 ≤ Nat.pow 2 63 := by
      have low := bits.low
      rw [Int.negSucc_eq] at low
      omega
    simp [number, numeral, Number.write, run_bind, signed, whole, run_noFraction delimited,
      run_noExponent delimited, number?_negative fits]

end CredentialGate.Json
