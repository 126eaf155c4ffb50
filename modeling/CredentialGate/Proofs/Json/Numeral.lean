import CredentialGate.Json.Passing
import CredentialGate.Proofs.Json.Walk

/-! A numeral is read up to its end. Each part of it ends where a byte stands that cannot go on with
the part: at the next part, or at what delimits the value. -/
namespace CredentialGate.Json

open Reader

/-- The text does not go on with such a byte. -/
def StopsAt (p : UInt8 → Bool) (rest : Bytes) : Prop := ∀ b, rest.head? = some b → p b = false

theorem stopsAt_cons {p : UInt8 → Bool} {b : UInt8} (other : p b = false) (rest : Bytes) :
    StopsAt p (b :: rest) := by
  rintro _ ⟨⟩
  exact other

def delimiters : Bytes := [0x20, 0x09, 0x0A, 0x0D, comma, closeList, closeObject]

theorem Delimited.stopsAt {rest : Bytes} (delimited : Delimited rest) {p : UInt8 → Bool}
    (other : delimiters.all (!p ·) = true) : StopsAt p rest := by
  rcases delimited with rfl | ⟨b, more, rfl, delimiter⟩
  · simp [StopsAt]
  · have listed : b ∈ delimiters := by
      simp only [isBlank, Bool.or_eq_true, beq_iff_eq] at delimiter
      simpa only [delimiters, List.mem_cons, List.not_mem_nil, or_false, or_assoc] using delimiter
    refine stopsAt_cons ?_ more
    simpa using List.all_eq_true.1 other b listed

theorem takeWhile_stopsAt {p : UInt8 → Bool} {run rest : Bytes} (all : ∀ b ∈ run, p b = true)
    (stops : StopsAt p rest) :
    (Reader.takeWhile p).run (run ++ rest) = .ok (run, rest) := by
  have taken : (run ++ rest).takeWhile p = run := by
    rw [List.takeWhile_append_of_pos all]
    cases rest with
    | nil => simp
    | cons b more => simp [stops b rfl]
  have left : (run ++ rest).dropWhile p = rest := by
    rw [List.dropWhile_append_of_pos all]
    cases rest with
    | nil => simp
    | cons b more => simp [stops b rfl]
  simp only [Reader.takeWhile, taken, left]

@[simp] theorem run_peek (input : Bytes) : peek.run input = .ok (input.head?, input) := rfl

theorem IsWhole.run {whole rest : Bytes} (valid : IsWhole whole) (stops : StopsAt isDigit rest) :
    wholePart.run (whole ++ rest) = .ok (whole, rest) := by
  rcases valid with rfl | ⟨b, more, rfl, nonzero, -, digits⟩
  · cases rest with
    | nil => simp [wholePart, run_bind]
    | cons c rest => simp [wholePart, run_bind, stops c rfl]
  · have later : ∀ c ∈ more, isDigit c = true := fun c member => digits c (.tail b member)
    simp [wholePart, run_bind, nonzero, digits b, takeWhile_stopsAt later stops]

theorem IsFraction.run {fraction rest : Bytes} (valid : IsFraction fraction)
    (stops : StopsAt (fun b => isDigit b || b == pointMark) rest) :
    ∃ digits, fractionPart.run (fraction ++ rest) = .ok (digits, rest) := by
  have noDigit : StopsAt isDigit rest := fun b head => (Bool.or_eq_false_iff.1 (stops b head)).1
  rcases valid with rfl | ⟨digits, ⟨some, all⟩, rfl⟩
  · refine ⟨[], ?_⟩
    cases rest with
    | nil => simp [fractionPart, run_bind]
    | cons b rest =>
      have noPoint := (Bool.or_eq_false_iff.1 (stops b rfl)).2
      simp [fractionPart, run_bind, beq_eq_false_iff_ne.1 noPoint]
  · exact ⟨digits, by simp [fractionPart, run_bind, some, takeWhile_stopsAt all noDigit]⟩

theorem run_exponentSign {sign digits : Bytes} (valid : sign = [] ∨ sign = [plusMark] ∨
    sign = [minusMark]) (run : DigitRun digits) (rest : Bytes) :
    ∃ down, exponentSign.run (sign ++ (digits ++ rest)) = .ok (down, digits ++ rest) := by
  obtain ⟨some, all⟩ := run
  rcases valid with rfl | rfl | rfl
  · obtain ⟨b, more, rfl⟩ := List.exists_cons_of_ne_nil some
    have marks : b ≠ minusMark ∧ b ≠ plusMark := by
      have digit := all b List.mem_cons_self
      constructor <;> (rintro rfl; revert digit; decide)
    exact ⟨false, by simp [exponentSign, run_bind, marks]⟩
  · exact ⟨false, by simp +decide [exponentSign, run_bind]⟩
  · exact ⟨true, by simp [exponentSign, run_bind]⟩

theorem IsExponent.run {exponent rest : Bytes} (valid : IsExponent exponent)
    (stops : StopsAt (fun b => isDigit b || isExponentMark b) rest) :
    ∃ value, exponentPart.run (exponent ++ rest) = .ok (value, rest) := by
  have noDigit : StopsAt isDigit rest := fun b head => (Bool.or_eq_false_iff.1 (stops b head)).1
  rcases valid with rfl | ⟨mark, sign, digits, marked, signed, run, rfl⟩
  · refine ⟨none, ?_⟩
    cases rest with
    | nil => simp [exponentPart, run_bind]
    | cons b rest =>
      have noMark := (Bool.or_eq_false_iff.1 (stops b rfl)).2
      simp [exponentPart, run_bind, noMark]
  · obtain ⟨down, read⟩ := run_exponentSign signed run rest
    obtain ⟨b, more, rfl⟩ := List.exists_cons_of_ne_nil run.1
    rw [List.cons_append] at read
    have later : ∀ c ∈ more, isDigit c = true := fun c member => run.2 c (.tail b member)
    refine ⟨some (down, b :: more), ?_⟩
    simp only [exponentPart, List.cons_append, List.append_assoc, run_bind, run_peek,
      List.head?_cons, marked, if_true, run_next_cons, read]
    simp [run_bind, run.2 b, takeWhile_stopsAt later noDigit]

theorem IsFraction.stopsAt {fraction rest : Bytes} (valid : IsFraction fraction)
    {p : UInt8 → Bool} (other : p pointMark = false) (stops : StopsAt p rest) :
    StopsAt p (fraction ++ rest) := by
  rcases valid with rfl | ⟨digits, -, rfl⟩
  · exact stops
  · exact stopsAt_cons other _

theorem IsExponent.stopsAt {exponent rest : Bytes} (valid : IsExponent exponent)
    {p : UInt8 → Bool} (other : ∀ b, isExponentMark b = true → p b = false)
    (stops : StopsAt p rest) : StopsAt p (exponent ++ rest) := by
  rcases valid with rfl | ⟨mark, sign, digits, marked, -, -, rfl⟩
  · exact stops
  · exact stopsAt_cons (other mark marked) _

theorem exponentMark_cases {b : UInt8} (marked : isExponentMark b = true) :
    b = 0x65 ∨ b = 0x45 := by
  simpa [isExponentMark] using marked

theorem run_minusSign {sign : Bytes} (signed : sign = [] ∨ sign = [minusMark]) {rest : Bytes}
    (whole : ∃ b more, rest = b :: more ∧ isDigit b = true) :
    ∃ negative, minusSign.run (sign ++ rest) = .ok (negative, rest) := by
  obtain ⟨b, more, rfl, digit⟩ := whole
  rcases signed with rfl | rfl
  · have plain : b ≠ minusMark := by
      rintro rfl
      revert digit
      decide
    exact ⟨false, by simp [minusSign, run_bind, plain]⟩
  · exact ⟨true, by simp [minusSign, run_bind]⟩

/-- Each part of a numeral ends where the next one begins. -/
theorem IsNumeral.run {bytes rest : Bytes} (valid : IsNumeral bytes) (delimited : Delimited rest) :
    ∃ n, numeral.run (bytes ++ rest) = .ok (n, rest) := by
  obtain ⟨sign, whole, fraction, exponent, signed, isWhole, isFraction, isExponent, rfl⟩ := valid
  have plain {p : UInt8 → Bool} (other : delimiters.all (!p ·) = true)
      (marked : ∀ b, isExponentMark b = true → p b = false) : StopsAt p (exponent ++ rest) :=
    isExponent.stopsAt marked (delimited.stopsAt other)
  have noDigit : StopsAt isDigit (fraction ++ (exponent ++ rest)) := by
    refine isFraction.stopsAt (by decide) (plain (by decide) fun b marked => ?_)
    rcases exponentMark_cases marked with rfl | rfl <;> decide
  have noPoint : StopsAt (fun b => isDigit b || b == pointMark) (exponent ++ rest) := by
    refine plain (by decide) fun b marked => ?_
    rcases exponentMark_cases marked with rfl | rfl <;> decide
  obtain ⟨b, more, begun, digit⟩ := isWhole.begins
  have digitFirst : ∃ c later, whole ++ (fraction ++ (exponent ++ rest)) = c :: later ∧
      isDigit c = true := ⟨b, _, by rw [begun, List.cons_append], digit⟩
  obtain ⟨negative, first⟩ := run_minusSign signed digitFirst
  obtain ⟨digits, second⟩ := isFraction.run noPoint
  obtain ⟨power?, third⟩ := isExponent.run (delimited.stopsAt (by decide))
  refine ⟨⟨negative, whole, digits, power?⟩, ?_⟩
  simp only [numeral, List.append_assoc, run_bind, first, isWhole.run noDigit, second, third,
    run_pure]

theorem IsNumeral.pass {bytes rest : Bytes} (valid : IsNumeral bytes)
    (delimited : Delimited rest) : passNumeral.run (bytes ++ rest) = .ok ((), rest) := by
  obtain ⟨n, read⟩ := valid.run delimited
  simp only [passNumeral, read]

end CredentialGate.Json
