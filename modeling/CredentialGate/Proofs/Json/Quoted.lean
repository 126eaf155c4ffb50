import CredentialGate.Json.Walk
import CredentialGate.Proofs.Json.Grammar
import CredentialGate.Proofs.Text.Utf8
import Mathlib.Tactic.SplitIfs

/-! A text between quotation marks is read in every form that it may be written in. The step is one
piece of the form: a byte that stands for itself, or an escape. What is written is one of the
forms. -/
namespace CredentialGate.Json

open Reader

/-! Escapes -/

@[simp] theorem run_inside (b : UInt8) (rest : Bytes) :
    inside.run (b :: rest) = .ok (b, rest) := rfl

theorem FourDigits.run {n : Nat} {digits : Bytes} (valid : FourDigits n digits) (rest : Bytes) :
    fourDigits.run (digits ++ rest) = .ok (n, rest) := by
  obtain ⟨four, value⟩ := valid
  match digits, four with
  | [a, b, c, d], _ => simp only [fourDigits, List.cons_append, List.nil_append, value]

theorem unescape_shortForms :
    ∀ form ∈ shortForms, form.1 ≠ unicodeMark ∧ unescape? form.1 = some form.2 := by
  simp only [shortForms, List.forall_mem_cons, List.not_mem_nil, false_implies, implies_true,
    and_true]
  decide

theorem run_escape_short {letter b : UInt8} (short : (letter, b) ∈ shortForms) (rest : Bytes) :
    escape.run (letter :: rest) = .ok ([b], rest) := by
  obtain ⟨plain, back⟩ := unescape_shortForms _ short
  simp [escape, run_bind, plain, back]

theorem toNat_valid (c : Char) : c.toNat < 0xD800 ∨ (0xDFFF < c.toNat ∧ c.toNat < 0x110000) :=
  c.valid

theorem toNat_lt (c : Char) : c.toNat < 0x110000 := by
  have := toNat_valid c
  omega

/-- No character is a surrogate. -/
theorem not_surrogate (c : Char) : isTrailing c.toNat = false ∧ isLeading c.toNat = false := by
  have := toNat_valid c
  simp only [isTrailing, isLeading, Bool.and_eq_false_iff, decide_eq_false_iff_not]
  omega

theorem run_escape_unicode {c : Char} {digits : Bytes} (valid : FourDigits c.toNat digits)
    (rest : Bytes) :
    escape.run (unicodeMark :: (digits ++ rest)) =
      .ok (Text.utf8 (String.singleton c), rest) := by
  simp [escape, run_bind, valid.run, not_surrogate c]

/-- The halves of a character beyond four digits are surrogates, which give it back. -/
theorem paired_surrogates {n : Nat} (beyond : 0x10000 ≤ n) (below : n < 0x110000) :
    let leading := 0xD800 + (n - 0x10000) / 0x400
    let trailing := 0xDC00 + (n - 0x10000) % 0x400
    isTrailing leading = false ∧ isLeading leading = true ∧ isTrailing trailing = true ∧
      paired leading trailing = n := by
  simp only [isTrailing, isLeading, paired, Bool.and_eq_false_iff, Bool.and_eq_true,
    decide_eq_true_eq, decide_eq_false_iff_not]
  omega

theorem run_escape_pair {n m : Nat} {leading trailing : Bytes} (first : FourDigits n leading)
    (second : FourDigits m trailing) (lone : isTrailing n = false) (opens : isLeading n = true)
    (closes : isTrailing m = true) (rest : Bytes) :
    escape.run (unicodeMark :: (leading ++ escapeMark :: unicodeMark :: (trailing ++ rest))) =
      .ok (Text.utf8 (String.singleton (Char.ofNat (paired n m))), rest) := by
  simp [escape, trailingHalf, run_bind, first.run, second.run, lone, opens, closes]

/-! Reading -/

theorem unquoteFrom_escape {input bytes rest : Bytes} (done : Bytes)
    (taken : escape.run input = .ok (bytes, rest)) :
    unquoteFrom done (escapeMark :: input) = unquoteFrom (behind bytes done) rest := by
  have notQuote : escapeMark ≠ quoteMark := by decide
  rw [unquoteFrom, if_neg notQuote, if_pos rfl, taken]

theorem unquoteFrom_spelled {bytes raw : Bytes} (spelled : Spelled bytes raw)
    (done rest : Bytes) :
    unquoteFrom done (raw ++ quoteMark :: rest) = .ok (done.reverse ++ bytes, rest) := by
  induction spelled generalizing done with
  | done => rw [List.nil_append, List.append_nil, unquoteFrom, if_pos rfl]
  | plain visible notQuote notEscape _ ih =>
    rw [List.cons_append, unquoteFrom, if_neg notQuote, if_neg notEscape, if_neg visible, ih]
    simp
  | short form _ ih =>
    rw [List.cons_append, List.cons_append, unquoteFrom_escape done (run_escape_short form _), ih]
    simp [behind]
  | unicode valid _ ih =>
    rw [List.cons_append, List.cons_append, List.append_assoc,
      unquoteFrom_escape done (run_escape_unicode valid _), ih]
    simp [behind]
  | @pair c _ _ _ _ beyond first second _ ih =>
    obtain ⟨lone, opens, closes, back⟩ := paired_surrogates beyond (toNat_lt c)
    have escaped (rest : Bytes) := run_escape_pair first second lone opens closes rest
    simp only [back, Char.ofNat_toNat] at escaped
    simp only [List.cons_append, List.append_assoc]
    rw [unquoteFrom_escape done (escaped _), ih]
    simp [behind]

/-- A text is read in every form, behind the opening mark. -/
theorem run_text_spelled {s : String} {raw : Bytes} (spelled : Spelled (Text.utf8 s) raw)
    (rest : Bytes) : text.run (raw ++ quoteMark :: rest) = .ok (s, rest) := by
  simp only [text, run_bind, unquote, unquoteFrom_spelled spelled, List.reverse_nil,
    List.nil_append, Text.ofUtf8_utf8, run_pure]

/-! Passing -/

theorem run_passEscape_short {letter b : UInt8} (short : (letter, b) ∈ shortForms)
    (rest : Bytes) : passEscape.run (letter :: rest) = .ok ((), rest) := by
  obtain ⟨plain, back⟩ := unescape_shortForms _ short
  simp [passEscape, run_bind, plain, back]

theorem run_passEscape_unicode {n : Nat} {digits : Bytes} (valid : FourDigits n digits)
    (rest : Bytes) : passEscape.run (unicodeMark :: (digits ++ rest)) = .ok ((), rest) := by
  simp [passEscape, run_bind, valid.run]

theorem passTextFrom_escape {input rest : Bytes} (taken : passEscape.run input = .ok ((), rest)) :
    passTextFrom (escapeMark :: input) = passTextFrom rest := by
  have notQuote : escapeMark ≠ quoteMark := by decide
  rw [passTextFrom, if_neg notQuote, if_pos rfl, taken]

theorem passTextFrom_spelled {bytes raw : Bytes} (spelled : Spelled bytes raw) (rest : Bytes) :
    passTextFrom (raw ++ quoteMark :: rest) = .ok ((), rest) := by
  induction spelled with
  | done => rw [List.nil_append, passTextFrom, if_pos rfl]
  | plain visible notQuote notEscape _ ih =>
    rw [List.cons_append, passTextFrom, if_neg notQuote, if_neg notEscape, if_neg visible, ih]
  | short form _ ih =>
    rw [List.cons_append, List.cons_append, passTextFrom_escape (run_passEscape_short form _), ih]
  | unicode valid _ ih =>
    rw [List.cons_append, List.cons_append, List.append_assoc,
      passTextFrom_escape (run_passEscape_unicode valid _), ih]
  | pair beyond first second _ ih =>
    -- A pair is passed as two escapes of their own.
    simp only [List.cons_append, List.append_assoc]
    rw [passTextFrom_escape (run_passEscape_unicode first _),
      passTextFrom_escape (run_passEscape_unicode second _), ih]

/-! Writing -/

theorem mem_shortForms {b letter : UInt8} (short : shortEscape? b = some letter) :
    (letter, b) ∈ shortForms := by
  unfold shortEscape? at short
  split_ifs at short with marked
  · obtain rfl := Option.some.inj short
    rcases marked with rfl | rfl <;> decide
  all_goals
    obtain rfl := Option.some.inj short
    subst b
    decide

/-- The digits of a byte below a blank, as its escape has them. -/
def controlDigits (b : UInt8) : Bytes := [0x30, 0x30] ++ (Text.lowerHex b).map Char.toUInt8

theorem fourDigits_control : ∀ n < 0x20,
    FourDigits (Char.ofNat n).toNat (controlDigits (UInt8.ofNat n)) := by
  unfold FourDigits
  decide

theorem utf8_control : ∀ n < 0x20,
    Text.utf8 (String.singleton (Char.ofNat n)) = [UInt8.ofNat n] := by
  decide

theorem Spelled.escapeByte {bytes raw : Bytes} (b : UInt8) (spelled : Spelled bytes raw) :
    Spelled (b :: bytes) (escapeByte b ++ raw) := by
  unfold Json.escapeByte
  cases short : shortEscape? b with
  | some letter => exact .short (mem_shortForms short) spelled
  | none =>
    by_cases below : b < 0x20
    · have small : b.toNat < 0x20 := UInt8.lt_iff_toNat_lt.mp below
      have digits := fourDigits_control b.toNat small
      have written := utf8_control b.toNat small
      rw [UInt8.ofNat_toNat] at digits written
      have escaped := Spelled.unicode digits spelled
      rw [written] at escaped
      simp only [if_pos below]
      exact escaped
    · have marks : b ≠ quoteMark ∧ b ≠ escapeMark := by
        constructor <;> (rintro rfl; simp [shortEscape?] at short)
      simpa only [if_neg below] using .plain below marks.1 marks.2 spelled

theorem spelled_escaped (bytes : Bytes) : Spelled bytes (bytes.flatMap escapeByte) := by
  induction bytes with
  | nil => exact .done
  | cons b bytes ih => exact .escapeByte b ih

/-- Every text is read back from its quoted form, behind the opening mark. -/
theorem run_text (s : String) (rest : Bytes) :
    text.run ((Text.utf8 s).flatMap escapeByte ++ quoteMark :: rest) = .ok (s, rest) :=
  run_text_spelled (spelled_escaped _) rest

end CredentialGate.Json
