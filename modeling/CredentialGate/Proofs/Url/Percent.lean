import CredentialGate.Proofs.Text.Utf8
import CredentialGate.Url.Percent

/-! Percent encoding is undone by decoding as long as the percent sign itself is encoded, so two
texts that are encoded alike are the same. -/
namespace CredentialGate.Url

open Text

variable {set : EncodeSet}

/-- A byte that is not encoded is a printable character of ASCII outside the set. -/
theorem plain_byte {b : UInt8} (plain : isEncoded set b = false) :
    b.toNat < 0x7F ∧ Char.ofNat b.toNat ∉ set := by
  simp only [isEncoded, Bool.or_eq_false_iff, decide_eq_false_iff_not, UInt8.not_lt,
    UInt8.le_iff_toNat_le, UInt8.reduceToNat, List.contains_eq_mem] at plain
  obtain ⟨⟨-, small⟩, outside⟩ := plain
  exact ⟨by omega, outside⟩

theorem upperDigit_digit : ∀ n < 16, IsAscii (upperDigit n) ∧ upperDigit n ≠ '%' ∧
    upperDigit n ≠ 'e' ∧ hexValue? (Char.ofNat (upperDigit n).toUInt8.toNat) = some n := by decide

/-- How a byte is written: as the mark and its digits, or as the character that it is. -/
inductive Written (set : EncodeSet) (b : UInt8) : List Char → Prop
  | encoded {high low : Nat} : isEncoded set b = true → high < 16 → low < 16 →
      b.toNat = high * 16 + low → Written set b ['%', upperDigit high, upperDigit low]
  | plain : b.toNat < 0x7F → Char.ofNat b.toNat ∉ set → Written set b [Char.ofNat b.toNat]

theorem written_encodeByte (set : EncodeSet) (b : UInt8) : Written set b (encodeByte set b) := by
  rw [encodeByte]
  cases plain : isEncoded set b with
  | true =>
    have small := b.toNat_lt
    exact .encoded plain (by omega) (by omega) (by omega)
  | false =>
    obtain ⟨small, outside⟩ := plain_byte plain
    exact .plain small outside

theorem encodeByte_ascii (b : UInt8) : ∀ c ∈ encodeByte set b, IsAscii c := by
  have shape := written_encodeByte set b
  generalize encodeByte set b = written at shape ⊢
  cases shape with
  | encoded _ first second =>
    have mark : IsAscii '%' := by decide
    simp [mark, (upperDigit_digit _ first).1, (upperDigit_digit _ second).1]
  | plain small =>
    simp only [List.mem_singleton, forall_eq, IsAscii, toNat_ofByte]
    omega

/-- What encoding writes is left as it was, or it is the mark and the digits of a byte. -/
theorem mem_encode {c : Char} {cs : List Char} (member : c ∈ (encode set cs).toList) :
    c ∉ set ∨ c = '%' ∨ ∃ n < 16, c = upperDigit n := by
  rw [encode, String.toList_ofList] at member
  obtain ⟨b, -, coded⟩ := List.mem_flatMap.1 member
  have shape := written_encodeByte set b
  generalize encodeByte set b = written at shape coded
  cases shape with
  | @encoded high low _ first second =>
    simp only [List.mem_cons, List.not_mem_nil, or_false] at coded
    rcases coded with mark | rfl | rfl
    · exact .inr (.inl mark)
    · exact .inr (.inr ⟨high, first, rfl⟩)
    · exact .inr (.inr ⟨low, second, rfl⟩)
  | plain _ outside => exact .inl (List.mem_singleton.1 coded ▸ outside)

theorem utf8_encode (cs : List Char) : utf8 (encode set cs) =
    (utf8 (String.ofList cs)).flatMap fun b => (encodeByte set b).map Char.toUInt8 := by
  rw [encode, utf8_ascii, List.map_flatMap]
  intro c member
  obtain ⟨b, -, coded⟩ := List.mem_flatMap.1 member
  exact encodeByte_ascii b c coded

theorem decode_plain {b : UInt8} (plain : b ≠ 0x25) (rest : List UInt8) :
    decode (b :: rest) = b :: decode rest := by
  rw [decode]
  rintro a c more ⟨rfl⟩
  exact absurd rfl plain

/-- One byte is decoded at a time, whatever stands behind it. -/
theorem decode_encodeByte (mark : '%' ∈ set) (b : UInt8) (rest : List UInt8) :
    decode ((encodeByte set b).map Char.toUInt8 ++ rest) = b :: decode rest := by
  have shape := written_encodeByte set b
  generalize encodeByte set b = written at shape ⊢
  cases shape with
  | @encoded high low _ first second value =>
    have sign : Char.toUInt8 '%' = 0x25 := by decide
    have number : hexNumber? [Char.ofNat (upperDigit high).toUInt8.toNat,
        Char.ofNat (upperDigit low).toUInt8.toNat] = some b.toNat := by
      simp [hexNumber?, upperDigit_digit _ first, upperDigit_digit _ second, value]
    simp only [List.map_cons, List.map_nil, List.cons_append, List.nil_append, sign]
    rw [decode, number]
    simp only [UInt8.ofNat_toNat]
  | plain _ outside =>
    have other : b ≠ 0x25 := by
      rintro rfl
      exact outside mark
    simp only [List.map_cons, List.map_nil, toUInt8_ofByte, List.cons_append, List.nil_append]
    exact decode_plain other rest

theorem decode_encode (mark : '%' ∈ set) (cs : List Char) :
    decode (utf8 (encode set cs)) = utf8 (String.ofList cs) := by
  rw [utf8_encode]
  induction utf8 (String.ofList cs) with
  | nil => rfl
  | cons b bytes ih => rw [List.flatMap_cons, decode_encodeByte mark, ih]

theorem encode_inj (mark : '%' ∈ set) {cs cs' : List Char} :
    encode set cs = encode set cs' ↔ cs = cs' := by
  refine ⟨fun same => ?_, congrArg (encode set)⟩
  have decoded := congrArg (decode ∘ utf8) same
  simpa only [Function.comp, decode_encode mark, utf8_inj, String.ofList_inj] using decoded

end CredentialGate.Url
