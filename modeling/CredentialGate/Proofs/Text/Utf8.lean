import CredentialGate.Text.Utf8

/-! Text as UTF-8: every text is read back from its bytes, by the strict reader and by the lossy
one, and a character of ASCII is one byte. -/
namespace CredentialGate.Text

theorem ofUtf8_utf8 (s : String) : ofUtf8? (utf8 s) = some s := by
  have bytes : (⟨(utf8 s).toArray⟩ : ByteArray) = s.toByteArray := by
    simp [utf8]
  have valid : s.toByteArray.IsValidUTF8 := s.isValidUTF8
  simp only [ofUtf8?, bytes, String.fromUTF8?, dif_pos valid]
  rfl

theorem utf8_inj {s t : String} : utf8 s = utf8 t ↔ s = t := by
  refine ⟨fun same => ?_, congrArg utf8⟩
  have read := congrArg ofUtf8? same
  rw [ofUtf8_utf8, ofUtf8_utf8] at read
  exact Option.some.inj read

theorem utf8_append (s t : String) : utf8 (s ++ t) = utf8 s ++ utf8 t := by
  simp [utf8]

theorem utf8_ofList (cs : List Char) :
    utf8 (String.ofList cs) = cs.flatMap String.utf8EncodeChar := by
  simp [utf8, List.utf8Encode]

theorem flatMap_sublist {α β : Type} {few all : List α} (fewer : few.Sublist all)
    (f : α → List β) : (few.flatMap f).Sublist (all.flatMap f) := by
  induction fewer with
  | slnil => exact .slnil
  | cons a fewer ih => exact ih.trans (List.sublist_append_right _ _)
  | cons_cons a fewer ih => exact ih.append_left _

theorem utf8_sublist {s t : String} (fewer : s.toList.Sublist t.toList) :
    (utf8 s).Sublist (utf8 t) := by
  rw [← String.ofList_toList (s := s), ← String.ofList_toList (s := t), utf8_ofList, utf8_ofList]
  exact flatMap_sublist fewer _

def IsAscii (c : Char) : Prop := c.toNat < 0x80

instance (c : Char) : Decidable (IsAscii c) := inferInstanceAs (Decidable (c.toNat < 0x80))

theorem IsAscii.encoded {c : Char} (ascii : IsAscii c) :
    String.utf8EncodeChar c = [c.toUInt8] := by
  have small : c.val ≤ 127 := UInt32.le_iff_toNat_le.mpr (Nat.le_of_lt_succ ascii)
  exact String.utf8EncodeChar_eq_singleton (Char.utf8Size_eq_one_iff.mpr small)

theorem utf8_ascii {cs : List Char} (ascii : ∀ c ∈ cs, IsAscii c) :
    utf8 (String.ofList cs) = cs.map Char.toUInt8 := by
  rw [utf8_ofList]
  induction cs with
  | nil => rfl
  | cons c cs ih =>
    rw [List.flatMap_cons, (ascii c List.mem_cons_self).encoded, List.map_cons,
      ih fun d member => ascii d (List.mem_cons_of_mem c member)]
    rfl

/-- The bytes of a character beyond ASCII are none of ASCII. -/
theorem encoded_beyond {c : Char} (beyond : ¬ IsAscii c) :
    ∀ b ∈ String.utf8EncodeChar c, 0x80 ≤ b := by
  have number : ¬ c.val.toNat ≤ 0x7F := by
    have same : c.toNat = c.val.toNat := rfl
    rw [IsAscii] at beyond
    omega
  have beyond (n : Nat) (low : 0x80 ≤ n) (high : n < 0x100) : 0x80 ≤ UInt8.ofNat n := by
    rw [UInt8.le_iff_toNat_le, UInt8.toNat_ofNat', Nat.mod_eq_of_lt high]
    exact low
  intro b member
  simp only [String.utf8EncodeChar, number, if_false] at member
  split at member
  · simp only [List.mem_cons, List.not_mem_nil, or_false] at member
    rcases member with rfl | rfl <;> exact beyond _ (by omega) (by omega)
  · split at member
    · simp only [List.mem_cons, List.not_mem_nil, or_false] at member
      rcases member with rfl | rfl | rfl <;> exact beyond _ (by omega) (by omega)
    · simp only [List.mem_cons, List.not_mem_nil, or_false] at member
      rcases member with rfl | rfl | rfl | rfl <;> exact beyond _ (by omega) (by omega)

/-- Every byte is the number of a character. -/
theorem toNat_ofByte (b : UInt8) : (Char.ofNat b.toNat).toNat = b.toNat := by
  have valid : b.toNat.isValidChar := .inl (by have := b.toNat_lt; omega)
  rw [Char.ofNat, dif_pos valid]
  rfl

theorem toUInt8_ofByte (b : UInt8) : (Char.ofNat b.toNat).toUInt8 = b := by
  have small := b.toNat_lt
  have number : (Char.ofNat b.toNat).val.toNat = b.toNat := toNat_ofByte b
  rw [← Char.toUInt8_val, ← UInt8.toNat_inj, UInt32.toNat_toUInt8, number]
  omega

/-- Bytes of ASCII are the bytes of a text. -/
theorem exists_text_ascii {bytes : List UInt8} (ascii : ∀ b ∈ bytes, b < 0x80) :
    ∃ s : String, utf8 s = bytes := by
  refine ⟨String.ofList (bytes.map fun b => Char.ofNat b.toNat), ?_⟩
  rw [utf8_ascii]
  · simp [Function.comp_def, toUInt8_ofByte]
  · rw [List.forall_mem_map]
    intro b member
    rw [IsAscii, toNat_ofByte]
    exact UInt8.lt_iff_toNat_lt.1 (ascii b member)

/-! The lossy reader -/

namespace LossyState

variable (done : List Char)

theorem step_lead {b : Nat} (small : b < 256) :
    step ⟨done, none⟩ (UInt8.ofNat b) = begin done b := by
  rw [step, UInt8.toNat_ofNat_of_lt' small]

/-- A byte in its range is taken to the character that is owed it. -/
theorem step_owed {bits low high n : Nat} (owed : List (Nat × Nat))
    (inside : low ≤ n % 64 + 128 ∧ n % 64 + 128 ≤ high) :
    step ⟨done, some ⟨bits, (low, high) :: owed⟩⟩ (UInt8.ofNat (n % 64 + 128)) =
      if owed.isEmpty then ⟨Char.ofNat (bits * 64 + n % 64) :: done, none⟩
      else ⟨done, some ⟨bits * 64 + n % 64, owed⟩⟩ := by
  have small : n % 64 + 128 < 256 := by omega
  have byte : (UInt8.ofNat (n % 64 + 128)).toNat = n % 64 + 128 := UInt8.toNat_ofNat_of_lt' small
  have low : (n % 64 + 128) % 64 = n % 64 := by omega
  simp only [step, byte, if_pos inside, low]

theorem begin_two {b : Nat} (lead : 0xC2 ≤ b ∧ b ≤ 0xDF) :
    begin done b = ⟨done, some ⟨b - 0xC0, [tail]⟩⟩ := by
  rw [begin, if_neg (by omega), if_pos lead]

/-- Of a character of three bytes the second is bound by the first. -/
theorem begin_three {b : Nat} (lead : 0xE0 ≤ b ∧ b ≤ 0xEF) : ∃ low high,
    begin done b = ⟨done, some ⟨b - 0xE0, [(low, high), tail]⟩⟩ ∧
      ∀ n, 0x80 ≤ n → n ≤ 0xBF → (b = 0xE0 → 0xA0 ≤ n) → (b = 0xED → n ≤ 0x9F) →
        low ≤ n ∧ n ≤ high := by
  unfold begin
  rw [if_neg (by omega), if_neg (by omega)]
  split
  · subst b
    exact ⟨_, _, rfl, by simp +contextual⟩
  · split
    · subst b
      exact ⟨_, _, rfl, by simp +contextual⟩
    · rw [if_pos (by omega)]
      exact ⟨_, _, rfl, fun n above below _ _ => ⟨above, below⟩⟩

/-- And so it is of a character of four bytes. -/
theorem begin_four {b : Nat} (lead : 0xF0 ≤ b ∧ b ≤ 0xF4) : ∃ low high,
    begin done b = ⟨done, some ⟨b - 0xF0, [(low, high), tail, tail]⟩⟩ ∧
      ∀ n, 0x80 ≤ n → n ≤ 0xBF → (b = 0xF0 → 0x90 ≤ n) → (b = 0xF4 → n ≤ 0x8F) →
        low ≤ n ∧ n ≤ high := by
  unfold begin
  rw [if_neg (by omega), if_neg (by omega), if_neg (by omega), if_neg (by omega), if_neg (by omega)]
  split
  · subst b
    exact ⟨_, _, rfl, by simp +contextual⟩
  · split
    · exact ⟨_, _, rfl, fun n above below _ _ => ⟨above, below⟩⟩
    · rw [if_pos (by omega)]
      obtain rfl : b = 0xF4 := by omega
      exact ⟨_, _, rfl, by simp +contextual⟩

section

variable {v : Nat}

/-- The last six bits of a number, in a byte behind the first. -/
theorem within_tail (v : Nat) : tail.1 ≤ v % 64 + 128 ∧ v % 64 + 128 ≤ tail.2 := by
  simp only [tail]
  omega

theorem foldl_two (range : 0x80 ≤ v ∧ v < 0x800) :
    [UInt8.ofNat (v / 64 % 32 + 192), UInt8.ofNat (v % 64 + 128)].foldl step ⟨done, none⟩ =
      ⟨Char.ofNat v :: done, none⟩ := by
  have whole : (v / 64 % 32 + 192 - 0xC0) * 64 + v % 64 = v := by omega
  rw [List.foldl_cons, step_lead done (by omega), begin_two done (by omega), List.foldl_cons,
    step_owed done [] (within_tail v), whole]
  rfl

theorem foldl_three (range : 0x800 ≤ v ∧ v < 0x10000) (valid : v < 0xD800 ∨ 0xDFFF < v) :
    [UInt8.ofNat (v / 4096 % 16 + 224), UInt8.ofNat (v / 64 % 64 + 128),
      UInt8.ofNat (v % 64 + 128)].foldl step ⟨done, none⟩ = ⟨Char.ofNat v :: done, none⟩ := by
  obtain ⟨low, high, begun, bound⟩ := begin_three done (b := v / 4096 % 16 + 224) (by omega)
  have second := bound (v / 64 % 64 + 128) (by omega) (by omega) (by omega) (by omega)
  have whole : ((v / 4096 % 16 + 224 - 0xE0) * 64 + v / 64 % 64) * 64 + v % 64 = v := by omega
  rw [List.foldl_cons, step_lead done (by omega), begun, List.foldl_cons,
    step_owed done [tail] second, List.foldl_cons]
  refine (step_owed done [] (within_tail v)).trans ?_
  rw [whole]
  rfl

theorem foldl_four (range : 0x10000 ≤ v ∧ v < 0x110000) :
    [UInt8.ofNat (v / 262144 % 8 + 240), UInt8.ofNat (v / 4096 % 64 + 128),
      UInt8.ofNat (v / 64 % 64 + 128), UInt8.ofNat (v % 64 + 128)].foldl step ⟨done, none⟩ =
      ⟨Char.ofNat v :: done, none⟩ := by
  obtain ⟨low, high, begun, bound⟩ := begin_four done (b := v / 262144 % 8 + 240) (by omega)
  have second := bound (v / 4096 % 64 + 128) (by omega) (by omega) (by omega) (by omega)
  have whole : (((v / 262144 % 8 + 240 - 0xF0) * 64 + v / 4096 % 64) * 64 + v / 64 % 64) * 64 +
      v % 64 = v := by
    omega
  rw [List.foldl_cons, step_lead done (by omega), begun, List.foldl_cons,
    step_owed done [tail, tail] second, List.foldl_cons]
  refine (congrArg (List.foldl step · _) (step_owed done [tail] (within_tail (v / 64)))).trans ?_
  refine (step_owed done [] (within_tail v)).trans ?_
  rw [whole]
  rfl

end

/-- The bytes of a character are read as the character. -/
theorem foldl_encoded (c : Char) :
    (String.utf8EncodeChar c).foldl step ⟨done, none⟩ = ⟨c :: done, none⟩ := by
  have back : Char.ofNat c.val.toNat = c := Char.ofNat_toNat c
  have valid : c.val.toNat < 0xD800 ∨ (0xDFFF < c.val.toNat ∧ c.val.toNat < 0x110000) := c.valid
  rw [String.utf8EncodeChar]
  generalize c.val.toNat = v at *
  subst back
  split
  · rename_i one
    rw [List.foldl_cons, List.foldl_nil, step_lead done (by omega), begin, if_pos one]
  · split
    · exact foldl_two done (by omega)
    · split
      · exact foldl_three done (by omega) (by omega)
      · exact foldl_four done (by omega)

end LossyState

/-- The lossy reader loses nothing of a text. -/
theorem ofUtf8Lossy_utf8 (s : String) : ofUtf8Lossy (utf8 s) = s := by
  have steps (cs : List Char) (done : List Char) :
      (cs.flatMap String.utf8EncodeChar).foldl LossyState.step ⟨done, none⟩ =
        ⟨cs.reverse ++ done, none⟩ := by
    induction cs generalizing done with
    | nil => rfl
    | cons c cs ih =>
      rw [List.flatMap_cons, List.foldl_append, LossyState.foldl_encoded, ih]
      simp
  rw [ofUtf8Lossy, ← String.ofList_toList (s := s), utf8_ofList, steps]
  simp [LossyState.finish]

end CredentialGate.Text
