import CredentialGate.Proofs.Json.Quoted

/-! Written values stand on one line. Every byte below a blank is escaped, so no text that a value
holds can end the line that the value is written on. -/
namespace CredentialGate.Json

/-- The bytes of a text without control characters. -/
structure OneLine (bytes : Bytes) : Prop where
  text : ∃ s : String, Text.utf8 s = bytes
  visible : ∀ b ∈ bytes, 0x20 ≤ b

theorem OneLine.append {first second : Bytes} (before : OneLine first) (after : OneLine second) :
    OneLine (first ++ second) := by
  obtain ⟨⟨s, rfl⟩, visible⟩ := before
  obtain ⟨⟨t, rfl⟩, further⟩ := after
  exact ⟨⟨s ++ t, Text.utf8_append s t⟩, List.forall_mem_append.2 ⟨visible, further⟩⟩

/-- The text holds no control characters either. -/
theorem OneLine.chars {bytes : Bytes} (line : OneLine bytes) :
    ∃ cs : List Char, Text.utf8 (String.ofList cs) = bytes ∧ ∀ c ∈ cs, 0x20 ≤ c.toNat := by
  obtain ⟨⟨s, rfl⟩, visible⟩ := line
  refine ⟨s.toList, by rw [String.ofList_toList], fun c member => Nat.le_of_not_lt fun below => ?_⟩
  have ascii : Text.IsAscii c := Nat.lt_trans below (by decide)
  rw [← String.ofList_toList (s := s), Text.utf8_ofList] at visible
  have byte : 0x20 ≤ c.toUInt8 :=
    visible _ (List.mem_flatMap.2 ⟨c, member, by rw [ascii.encoded]; exact List.mem_cons_self⟩)
  have number : c.toUInt8.toNat = c.toNat % 256 := rfl
  rw [UInt8.le_iff_toNat_le, number, Nat.mod_eq_of_lt (Nat.lt_trans below (by decide))] at byte
  exact Nat.not_le_of_lt below byte

theorem oneLine_ascii {bytes : Bytes} (ascii : ∀ b ∈ bytes, 0x20 ≤ b ∧ b < 0x80) :
    OneLine bytes :=
  ⟨Text.exists_text_ascii fun b member => (ascii b member).2, fun b member =>
    (ascii b member).1⟩

theorem escapeByte_ascii : ∀ n < 0x80, ∀ b ∈ escapeByte (UInt8.ofNat n), 0x20 ≤ b ∧ b < 0x80 := by
  decide +kernel

theorem escapeByte_beyond : ∀ n < 0x100, 0x80 ≤ n →
    escapeByte (UInt8.ofNat n) = [UInt8.ofNat n] := by
  decide +kernel

theorem escaped_beyond {bytes : Bytes} (beyond : ∀ b ∈ bytes, 0x80 ≤ b) :
    bytes.flatMap escapeByte = bytes := by
  induction bytes with
  | nil => rfl
  | cons b bytes ih =>
    rw [List.forall_mem_cons] at beyond
    have kept := escapeByte_beyond b.toNat b.toNat_lt (UInt8.le_iff_toNat_le.1 beyond.1)
    rw [UInt8.ofNat_toNat] at kept
    rw [List.flatMap_cons, kept, ih beyond.2, List.singleton_append]

/-- The escapes of a character: of ASCII a text of ASCII, and beyond it the character itself. -/
theorem oneLine_escapedChar (c : Char) :
    OneLine ((String.utf8EncodeChar c).flatMap escapeByte) := by
  by_cases ascii : Text.IsAscii c
  · rw [ascii.encoded, List.flatMap_singleton]
    exact oneLine_ascii (escapeByte_ascii c.toNat ascii)
  · have beyond := Text.encoded_beyond ascii
    rw [escaped_beyond beyond]
    have encoded : Text.utf8 (String.ofList [c]) = String.utf8EncodeChar c :=
      (Text.utf8_ofList [c]).trans (List.flatMap_singleton ..)
    refine ⟨⟨String.ofList [c], encoded⟩, fun b member => ?_⟩
    exact UInt8.le_trans (by decide) (beyond b member)

theorem oneLine_quote (s : String) : OneLine (quote s) := by
  have escaped : OneLine ((Text.utf8 s).flatMap escapeByte) := by
    rw [← String.ofList_toList (s := s), Text.utf8_ofList]
    induction s.toList with
    | nil => exact oneLine_ascii (by simp)
    | cons c cs ih =>
      rw [List.flatMap_cons, List.flatMap_append]
      exact (oneLine_escapedChar c).append ih
  have mark : OneLine [quoteMark] := oneLine_ascii (by decide +kernel)
  exact (mark.append escaped).append mark

/-- Members that are texts or null. -/
def flat (entries : List (String × Option String)) : Members :=
  entries.map fun (key, s?) => (key, .optional s?)

theorem oneLine_optional (s? : Option String) : OneLine (Value.optional s?).write := by
  cases s? with
  | none => exact oneLine_ascii (by decide +kernel)
  | some s => exact oneLine_quote s

theorem oneLine_writeMembers (first : Bool) (entries : List (String × Option String)) :
    OneLine (Value.writeMembers first (flat entries)) := by
  induction entries generalizing first with
  | nil =>
    have close : OneLine [closeObject] := oneLine_ascii (by decide +kernel)
    exact close
  | cons entry entries ih =>
    obtain ⟨key, s?⟩ := entry
    have separator : OneLine (if first then [] else [comma]) := by
      cases first <;> exact oneLine_ascii (by decide +kernel)
    have mark : OneLine [colonMark] := oneLine_ascii (by decide +kernel)
    exact ((separator.append (oneLine_quote key)).append
      (mark.append (oneLine_optional s?))).append (ih false)

end CredentialGate.Json
