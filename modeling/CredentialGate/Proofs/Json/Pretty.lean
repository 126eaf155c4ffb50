import CredentialGate.Proofs.Json.OneLine
import CredentialGate.Proofs.Json.Written

/-! The text over several lines is a text of the value: the lines and what they are indented by are
blanks between its marks. -/
namespace CredentialGate.Json

theorem blanks_newLine (depth : Nat) : Blanks (Value.newLine depth) := by
  rw [Value.newLine, Blanks, List.forall_mem_cons]
  refine ⟨by decide, fun b member => ?_⟩
  rw [List.eq_of_mem_replicate member]
  decide

theorem around_comma_newLine (depth : Nat) : Around comma (comma :: Value.newLine depth) :=
  ⟨[], _, blanks_nil, blanks_newLine depth, rfl⟩

theorem around_colon_blank : Around colonMark [colonMark, 0x20] :=
  ⟨[], [0x20], blanks_nil, List.forall_mem_singleton.2 (by decide), rfl⟩

mutual

theorem Value.renders_over (depth : Nat) : (v : Value) → v.datum.Integral →
    Renders v.datum (v.writeOver depth)
  | .null, _ => .null
  | .bool true, _ => .true
  | .bool false, _ => .false
  | .number _, integral => .number (Datum.integral_number.1 integral).isNumeral
  | .text _, _ => .text ⟨_, spelled_escaped _, rfl⟩
  | .list [], _ => .list (.close blanks_nil)
  | .list (v :: more), integral => by
    have inside := Datum.integral_list.1 integral
    rw [itemData, List.forall_mem_cons] at inside
    rw [Value.writeOver]
    simp only [List.cons_append, List.append_assoc]
    refine .list (.item ?_ (v.renders_over (depth + 1) inside.1)
      (rendersItems_over depth more inside.2))
    exact blanks_newLine _
  | .object [], _ => .object (.close blanks_nil)
  | .object ((key, v) :: more), integral => by
    have inside := Datum.integral_object.1 integral
    rw [memberData, List.forall_mem_cons] at inside
    rw [Value.writeOver]
    simp only [List.cons_append, List.append_assoc]
    refine .object (.member ?_ ⟨_, spelled_escaped _, rfl⟩ around_colon_blank
      (v.renders_over (depth + 1) inside.1) (rendersMembers_over depth more inside.2))
    exact blanks_newLine _

theorem rendersItems_over (depth : Nat) : (items : List Value) →
    (∀ v ∈ itemData items, v.Integral) →
    RendersItems .false (itemData items) (Value.writeItemsOver depth items)
  | [], _ => .close (blanks_newLine depth)
  | v :: more, integral => by
    rw [itemData, List.forall_mem_cons] at integral
    rw [Value.writeItemsOver, List.append_assoc]
    exact .item (around_comma_newLine _) (v.renders_over (depth + 1) integral.1)
      (rendersItems_over depth more integral.2)

theorem rendersMembers_over (depth : Nat) : (members : Members) →
    (∀ m ∈ memberData members, m.2.Integral) →
    RendersMembers .false (memberData members) (Value.writeMembersOver depth members)
  | [], _ => .close (blanks_newLine depth)
  | (key, v) :: more, integral => by
    rw [memberData, List.forall_mem_cons] at integral
    rw [Value.writeMembersOver]
    simp only [List.append_assoc]
    exact .member (around_comma_newLine _) ⟨_, spelled_escaped _, rfl⟩ around_colon_blank
      (v.renders_over (depth + 1) integral.1) (rendersMembers_over depth more integral.2)

end

/-! The bytes of a text -/

/-- The bytes are those of a text. -/
def Legible (bytes : Bytes) : Prop := ∃ s, Text.utf8 s = bytes

theorem Legible.append {first second : Bytes} (before : Legible first) (after : Legible second) :
    Legible (first ++ second) := by
  obtain ⟨s, rfl⟩ := before
  obtain ⟨t, rfl⟩ := after
  exact ⟨s ++ t, Text.utf8_append s t⟩

theorem legible_ascii {bytes : Bytes} (ascii : ∀ b ∈ bytes, b < 0x80) : Legible bytes :=
  Text.exists_text_ascii ascii

theorem legible_marks {bytes : Bytes} (ascii : bytes.all (· < 0x80) = true) : Legible bytes :=
  legible_ascii fun b member => of_decide_eq_true (List.all_eq_true.1 ascii b member)

theorem legible_newLine (depth : Nat) : Legible (Value.newLine depth) := by
  refine legible_ascii (List.forall_mem_cons.2 ⟨by decide, fun b member => ?_⟩)
  rw [List.eq_of_mem_replicate member]
  decide

/-- A mark at the end of a line, and the start of the next one. -/
theorem legible_mark {mark : UInt8} (ascii : mark < 0x80) {rest : Bytes} (legible : Legible rest) :
    Legible (mark :: rest) :=
  (legible_ascii (List.forall_mem_singleton.2 ascii)).append legible

theorem legible_integer {numeral : Bytes} (integer : IsInteger numeral) : Legible numeral := by
  obtain ⟨n, -, rfl⟩ := integer
  have digits (m : Nat) : Legible (digitsOf m) := by
    refine legible_ascii fun b member => ?_
    obtain ⟨n, small, rfl⟩ := digit_cases ((digitRun_digitsOf m).2 b member)
    have ascii : ∀ n < 10, UInt8.ofNat (0x30 + n) < 0x80 := by decide
    exact ascii n small
  cases n with
  | ofNat n => exact digits n
  | negSucc n => exact legible_mark (by decide) (digits (n + 1))

mutual

theorem Value.legible_over (depth : Nat) : (v : Value) → v.datum.Integral →
    Legible (v.writeOver depth)
  | .null, _ => show Legible Value.nullWord from legible_marks (by decide)
  | .bool true, _ => show Legible Value.trueWord from legible_marks (by decide)
  | .bool false, _ => show Legible Value.falseWord from legible_marks (by decide)
  | .list [], _ => show Legible [openList, closeList] from legible_marks (by decide)
  | .object [], _ => show Legible [openObject, closeObject] from legible_marks (by decide)
  | .number _, integral => legible_integer (Datum.integral_number.1 integral)
  | .text s, _ => (oneLine_quote s).text
  | .list (v :: more), integral => by
    have inside := Datum.integral_list.1 integral
    rw [itemData, List.forall_mem_cons] at inside
    exact ((legible_mark (by decide) (legible_newLine _)).append
      (v.legible_over (depth + 1) inside.1)).append (legible_itemsOver depth more inside.2)
  | .object ((key, v) :: more), integral => by
    have inside := Datum.integral_object.1 integral
    rw [memberData, List.forall_mem_cons] at inside
    exact ((((legible_mark (by decide) (legible_newLine _)).append (oneLine_quote key).text).append
      (legible_marks (by decide))).append (v.legible_over (depth + 1) inside.1)).append
        (legible_membersOver depth more inside.2)

theorem legible_itemsOver (depth : Nat) : (items : List Value) →
    (∀ v ∈ itemData items, v.Integral) → Legible (Value.writeItemsOver depth items)
  | [], _ => (legible_newLine depth).append (legible_marks (by decide))
  | v :: more, integral => by
    rw [itemData, List.forall_mem_cons] at integral
    exact ((legible_mark (by decide) (legible_newLine _)).append
      (v.legible_over (depth + 1) integral.1)).append (legible_itemsOver depth more integral.2)

theorem legible_membersOver (depth : Nat) : (members : Members) →
    (∀ m ∈ memberData members, m.2.Integral) → Legible (Value.writeMembersOver depth members)
  | [], _ => (legible_newLine depth).append (legible_marks (by decide))
  | (key, v) :: more, integral => by
    rw [memberData, List.forall_mem_cons] at integral
    exact ((((legible_mark (by decide) (legible_newLine _)).append (oneLine_quote key).text).append
      (legible_marks (by decide))).append (v.legible_over (depth + 1) integral.1)).append
        (legible_membersOver depth more integral.2)

end

/-- What is shown of a value is a text of it. -/
theorem Value.displayOver_holds (v : Value) (integral : v.datum.Integral) :
    Holds (Text.utf8 v.displayOver) v.datum := by
  obtain ⟨s, same⟩ := v.legible_over 0 integral
  have rendered := v.renders_over 0 integral
  rw [displayOver, ← same, Text.ofUtf8Lossy_utf8, same]
  exact ⟨[], _, [], blanks_nil, rendered, blanks_nil, (List.append_nil _).symm⟩

end CredentialGate.Json
