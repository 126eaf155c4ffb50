import CredentialGate.Proofs.Json.Grammar
import CredentialGate.Proofs.Json.Integer

/-! Written values. What a value is written as is a text of it, and the text has the value as it
stands: its members in their order, and its numbers by their numerals. -/
namespace CredentialGate.Json

/-- The one value stands in the other, at whatever depth. -/
inductive Datum.Within (d : Datum) : Datum → Prop
  | self : Within d d
  | item {v : Datum} {items : List Datum} : v ∈ items → Within d v → Within d (.list items)
  | member {m : String × Datum} {members : List (String × Datum)} : m ∈ members →
      Within d m.2 → Within d (.object members)

/-- So it is wherever one looks in a value. -/
def Datum.Everywhere (P : Datum → Prop) (v : Datum) : Prop := ∀ d, d.Within v → P d

section

variable {P : Datum → Prop}

theorem Datum.everywhere_list {items : List Datum} :
    (Datum.list items).Everywhere P ↔ P (.list items) ∧ ∀ v ∈ items, v.Everywhere P := by
  constructor
  · exact fun all => ⟨all _ .self, fun v member d within => all d (.item member within)⟩
  · rintro ⟨here, inside⟩ d within
    cases within with
    | self => exact here
    | item member within => exact inside _ member d within

theorem Datum.everywhere_object {members : List (String × Datum)} :
    (Datum.object members).Everywhere P ↔
      P (.object members) ∧ ∀ m ∈ members, m.2.Everywhere P := by
  constructor
  · exact fun all => ⟨all _ .self, fun m member d within => all d (.member member within)⟩
  · rintro ⟨here, inside⟩ d within
    cases within with
    | self => exact here
    | member member within => exact inside _ member d within

/-- Nothing stands in a scalar but itself. -/
theorem Datum.everywhere_scalar {v : Datum} (noList : ∀ items, v ≠ .list items)
    (noObject : ∀ members, v ≠ .object members) : v.Everywhere P ↔ P v := by
  refine ⟨fun all => all v .self, fun here d within => ?_⟩
  cases within with
  | self => exact here
  | item => exact absurd rfl (noList _)
  | member => exact absurd rfl (noObject _)

end

/-- All numbers in the value are integers of 64 bits. -/
def Datum.Integral : Datum → Prop :=
  Everywhere fun d => ∀ numeral, d = .number numeral → IsInteger numeral

section

@[simp] theorem Datum.integral_list {items : List Datum} :
    (Datum.list items).Integral ↔ ∀ v ∈ items, v.Integral := by
  simp [Integral, everywhere_list]

@[simp] theorem Datum.integral_object {members : List (String × Datum)} :
    (Datum.object members).Integral ↔ ∀ m ∈ members, m.2.Integral := by
  simp [Integral, everywhere_object]

@[simp] theorem Datum.integral_number {numeral : Bytes} :
    (Datum.number numeral).Integral ↔ IsInteger numeral := by
  simp [Integral, everywhere_scalar]

@[simp] theorem Datum.integral_null : Datum.null.Integral := by
  simp [Integral, everywhere_scalar]

@[simp] theorem Datum.integral_bool (b : Bool) : (Datum.bool b).Integral := by
  simp [Integral, everywhere_scalar]

@[simp] theorem Datum.integral_text (s : String) : (Datum.text s).Integral := by
  simp [Integral, everywhere_scalar]

end

mutual

/-- The value as its text has it. -/
def Value.datum : Value → Datum
  | .null => .null
  | .bool b => .bool b
  | .number n => .number n.write
  | .text s => .text s
  | .list items => .list (itemData items)
  | .object members => .object (memberData members)

def itemData : List Value → List Datum
  | [] => []
  | v :: more => v.datum :: itemData more

def memberData : Members → List (String × Datum)
  | [] => []
  | (key, v) :: more => (key, v.datum) :: memberData more

end

theorem itemData_eq (items : List Value) : itemData items = items.map Value.datum := by
  induction items with
  | nil => rfl
  | cons v items ih => rw [itemData, ih, List.map_cons]

theorem memberData_eq (members : Members) :
    memberData members = members.map fun m => (m.1, m.2.datum) := by
  induction members with
  | nil => rfl
  | cons m members ih => rw [memberData, ih, List.map_cons]

theorem IsInteger.isNumeral {numeral : Bytes} (integer : IsInteger numeral) :
    IsNumeral numeral := by
  obtain ⟨n, -, rfl⟩ := integer
  exact isNumeral_integer n

mutual

theorem Value.renders_datum : (v : Value) → v.datum.Integral → Renders v.datum v.write
  | .null, _ => .null
  | .bool true, _ => .true
  | .bool false, _ => .false
  | .number _, integral => .number (Datum.integral_number.1 integral).isNumeral
  | .text _, _ => .text ⟨_, spelled_escaped _, rfl⟩
  | .list items, integral => .list (rendersItems_data true items (Datum.integral_list.1 integral))
  | .object members, integral =>
    .object (rendersMembers_data true members (Datum.integral_object.1 integral))

theorem rendersItems_data (first : Bool) : (items : List Value) →
    (∀ v ∈ itemData items, v.Integral) →
    RendersItems first (itemData items) (Value.writeItems first items)
  | [], _ => .close blanks_nil
  | v :: more, integral => by
    rw [itemData, List.forall_mem_cons] at integral
    rw [itemData, Value.writeItems, List.append_assoc]
    exact .item (separates_compact first) (v.renders_datum integral.1)
      (rendersItems_data false more integral.2)

theorem rendersMembers_data (first : Bool) : (members : Members) →
    (∀ m ∈ memberData members, m.2.Integral) →
    RendersMembers first (memberData members) (Value.writeMembers first members)
  | [], _ => .close blanks_nil
  | (key, v) :: more, integral => by
    rw [memberData, List.forall_mem_cons] at integral
    have sign : Around colonMark [colonMark] := ⟨[], [], blanks_nil, blanks_nil, rfl⟩
    have name : Quoted key (quote key) := ⟨_, spelled_escaped _, rfl⟩
    have written : Value.writeMembers first ((key, v) :: more) =
        (if first then [] else [comma]) ++ (quote key ++ ([colonMark] ++
          (v.write ++ Value.writeMembers false more))) := by
      simp [Value.writeMembers]
    rw [memberData, written]
    exact .member (separates_compact first) name sign (v.renders_datum integral.1)
      (rendersMembers_data false more integral.2)

end

/-- What is written holds the value, and nothing else. -/
theorem Value.holds_datum (v : Value) (integral : v.datum.Integral) : Holds v.write v.datum :=
  ⟨[], v.write, [], blanks_nil, v.renders_datum integral, blanks_nil, by simp⟩

end CredentialGate.Json
