import CredentialGate.Proofs.Json.Canonical
import CredentialGate.Proofs.Json.Kept

/-! Values that have been settled: every object in them is canonical. Of the members of an object
the last of each key is left, at whatever depth it stands. A settled value is settled again to the
same, once it has been written and read. -/
namespace CredentialGate.Json

/-- What a value stands for with all its objects canonical. -/
abbrev Datum.settled : Datum → Value := value canonicalMembers

def settledMembers (members : List (String × Datum)) : Members :=
  members.map fun m => (m.1, m.2.settled)

/-- No object in the value begins with the key of embedded texts. -/
def Datum.Unembedded : Datum → Prop :=
  Everywhere fun d => ∀ members, d = .object members →
    (members.map (·.1)).head? ≠ some embeddedKey

/-- Nor will one, once its members stand in order: with that key it has a smaller one. -/
def Datum.Settling : Datum → Prop :=
  Everywhere fun d => ∀ members, d = .object members →
    embeddedKey ∈ members.map (·.1) → ∃ m ∈ members, m.1 < embeddedKey

theorem Datum.settled_list (items : List Datum) :
    (Datum.list items).settled = .list (items.map settled) := by
  rw [settled, value, itemValues_eq]

theorem Datum.settled_object (members : List (String × Datum)) :
    (Datum.object members).settled = .object (canonicalMembers (settledMembers members)) := by
  rw [settled, value, memberValues_eq]
  rfl

mutual

theorem Datum.canonicalise_written : (v : Datum) → v.Unembedded →
    v.written.canonicalise = .ok v.settled
  | .null, _ | .bool _, _ | .number _, _ | .text _, _ => rfl
  | .list items, plain => by
    have inside := canonicaliseItems_written items (Datum.everywhere_list.1 plain).2
    rw [Datum.written, Datum.value, Value.canonicalise, inside]
    rfl
  | .object [], _ => rfl
  | .object ((key, v) :: more), plain => by
    obtain ⟨here, inside⟩ := Datum.everywhere_object.1 plain
    have other : key ≠ embeddedKey := fun same => here _ rfl (congrArg some same)
    have members := canonicaliseMembers_written ((key, v) :: more) inside
    rw [memberValues] at members
    rw [Datum.written, Datum.value, memberValues, id, Value.canonicalise.eq_def]
    dsimp only
    rw [if_neg other, members]
    rfl

theorem canonicaliseItems_written : (items : List Datum) → (∀ v ∈ items, v.Unembedded) →
    canonicaliseItems (itemValues id items) = .ok (itemValues canonicalMembers items)
  | [], _ => rfl
  | v :: more, plain => by
    rw [List.forall_mem_cons] at plain
    rw [itemValues, canonicaliseItems, v.canonicalise_written plain.1,
      canonicaliseItems_written more plain.2]
    rfl

theorem canonicaliseMembers_written : (members : List (String × Datum)) →
    (∀ m ∈ members, m.2.Unembedded) →
    canonicaliseMembers (memberValues id members) = .ok (memberValues canonicalMembers members)
  | [], _ => rfl
  | (key, v) :: more, plain => by
    rw [List.forall_mem_cons] at plain
    rw [memberValues, canonicaliseMembers, v.canonicalise_written plain.1,
      canonicaliseMembers_written more plain.2]
    rfl

end

/-- The value is read back as it is from where it is written. -/
structure Value.Lasting (n : Nat) (v : Value) : Prop where
  fits : v.datum.fits n = true
  integral : v.datum.Integral
  unembedded : v.datum.Unembedded
  settled : v.datum.settled = v

namespace Value.Lasting

variable {n : Nat}

theorem scalar {v : Value} (noList : ∀ items, v ≠ .list items)
    (noObject : ∀ members, v ≠ .object members) (integral : v.datum.Integral)
    (settled : v.datum.settled = v) : v.Lasting n := by
  cases v with
  | list items => exact absurd rfl (noList items)
  | object members => exact absurd rfl (noObject members)
  | _ =>
    refine ⟨by cases n <;> rfl, integral, ?_, settled⟩
    exact (Datum.everywhere_scalar (by simp [datum]) (by simp [datum])).2 (by simp [datum])

theorem list {items : List Value} (all : ∀ v ∈ items, v.Lasting n) :
    (Value.list items).Lasting (n + 1) := by
  have shape : (Value.list items).datum = .list (items.map Value.datum) := by
    rw [datum, itemData_eq]
  constructor <;> rw [shape]
  · exact List.all_eq_true.2 (List.forall_mem_map.2 fun v member => (all v member).fits)
  · exact Datum.integral_list.2 (List.forall_mem_map.2 fun v member => (all v member).integral)
  · exact Datum.everywhere_list.2 ⟨by simp, List.forall_mem_map.2 fun v member =>
      (all v member).unembedded⟩
  · rw [Datum.settled_list, List.map_map]
    have same : items.map (Datum.settled ∘ Value.datum) = items.map id :=
      List.map_congr_left fun v member => (all v member).settled
    rw [same, List.map_id]

theorem settledMembers_eq {members : Members} (all : ∀ m ∈ members, m.2.Lasting n) :
    settledMembers (members.map fun m => (m.1, m.2.datum)) = members := by
  rw [settledMembers, List.map_map]
  refine (List.map_congr_left fun m member => ?_).trans (List.map_id members)
  exact Prod.ext rfl (all m member).settled

theorem object {members : Members} (all : ∀ m ∈ members, m.2.Lasting n)
    (ascending : Ascending members) (plain : (members.map (·.1)).head? ≠ some embeddedKey) :
    (Value.object members).Lasting (n + 1) := by
  have shape : (Value.object members).datum = .object (members.map fun m => (m.1, m.2.datum)) := by
    rw [datum, memberData_eq]
  constructor <;> rw [shape]
  · exact List.all_eq_true.2 (List.forall_mem_map.2 fun m member => (all m member).fits)
  · exact Datum.integral_object.2 (List.forall_mem_map.2 fun m member => (all m member).integral)
  · refine Datum.everywhere_object.2 ⟨?_, List.forall_mem_map.2 fun m member =>
      (all m member).unembedded⟩
    rintro _ ⟨⟩
    rwa [List.map_map]
  · rw [Datum.settled_object, settledMembers_eq all, ascending.canonicalMembers_eq]

end Value.Lasting

namespace Datum

theorem lasting_scalar (n : Nat) {v : Datum} (noList : ∀ items, v ≠ .list items)
    (noObject : ∀ members, v ≠ .object members) (integral : v.Integral) :
    v.settled.Lasting n := by
  have same : v.settled.datum = v ∧ v.settled.datum.settled = v.settled := by
    cases v with
    | list items => exact absurd rfl (noList items)
    | object members => exact absurd rfl (noObject members)
    | number numeral =>
      obtain ⟨i, -, rfl⟩ := integral_number.1 integral
      simp [settled, value, Value.datum, integerOf_write]
    | _ => exact ⟨rfl, rfl⟩
  refine .scalar (fun items shape => ?_) (fun members shape => ?_) ?_ same.2
  · rw [shape, Value.datum] at same
    exact noList _ same.1.symm
  · rw [shape, Value.datum] at same
    exact noObject _ same.1.symm
  · rwa [same.1]

/-- What is settled lasts, unless it would begin with the key of embedded texts. -/
theorem lasting_settled (n : Nat) {v : Datum} (fits : v.fits n = true) (integral : v.Integral)
    (settling : v.Settling) : v.settled.Lasting n := by
  induction n generalizing v with
  | zero =>
    cases v with
    | list | object => cases fits
    | _ => exact lasting_scalar 0 (by simp) (by simp) integral
  | succ n ih =>
    cases v with
    | list items =>
      have inside := List.all_eq_true.1 fits
      rw [settled_list]
      exact .list (List.forall_mem_map.2 fun v member => ih (inside v member)
        (integral_list.1 integral v member) ((everywhere_list.1 settling).2 v member))
    | object members =>
      have inside := List.all_eq_true.1 fits
      obtain ⟨here, within⟩ := everywhere_object.1 settling
      rw [settled_object]
      refine .object (fun m member => ?_) (latest_canonicalMembers _).ascending
        (canonicalMembers_head fun listed => ?_)
      · obtain ⟨d, given, rfl⟩ := List.mem_map.1 (mem_canonicalMembers member)
        exact ih (inside d given) (integral_object.1 integral d given) (within d given)
      · obtain ⟨m, given, below⟩ := here members rfl (by simpa [settledMembers] using listed)
        exact ⟨_, List.mem_map_of_mem given, below⟩
    | _ => exact lasting_scalar (n + 1) (by simp) (by simp) integral

end Datum

end CredentialGate.Json
