import CredentialGate.Json.Value
import Mathlib.Data.List.Induction
import Mathlib.Data.String.Basic

/-! Canonical members: in ascending order of their keys, each key with what it was given last. -/
namespace CredentialGate.Json

/-- In ascending order of the keys, so that none stands twice. -/
def Ascending (members : Members) : Prop := members.Pairwise fun m n => m.1 < n.1

/-- Among these members the last of each key counts. -/
structure Latest (all found : Members) : Prop where
  ascending : Ascending found
  last : ∀ key, found.lookup key = all.reverse.lookup key

section

variable {key : String} {v : Value} {members : Members}

theorem mem_setMember {m : String × Value} (member : m ∈ setMember key v members) :
    m = (key, v) ∨ m ∈ members := by
  induction members with
  | nil => exact .inl (List.mem_singleton.1 member)
  | cons n members ih =>
    rw [setMember] at member
    split at member
    · exact List.mem_cons.1 member
    · split at member
      · exact (List.mem_cons.1 member).imp_right (.tail n)
      · rcases List.mem_cons.1 member with rfl | later
        · exact .inr (.head _)
        · exact (ih later).imp_right (.tail n)

theorem Ascending.setMember (ascending : Ascending members) :
    Ascending (setMember key v members) := by
  induction members with
  | nil => exact List.pairwise_singleton _ _
  | cons n members ih =>
    obtain ⟨first, later⟩ := List.pairwise_cons.1 ascending
    rw [Json.setMember]
    split
    · rename_i before
      refine List.pairwise_cons.2 ⟨fun m member => ?_, ascending⟩
      rcases List.mem_cons.1 member with rfl | member
      · exact before
      · exact lt_trans before (first m member)
    · rename_i behind
      split
      · rename_i same
        subst same
        exact List.pairwise_cons.2 ⟨first, later⟩
      · rename_i other
        refine List.pairwise_cons.2 ⟨fun m member => ?_, ih later⟩
        rcases mem_setMember member with rfl | member
        · exact lt_of_le_of_ne (not_lt.1 behind) (Ne.symm other)
        · exact first m member

theorem lookup_member (k : String) (m : String × Value) (members : Members) :
    (m :: members).lookup k = if k = m.1 then some m.2 else members.lookup k := by
  rw [List.lookup_cons]
  by_cases same : k = m.1
  · rw [if_pos same, beq_iff_eq.2 same]
  · rw [if_neg same, beq_eq_false_iff_ne.2 same]

theorem lookup_setMember (k : String) :
    (setMember key v members).lookup k = if k = key then some v else members.lookup k := by
  induction members with
  | nil => exact lookup_member k (key, v) []
  | cons n members ih =>
    rw [setMember]
    split
    · exact lookup_member k (key, v) (n :: members)
    · split
      · rename_i same
        subst same
        rw [lookup_member, lookup_member]
        split <;> rfl
      · rename_i other
        rw [lookup_member, lookup_member, ih]
        by_cases here : k = n.1
        · rw [if_pos here, if_pos here, if_neg (here.trans_ne (Ne.symm other))]
        · rw [if_neg here, if_neg here]

/-- A key beyond all others goes to the end. -/
theorem setMember_last (beyond : ∀ m ∈ members, m.1 < key) :
    setMember key v members = members ++ [(key, v)] := by
  induction members with
  | nil => rfl
  | cons n members ih =>
    rw [List.forall_mem_cons] at beyond
    rw [setMember, if_neg (lt_asymm beyond.1), if_neg (ne_of_gt beyond.1), ih beyond.2,
      List.cons_append]

end

theorem canonicalMembers_snoc (all : Members) (m : String × Value) :
    canonicalMembers (all ++ [m]) = setMember m.1 m.2 (canonicalMembers all) := by
  rw [canonicalMembers, List.foldl_append]
  rfl

theorem mem_canonicalMembers {all : Members} {m : String × Value}
    (member : m ∈ canonicalMembers all) : m ∈ all := by
  induction all using List.reverseRecOn with
  | nil => exact member
  | append_singleton all n ih =>
    rw [canonicalMembers_snoc] at member
    rw [List.mem_append, List.mem_singleton]
    exact (mem_setMember member).symm.imp_left ih

theorem latest_canonicalMembers (all : Members) : Latest all (canonicalMembers all) := by
  induction all using List.reverseRecOn with
  | nil => exact ⟨List.Pairwise.nil, fun _ => rfl⟩
  | append_singleton all m ih =>
    rw [canonicalMembers_snoc]
    refine ⟨ih.ascending.setMember, fun key => ?_⟩
    rw [lookup_setMember, ih.last, List.reverse_append]
    exact (lookup_member key m all.reverse).symm

/-- No key is lost. -/
theorem key_mem_canonicalMembers {all : Members} {m : String × Value} (member : m ∈ all) :
    ∃ n ∈ canonicalMembers all, n.1 = m.1 := by
  by_contra! lost
  have unknown : (canonicalMembers all).lookup m.1 = none :=
    List.lookup_eq_none_iff.2 fun n listed => bne_iff_ne.2 (lost n listed).symm
  rw [(latest_canonicalMembers all).last, List.lookup_eq_none_iff] at unknown
  simpa using unknown m (List.mem_reverse.2 member)

/-- The first key is the smallest. -/
theorem canonicalMembers_head {all : Members} {key : String}
    (smaller : key ∈ all.map (·.1) → ∃ m ∈ all, m.1 < key) :
    ((canonicalMembers all).map (·.1)).head? ≠ some key := by
  intro head
  have ascending := (latest_canonicalMembers all).ascending
  obtain ⟨first, later, found, rfl⟩ : ∃ first later, canonicalMembers all = first :: later ∧
      first.1 = key := by
    cases found : canonicalMembers all with
    | nil => simp [found] at head
    | cons first later => exact ⟨first, later, rfl, by simpa [found] using head⟩
  have listed : first ∈ all := mem_canonicalMembers (by rw [found]; exact .head later)
  obtain ⟨m, member, below⟩ := smaller (List.mem_map_of_mem listed)
  obtain ⟨n, kept, same⟩ := key_mem_canonicalMembers member
  rw [found] at ascending kept
  rcases List.mem_cons.1 kept with rfl | behind
  · exact lt_irrefl _ (same ▸ below)
  · have beyond := (List.pairwise_cons.1 ascending).1 n behind
    rw [same] at beyond
    exact lt_asymm below beyond

/-- Members that are canonical already stay as they are. -/
theorem Ascending.canonicalMembers_eq {all : Members} (ascending : Ascending all) :
    canonicalMembers all = all := by
  induction all using List.reverseRecOn with
  | nil => rfl
  | append_singleton all m ih =>
    obtain ⟨before, -, beyond⟩ := List.pairwise_append.1 ascending
    rw [canonicalMembers_snoc, ih before]
    exact setMember_last fun n member => beyond n member m (List.mem_singleton_self m)

end CredentialGate.Json
