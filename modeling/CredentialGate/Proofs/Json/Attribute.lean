import CredentialGate.Proofs.Json.Decision

/-! Which objects a record takes. A draft holds each field in a place of its own, and a member that
names no field leaves the draft as it is. So for each field by itself it matters how often it is
given and what it is given, and for no field where its member stands. -/
namespace CredentialGate.Json

/-- The values that an object gives to a name. -/
def given (members : List (String × Datum)) (name : String) : List Datum :=
  (members.filter (·.1 = name)).map (·.2)

theorem mem_given {members : List (String × Datum)} {name : String} {v : Datum} :
    v ∈ given members name ↔ (name, v) ∈ members := by
  simp [given]

theorem length_given (members : List (String × Datum)) (name : String) :
    (given members name).length = (members.map (·.1)).count name := by
  rw [given, List.length_map, List.count_eq_countP, List.countP_map, List.countP_eq_length_filter]
  congr

/-- A field of a record with the values that it may be given. -/
structure Attribute (σ : Type) where
  Content : Type
  name : String
  get : σ → Option Content
  set : Content → σ → σ
  reader : Reader Content
  means : Datum → Option Content

namespace Attribute

def field (a : Attribute σ) : RecordField σ := .of a.name a.get a.set a.reader

/-- A field that may be null. -/
def optional (name : String) (get : σ → Option (Option β)) (set : Option β → σ → σ) (r : Reader β)
    (means : Datum → Option β) : Attribute σ where
  Content := Option β
  name := name
  get := get
  set := set
  reader := optionalValue r
  means := Datum.option means

/-- The field is given once at most, and then something that it may be given. -/
def Takes (a : Attribute σ) (members : List (String × Datum)) : Prop :=
  (members.map (·.1)).count a.name ≤ 1 ∧ ∀ v, (a.name, v) ∈ members → (a.means v).isSome

/-- What a member makes of the draft, unless it is refused. -/
def step (attributes : List (Attribute σ)) (draft : σ) (m : String × Datum) : Option σ :=
  match attributes.find? (·.name = m.1) with
  | none => some draft
  | some a => if (a.get draft).isSome then none else (a.means m.2).map (a.set · draft)

/-- Setting a field is seen by this field and by no other. -/
structure Independent (attributes : List (Attribute σ)) : Prop where
  distinct : (attributes.map name).Nodup
  own : ∀ a ∈ attributes, ∀ x draft, a.get (a.set x draft) = some x
  other : ∀ a ∈ attributes, ∀ b ∈ attributes, a.name ≠ b.name → ∀ x draft,
    b.get (a.set x draft) = b.get draft

variable {attributes : List (Attribute σ)}

/-- A name finds the one field that has it. -/
theorem find_own (distinct : (attributes.map name).Nodup) {a : Attribute σ}
    (member : a ∈ attributes) : attributes.find? (·.name = a.name) = some a := by
  obtain ⟨before, after, rfl⟩ := List.append_of_mem member
  rw [List.find?_eq_some_iff_append]
  refine ⟨by simp, before, after, rfl, fun b earlier => ?_⟩
  rw [List.map_append, List.nodup_append] at distinct
  have apart := distinct.2.2 b.name (List.mem_map_of_mem earlier) a.name (by simp)
  simpa using apart

theorem decides_member {key : String} {v : Datum}
    (decides : ∀ a ∈ attributes, a.name = key → Decides a.reader v (a.means v)) (draft : σ) :
    DecidesMember (readMember (attributes.map field) draft key) v
      (step attributes draft (key, v)) := by
  intro sign bytes rest around rendered delimited
  obtain ⟨after, blanks, behind⟩ := run_colon_around around (bytes ++ rest)
  have same : (attributes.map field).find? (·.name = key) =
      (attributes.find? (·.name = key)).map field := List.find?_map ..
  rw [readMember, step, same]
  cases found : attributes.find? (·.name = key) with
  | none =>
    have passed := (decides_pass v).map (fun _ => draft) after bytes rest blanks rendered delimited
    dsimp only [Option.map_none]
    rw [toOption_bind, behind]
    exact passed
  | some a =>
    have member := List.mem_of_find?_eq_some found
    have named : a.name = key := by simpa using List.find?_some found
    have taken := (decides a member named).map (a.set · draft) after bytes rest blanks rendered
      delimited
    dsimp only [Option.map_some]
    by_cases held : (a.get draft).isSome
    · rw [if_pos held, if_pos (show a.field.isSet draft = true from held)]
      rfl
    · rw [if_neg held, if_neg (show ¬ a.field.isSet draft = true from held), toOption_bind, behind]
      exact taken

theorem decides_record {draft : σ} {finish : σ → Except Mismatch α}
    {members : List (String × Datum)}
    (decides : ∀ m ∈ members, ∀ a ∈ attributes, a.name = m.1 → Decides a.reader m.2 (a.means m.2)) :
    Decides (record (attributes.map field) draft finish) (.object members)
      ((members.foldlM (step attributes) draft).bind fun last => (finish last).toOption) :=
  Json.decides_record fun m member draft => decides_member (decides m member) draft

/-! A field by itself -/

/-- A place is filled by one value, and by no second one. -/
def fill (means : Datum → Option β) : Option β → List Datum → Option (Option β)
  | held?, [] => some held?
  | none, v :: more => (means v).bind fun x => fill means (some x) more
  | some _, _ :: _ => none

theorem fill_isSome (means : Datum → Option β) (values : List Datum) :
    (fill means none values).isSome ↔ values.length ≤ 1 ∧ ∀ v ∈ values, (means v).isSome := by
  match values with
  | [] => simp [fill]
  | [v] => cases meant : means v <;> simp [fill, meant]
  | v :: w :: more => cases meant : means v <;> simp [fill, meant]

theorem fill_eq_some {means : Datum → Option β} {values : List Datum} {held? : Option β}
    (filled : fill means none values = some held?) (x : β) :
    held? = some x ↔ ∃ v ∈ values, means v = some x := by
  match values with
  | [] =>
    obtain rfl : none = held? := Option.some.inj filled
    simp
  | [v] =>
    cases meant : means v with
    | none => simp [fill, meant] at filled
    | some y =>
      obtain rfl : some y = held? := by simpa [fill, meant] using filled
      simp [meant]
  | v :: w :: more => cases meant : means v <;> simp [fill, meant] at filled

/-- A member fills the place of the field that it names. -/
theorem fill_step (independent : Independent attributes) {a : Attribute σ} (member : a ∈ attributes)
    {draft next : σ} {m : String × Datum} (taken : step attributes draft m = some next)
    (later : List (String × Datum)) :
    fill a.means (a.get draft) (given (m :: later) a.name) =
      fill a.means (a.get next) (given later a.name) := by
  obtain ⟨key, v⟩ := m
  by_cases named : key = a.name
  · subst named
    rw [step, find_own independent.distinct member] at taken
    cases held : a.get draft with
    | some x => simp [held] at taken
    | none =>
      obtain ⟨x, meant, rfl⟩ : ∃ x, a.means v = some x ∧ a.set x draft = next := by
        simpa [held] using taken
      rw [independent.own a member]
      simp [given, fill, meant]
  · have apart : given ((key, v) :: later) a.name = given later a.name := by simp [given, named]
    have kept : a.get next = a.get draft := by
      rw [step] at taken
      cases found : attributes.find? (·.name = key) with
      | none =>
        rw [found] at taken
        rw [Option.some.inj taken]
      | some b =>
        have other : b.name = key := by simpa using List.find?_some found
        rw [found] at taken
        simp only [Option.ite_none_left_eq_some, Option.map_eq_some_iff] at taken
        obtain ⟨-, x, -, rfl⟩ := taken
        exact independent.other b (List.mem_of_find?_eq_some found) a member
          (by rw [other]; exact named) x draft
    rw [apart, kept]

/-- A member is refused for the field that it names. -/
theorem fill_refused {draft : σ} {m : String × Datum} (refused : step attributes draft m = none)
    (later : List (String × Datum)) :
    ∃ a ∈ attributes, fill a.means (a.get draft) (given (m :: later) a.name) = none := by
  obtain ⟨key, v⟩ := m
  rw [step] at refused
  cases found : attributes.find? (·.name = key) with
  | none => simp [found] at refused
  | some a =>
    obtain rfl : a.name = key := by simpa using List.find?_some found
    refine ⟨a, List.mem_of_find?_eq_some found, ?_⟩
    cases held : a.get draft with
    | some x => simp [given, fill]
    | none =>
      have meant : a.means v = none := by simpa [found, held] using refused
      simp [given, fill, meant]

theorem fill_run (independent : Independent attributes) {members : List (String × Datum)}
    {draft last : σ} (taken : members.foldlM (step attributes) draft = some last)
    {a : Attribute σ} (member : a ∈ attributes) :
    fill a.means (a.get draft) (given members a.name) = some (a.get last) := by
  induction members generalizing draft with
  | nil =>
    obtain rfl : draft = last := Option.some.inj taken
    rfl
  | cons m members ih =>
    rw [List.foldlM_cons] at taken
    obtain ⟨next, first, rest⟩ := Option.bind_eq_some_iff.1 taken
    rw [fill_step independent member first]
    exact ih rest

theorem fill_run_refused (independent : Independent attributes)
    {members : List (String × Datum)} {draft : σ}
    (refused : members.foldlM (step attributes) draft = none) :
    ∃ a ∈ attributes, fill a.means (a.get draft) (given members a.name) = none := by
  induction members generalizing draft with
  | nil => cases refused
  | cons m members ih =>
    rw [List.foldlM_cons] at refused
    cases first : step attributes draft m with
    | none => exact fill_refused first members
    | some next =>
      have later : members.foldlM (step attributes) next = none := by simpa [first] using refused
      obtain ⟨a, member, unfilled⟩ := ih later
      exact ⟨a, member, by rw [fill_step independent member first, unfilled]⟩

/-! All fields -/

theorem takes_iff (a : Attribute σ) (members : List (String × Datum)) :
    a.Takes members ↔ (fill a.means none (given members a.name)).isSome := by
  simp only [Takes, fill_isSome, length_given, mem_given]

/-- The members are taken together if each field takes its own. -/
theorem taken_iff (independent : Independent attributes) {draft : σ}
    (unset : ∀ a ∈ attributes, a.get draft = none) (members : List (String × Datum)) :
    (members.foldlM (step attributes) draft).isSome ↔ ∀ a ∈ attributes, a.Takes members := by
  constructor
  · intro taken a member
    obtain ⟨last, taken⟩ := Option.isSome_iff_exists.1 taken
    have filled := fill_run independent taken member
    rw [unset a member] at filled
    rw [takes_iff, filled]
    rfl
  · intro all
    cases taken : members.foldlM (step attributes) draft with
    | some last => rfl
    | none =>
      obtain ⟨a, member, unfilled⟩ := fill_run_refused independent taken
      have filled := (takes_iff a members).1 (all a member)
      rw [unset a member] at unfilled
      rw [unfilled] at filled
      cases filled

/-- A field then holds what it was given, wherever its member stood. -/
theorem held_iff (independent : Independent attributes) {draft last : σ}
    {members : List (String × Datum)} (taken : members.foldlM (step attributes) draft = some last)
    {a : Attribute σ} (member : a ∈ attributes) (unset : a.get draft = none) (x : a.Content) :
    a.get last = some x ↔ ∃ v, (a.name, v) ∈ members ∧ a.means v = some x := by
  have filled := fill_run independent taken member
  rw [unset] at filled
  simp only [fill_eq_some filled x, mem_given]

section

variable {name : String} {get : σ → Option (Option β)} {set : Option β → σ → σ} {r : Reader β}
  {means : Datum → Option β}

theorem held_optional (refuses : means .null = none) (independent : Independent attributes)
    {draft last : σ} {members : List (String × Datum)}
    (taken : members.foldlM (step attributes) draft = some last)
    (member : optional name get set r means ∈ attributes) (unset : get draft = none) (x : β) :
    (get last).join = some x ↔ ∃ v, (name, v) ∈ members ∧ means v = some x := by
  rw [Option.join_eq_some_iff]
  refine (held_iff independent taken member unset (some x)).trans ?_
  simp only [optional, Datum.option_eq_some refuses]

end

end Attribute

end CredentialGate.Json
