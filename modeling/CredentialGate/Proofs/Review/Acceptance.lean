import CredentialGate.Proofs.Json.Attribute
import CredentialGate.Review.Wire

/-! Which objects are read as a request, and what is read from them. The order of the members does
not count, nor does any member that a request does not know. -/
namespace CredentialGate.Review

open Json

/-- A member that may be missing or null stands there once at most, and else with such a value. -/
def Optionally (members : List (String × Datum)) (name : String) (allowed : Datum → Prop) : Prop :=
  (members.map (·.1)).count name ≤ 1 ∧ ∀ v, (name, v) ∈ members → v = .null ∨ allowed v

def IsText (v : Datum) : Prop := ∃ s, v = .text s

def IsSpec (v : Datum) : Prop := ∃ members, v = .object members ∧ Optionally members "token" IsText

/-- An object that is a request. -/
structure IsRequest (members : List (String × Datum)) : Prop where
  kind : Optionally members "kind" IsText
  apiVersion : Optionally members "apiVersion" IsText
  spec : Optionally members "spec" IsSpec

/-- The request has what the object gives, and none for what is missing or null. -/
structure Request.Gives (members : List (String × Datum)) (r : Request) : Prop where
  kind : ∀ s, r.kind? = some s ↔ ("kind", .text s) ∈ members
  apiVersion : ∀ s, r.apiVersion? = some s ↔ ("apiVersion", .text s) ∈ members
  spec : r.spec?.isSome ↔ ∃ inner, ("spec", .object inner) ∈ members
  token : ∀ s, r.spec?.bind (·.token?) = some s ↔
    ∃ inner, ("spec", .object inner) ∈ members ∧ ("token", .text s) ∈ inner

theorem takes_optional {members : List (String × Datum)} {name : String}
    {get : σ → Option (Option β)} {set : Option β → σ → σ} {r : Reader β}
    {means : Datum → Option β} {allowed : Datum → Prop}
    (meant : ∀ v, (means v).isSome ↔ allowed v) :
    (Attribute.optional name get set r means).Takes members ↔ Optionally members name allowed := by
  simp only [Attribute.Takes, Attribute.optional, Optionally, Datum.option_isSome, meant]

theorem text_isSome (v : Datum) : v.text?.isSome ↔ IsText v := by
  simp only [Option.isSome_iff_exists, Datum.text?_eq_some, IsText]

namespace Spec

def tokenAttribute : Attribute Draft :=
  .optional "token" Draft.token? (fun v d => { d with token? := some v }) textValue Datum.text?

theorem independent : Attribute.Independent [tokenAttribute] where
  distinct := by simp
  own := by simp [tokenAttribute, Attribute.optional]
  other := by simp

/-- What a value stands for. -/
def of? : Datum → Option Spec
  | .object members =>
    (members.foldlM (Attribute.step [tokenAttribute]) {}).map fun d => ⟨d.token?.join⟩
  | _ => none

theorem of?_isSome (v : Datum) : (of? v).isSome ↔ IsSpec v := by
  cases v with
  | object members =>
    have taken : (members.foldlM (Attribute.step [tokenAttribute]) {}).isSome ↔
        ∀ a ∈ [tokenAttribute], a.Takes members :=
      Attribute.taken_iff independent (List.forall_mem_singleton.2 rfl) members
    rw [List.forall_mem_singleton] at taken
    replace taken := taken.trans (takes_optional text_isSome)
    simpa only [of?, Option.isSome_map, IsSpec, Datum.object.injEq, exists_eq_left'] using taken
  | _ => simp [of?, IsSpec]

theorem of?_object {v : Datum} {s : Spec} (meant : of? v = some s) :
    ∃ members, v = .object members := by
  cases v with
  | object members => exact ⟨members, rfl⟩
  | _ => cases meant

theorem of?_token {members : List (String × Datum)} {s : Spec}
    (meant : of? (.object members) = some s) (t : String) :
    s.token? = some t ↔ ("token", .text t) ∈ members := by
  obtain ⟨last, taken, rfl⟩ := Option.map_eq_some_iff.1 meant
  have held := Attribute.held_optional rfl independent taken (List.mem_singleton.2 rfl) rfl t
  simpa only [Datum.text?_eq_some, exists_eq_right] using held

theorem decides_reader {v : Datum} (noList : ∀ items, v ≠ .list items) :
    Decides reader v (of? v) := by
  cases v with
  | object members =>
    have known : reader = record ([tokenAttribute].map Attribute.field) {}
        fun d => .ok ⟨d.token?.join⟩ := rfl
    rw [known, of?, Option.map_eq_bind]
    refine Attribute.decides_record fun m _ a listed _ => ?_
    obtain rfl := List.mem_singleton.1 listed
    exact decides_optionalValue fun _ => decides_textValue m.2
  | list items => exact absurd rfl (noList items)
  | _ => exact decides_record_scalar (by simp) (by simp)

end Spec

namespace Request

def attributes : List (Attribute Draft) := [
  .optional "kind" Draft.kind? (fun v d => { d with kind? := some v }) textValue Datum.text?,
  .optional "apiVersion" Draft.apiVersion? (fun v d => { d with apiVersion? := some v }) textValue
    Datum.text?,
  .optional "spec" Draft.spec? (fun v d => { d with spec? := some v }) Spec.reader Spec.of?]

theorem independent : Attribute.Independent attributes where
  distinct := by simp [attributes, Attribute.optional]
  own := by simp [attributes, Attribute.optional]
  other := by simp [attributes, Attribute.optional]

theorem taken_iff (members : List (String × Datum)) :
    (members.foldlM (Attribute.step attributes) {}).isSome ↔ IsRequest members := by
  have unset : ∀ a ∈ attributes, a.get {} = none := by simp [attributes, Attribute.optional]
  refine (Attribute.taken_iff independent unset members).trans ?_
  simp only [attributes, List.forall_mem_cons, takes_optional text_isSome,
    takes_optional Spec.of?_isSome, List.not_mem_nil, false_implies, implies_true, and_true]
  constructor
  · rintro ⟨kind, apiVersion, spec⟩
    exact ⟨kind, apiVersion, spec⟩
  · intro shape
    exact ⟨shape.kind, shape.apiVersion, shape.spec⟩

theorem decides_reader {members : List (String × Datum)}
    (noList : ∀ items, ("spec", .list items) ∉ members) :
    Decides reader (.object members)
      ((members.foldlM (Attribute.step attributes) {}).map Draft.finish) := by
  have known : reader = record (attributes.map Attribute.field) {} fun d => .ok d.finish := rfl
  rw [known, Option.map_eq_bind]
  refine Attribute.decides_record fun m member a listed named => ?_
  simp only [attributes, List.mem_cons, List.not_mem_nil, or_false] at listed
  rcases listed with rfl | rfl | rfl
  · exact decides_optionalValue fun _ => decides_textValue m.2
  · exact decides_optionalValue fun _ => decides_textValue m.2
  · refine decides_optionalValue fun _ => Spec.decides_reader fun items same => noList items ?_
    have here : m = ("spec", .list items) := Prod.ext named.symm same
    exact here ▸ member

/-- What an object is read as is told from its members, wherever they stand. -/
theorem gives {members : List (String × Datum)} {last : Draft}
    (taken : members.foldlM (Attribute.step attributes) {} = some last) :
    Gives members last.finish := by
  have kind := Attribute.held_optional rfl independent taken (.head _) rfl
  have apiVersion := Attribute.held_optional rfl independent taken (.tail _ (.head _)) rfl
  have spec := Attribute.held_optional rfl independent taken (.tail _ (.tail _ (.head _))) rfl
  simp only [Datum.text?_eq_some, exists_eq_right] at kind apiVersion
  -- All members have been taken, so a spec that is an object stands for something.
  have shape : IsRequest members := (taken_iff members).1 (by rw [taken]; rfl)
  have meant {inner : List (String × Datum)} (member : ("spec", .object inner) ∈ members) :
      ∃ s, last.spec?.join = some s ∧ Spec.of? (.object inner) = some s := by
    rcases shape.spec.2 _ member with null | isSpec
    · cases null
    · obtain ⟨s, stands⟩ := Option.isSome_iff_exists.1 ((Spec.of?_isSome _).2 isSpec)
      exact ⟨s, (spec s).2 ⟨_, member, stands⟩, stands⟩
  refine ⟨kind, apiVersion, ?_, fun t => ?_⟩
  · constructor
    · intro some
      obtain ⟨s, held⟩ := Option.isSome_iff_exists.1 some
      obtain ⟨v, member, stands⟩ := (spec s).1 held
      obtain ⟨inner, rfl⟩ := Spec.of?_object stands
      exact ⟨inner, member⟩
    · rintro ⟨inner, member⟩
      obtain ⟨s, held, -⟩ := meant member
      exact Option.isSome_iff_exists.2 ⟨s, held⟩
  · constructor
    · intro found
      obtain ⟨s, held, token⟩ := Option.bind_eq_some_iff.1 found
      obtain ⟨v, member, stands⟩ := (spec s).1 held
      obtain ⟨inner, rfl⟩ := Spec.of?_object stands
      exact ⟨inner, member, (Spec.of?_token stands t).1 token⟩
    · rintro ⟨inner, member, token⟩
      obtain ⟨s, held, stands⟩ := meant member
      exact Option.bind_eq_some_iff.2 ⟨s, held, (Spec.of?_token stands t).2 token⟩

end Request

/-- However it is written, an object is read as a request if it is one, and the request has what the
object gives. -/
theorem review_object_read {members : List (String × Datum)} {input : Bytes}
    (holds : Holds input (.object members)) (noList : ∀ items, ("spec", .list items) ∉ members) :
    ((∃ r, Request.read input = .ok r) ↔ IsRequest members) ∧
      ∀ r, Request.read input = .ok r → r.Gives members := by
  have read : (Request.read input).toOption =
      (members.foldlM (Attribute.step Request.attributes) {}).map Request.Draft.finish :=
    whole_toOption (Request.decides_reader noList) holds
  constructor
  · rw [← Request.taken_iff members, ← Option.isSome_map, ← read]
    cases Request.read input <;> simp [Except.toOption]
  · intro r taken
    rw [taken] at read
    obtain ⟨last, steps, rfl⟩ := Option.map_eq_some_iff.1 read.symm
    exact Request.gives steps

/-- Out of order, with escapes and blanks and among members that are passed. -/
theorem reordered_object_read :
    let members : List (String × Datum) := [("note", .list [.number [0x31, 0x65, 0x39, 0x39]]),
      ("spec", .object [("note", .null), ("token", .text "/")]), ("note", .null), ("kind", .null)]
    let input := Text.utf8 ("\x7b\"note\":[1e99] ,\n\"spec\":\x7b\"note\":null," ++
      "\"token\":\"\\/\"\x7d,\"note\":null,\"kind\":null\x7d")
    Holds input (.object members) ∧ (∀ items, ("spec", .list items) ∉ members) ∧
      ∃ r, Request.read input = .ok r ∧ r.kind? = none ∧ r.spec?.bind (·.token?) = some "/" := by
  intro members input
  have holds : Holds input (.object members) := by
    have key (s : String) : Quoted s (quote s) := ⟨_, spelled_escaped _, rfl⟩
    have sign : Around colonMark [colonMark] := ⟨[], [], blanks_nil, blanks_nil, rfl⟩
    have broken : Separates false [0x20, comma, 0x0A] :=
      ⟨[0x20], [0x0A], by simp [Blanks, isBlank], by simp [Blanks, isBlank], rfl⟩
    have ended (first : Bool) : RendersMembers first [] [closeObject] := .close blanks_nil
    have numeral : IsNumeral [0x31, 0x65, 0x39, 0x39] :=
      ⟨[], [0x31], [], [0x65, 0x39, 0x39], .inl rfl,
        .inr ⟨0x31, [], rfl, by decide, by simp [DigitRun, isDigit]⟩, .inl rfl,
        .inr ⟨0x65, [], [0x39, 0x39], by decide, .inl rfl, by simp [DigitRun, isDigit], rfl⟩, rfl⟩
    have items : RendersItems true [.number [0x31, 0x65, 0x39, 0x39]] _ :=
      .item (separates_compact true) (.number numeral) (.close blanks_nil)
    have token : Quoted "/" [quoteMark, escapeMark, 0x2F, quoteMark] :=
      ⟨[escapeMark, 0x2F], .short (by decide) .done, rfl⟩
    have inner : RendersMembers true [("note", .null), ("token", .text "/")] _ :=
      .member (separates_compact true) (key _) sign .null <|
        .member (separates_compact false) (key _) sign (.text token) (ended _)
    have outer : RendersMembers true members _ :=
      .member (separates_compact true) (key _) sign (.list items) <|
        .member broken (key _) sign (.object inner) <|
          .member (separates_compact false) (key _) sign .null <|
            .member (separates_compact false) (key _) sign .null (ended _)
    exact ⟨[], _, [], blanks_nil, .object outer, blanks_nil, by decide⟩
  have noList : ∀ items, ("spec", .list items) ∉ members := by simp [members]
  have isText : IsText (.text "/") := ⟨_, rfl⟩
  have shape : IsRequest members := by
    constructor <;> simp [members, Optionally, IsSpec, isText]
  obtain ⟨accepted, told⟩ := review_object_read holds noList
  obtain ⟨r, taken⟩ := accepted.2 shape
  have gives := told r taken
  refine ⟨holds, noList, r, taken, ?_, (gives.token "/").2 ?_⟩
  · rw [Option.eq_none_iff_forall_ne_some]
    intro s held
    simpa [members] using (gives.kind s).1 held
  · simp [members]

end CredentialGate.Review
