import CredentialGate.Proofs.Json.Positional
import CredentialGate.Proofs.Json.Written
import CredentialGate.Proofs.Review.Acceptance
import CredentialGate.Proofs.Webhook

/-! Requests that are written as lists. The items are taken for the fields of a request, in the
order of these, and the same goes for a spec inside; so a body need not be an object to be a review
that is answered like one. -/
namespace CredentialGate.Review

open Json

/-- A list of the one field of a spec, which may be missing or null. -/
def ListsSpec (v : Datum) : Prop :=
  ∃ items, v = .list items ∧ items.length ≤ 1 ∧ ∀ w ∈ items, w = .null ∨ IsText w

/-- The items are the fields of a review: its kind, and then perhaps a version and a spec, each of
which may be null. -/
structure ListsReview (items : List Datum) : Prop where
  short : items.length ≤ 3
  kind : items[0]? = some (.text reviewKind)
  apiVersion : ∀ v, items[1]? = some v → v = .null ∨ IsText v
  spec : ∀ v, items[2]? = some v → v = .null ∨ IsSpec v ∨ ListsSpec v

/-- A spec, in one form or the other, has this token. -/
def Bears (v : Datum) (token : String) : Prop :=
  (∃ inner, v = .object inner ∧ ("token", .text token) ∈ inner) ∨ v = .list [.text token]

namespace Spec

/-- What a value stands for if the fields of a spec may be listed. -/
def meaning? : Datum → Option Spec
  | .list items => (Attribute.takeItems [tokenAttribute] items {}).map fun d => ⟨d.token?.join⟩
  | v => of? v

theorem decides_written (v : Datum) : Decides reader v (meaning? v) := by
  cases v with
  | list items =>
    have known : reader = record ([tokenAttribute].map Attribute.field) {}
        fun d => .ok ⟨d.token?.join⟩ := rfl
    rw [known, meaning?, Option.map_eq_bind]
    refine Attribute.decides_record_list fun a listed w _ => ?_
    obtain rfl := List.mem_singleton.1 listed
    exact decides_optionalValue fun _ => decides_textValue w
  | _ => exact decides_reader (by simp)

theorem meaning?_isSome (v : Datum) : (meaning? v).isSome ↔ IsSpec v ∨ ListsSpec v := by
  cases v with
  | list items =>
    have means (w : Datum) : (tokenAttribute.means w).isSome ↔ w = .null ∨ IsText w :=
      (Datum.option_isSome w Datum.text?).trans (or_congr_right (text_isSome w))
    rw [meaning?, Option.isSome_map, Attribute.takeItems_isSome]
    constructor
    · rintro ⟨short, all⟩
      refine .inr ⟨items, rfl, short, fun w member => ?_⟩
      obtain ⟨i, place⟩ := List.mem_iff_getElem?.1 member
      obtain rfl : i = 0 := by
        have within := (List.getElem?_eq_some_iff.1 place).1
        simp only [List.length_singleton] at short
        omega
      exact (means w).1 (all 0 tokenAttribute w rfl place)
    · rintro (⟨members, same, -⟩ | ⟨_, ⟨⟩, short, all⟩)
      · cases same
      · refine ⟨short, fun i a w place item => ?_⟩
        obtain rfl := List.mem_singleton.1 (List.mem_of_getElem? place)
        exact (means w).2 (all w (List.mem_of_getElem? item))
  | _ => simpa [meaning?, ListsSpec] using of?_isSome _

theorem meaning?_token {v : Datum} {s : Spec} (meant : meaning? v = some s) (token : String) :
    s.token? = some token ↔ Bears v token := by
  cases v with
  | list items =>
    obtain ⟨last, taken, rfl⟩ := Option.map_eq_some_iff.1 meant
    have place : [tokenAttribute][0]? = some tokenAttribute := rfl
    have held := Attribute.placed_optional rfl independent taken place rfl token
    simp only [Datum.text?_eq_some, exists_eq_right] at held
    have all := (Attribute.takeItems_isSome [tokenAttribute] items {}).1 (by rw [taken]; rfl)
    refine held.trans ⟨fun first => .inr ?_, ?_⟩
    · match items, all.1 with
      | [w], _ => rw [Option.some.inj first]
    · rintro (⟨inner, ⟨⟩, -⟩ | ⟨⟨⟩⟩)
      rfl
  | object members =>
    exact (of?_token meant token).trans (by simp [Bears])
  | _ => cases meant

end Spec

namespace Request

def places : List (Attribute Draft) := [
  .optional "kind" Draft.kind? (fun v d => { d with kind? := some v }) textValue Datum.text?,
  .optional "apiVersion" Draft.apiVersion? (fun v d => { d with apiVersion? := some v }) textValue
    Datum.text?,
  .optional "spec" Draft.spec? (fun v d => { d with spec? := some v }) Spec.reader Spec.meaning?]

theorem places_independent : Attribute.Independent places where
  distinct := by simp [places, Attribute.optional]
  own := by simp [places, Attribute.optional]
  other := by simp [places, Attribute.optional]

theorem decides_list (items : List Datum) :
    Decides reader (.list items) ((Attribute.takeItems places items {}).map Draft.finish) := by
  have known : reader = record (places.map Attribute.field) {} fun d => .ok d.finish := rfl
  rw [known, Option.map_eq_bind]
  refine Attribute.decides_record_list fun a listed v _ => ?_
  simp only [places, List.mem_cons, List.not_mem_nil, or_false] at listed
  rcases listed with rfl | rfl | rfl
  · exact decides_optionalValue fun _ => decides_textValue v
  · exact decides_optionalValue fun _ => decides_textValue v
  · exact decides_optionalValue fun _ => Spec.decides_written v

/-- A list is read as a review of this kind if it is one, with the token of the spec in it. -/
theorem places_review {items : List Datum} {last : Draft}
    (taken : Attribute.takeItems places items {} = some last) :
    (last.finish.kind? = some reviewKind ↔ ListsReview items) ∧
      ∀ token, last.finish.spec?.bind (·.token?) = some token ↔
        ∃ v, items[2]? = some v ∧ Bears v token := by
  have named := Attribute.placed_optional rfl places_independent taken
    (show places[0]? = some _ from rfl) rfl reviewKind
  have held := Attribute.placed_optional rfl places_independent taken
    (show places[2]? = some _ from rfl) rfl
  have all := (Attribute.takeItems_isSome places items {}).1 (by rw [taken]; rfl)
  have third {v : Datum} (place : items[2]? = some v) : v = .null ∨ (Spec.meaning? v).isSome :=
    (Datum.option_isSome v Spec.meaning?).1 (all.2 2 _ v rfl place)
  simp only [Datum.text?_eq_some, exists_eq_right] at named
  constructor
  · refine named.trans ⟨fun first => ⟨all.1, first, fun v second => ?_, fun v place => ?_⟩,
      ListsReview.kind⟩
    · have version := (Datum.option_isSome v Datum.text?).1 (all.2 1 _ v rfl second)
      exact version.imp_right (text_isSome v).1
    · exact (third place).imp_right (Spec.meaning?_isSome v).1
  · intro token
    rw [Option.bind_eq_some_iff]
    constructor
    · rintro ⟨s, given, token⟩
      obtain ⟨v, place, meant⟩ := (held s).1 given
      exact ⟨v, place, (Spec.meaning?_token meant _).1 token⟩
    · rintro ⟨v, place, bears⟩
      rcases third place with rfl | some
      · simp [Bears] at bears
      · obtain ⟨s, meant⟩ := Option.isSome_iff_exists.1 some
        exact ⟨s, (held s).2 ⟨v, place, meant⟩, (Spec.meaning?_token meant token).2 bears⟩

theorem places_taken {items : List Datum} (shape : ListsReview items) :
    (Attribute.takeItems places items {}).isSome := by
  refine (Attribute.takeItems_isSome places items {}).2 ⟨shape.short, fun i a v place item => ?_⟩
  match i, place with
  | 0, rfl =>
    obtain rfl : v = .text reviewKind := Option.some.inj (item.symm.trans shape.kind)
    rfl
  | 1, rfl =>
    exact (Datum.option_isSome v Datum.text?).2
      ((shape.apiVersion v item).imp_right (text_isSome v).2)
  | 2, rfl =>
    exact (Datum.option_isSome v Spec.meaning?).2
      ((shape.spec v item).imp_right (Spec.meaning?_isSome v).2)

end Request

/-- A text that holds a list is read as a review if the list is one. -/
theorem review_list_read {items : List Datum} {input : Bytes} (holds : Holds input (.list items)) :
    ((∃ r, Request.read input = .ok r ∧ r.kind? = some reviewKind) ↔ ListsReview items) ∧
      ∀ r, Request.read input = .ok r → ∀ token, r.spec?.bind (·.token?) = some token ↔
        ∃ v, items[2]? = some v ∧ Bears v token := by
  have read : (Request.read input).toOption =
      (Attribute.takeItems Request.places items {}).map Request.Draft.finish :=
    whole_toOption (Request.decides_list items) holds
  have drafted {r : Request} (got : Request.read input = .ok r) :
      ∃ last, Attribute.takeItems Request.places items {} = some last ∧ last.finish = r := by
    rw [got] at read
    exact Option.map_eq_some_iff.1 read.symm
  refine ⟨⟨?_, fun shape => ?_⟩, fun r got => ?_⟩
  · rintro ⟨r, got, kind⟩
    obtain ⟨last, taken, rfl⟩ := drafted got
    exact (Request.places_review taken).1.1 kind
  · obtain ⟨last, taken⟩ := Option.isSome_iff_exists.1 (Request.places_taken shape)
    have kind := (Request.places_review taken).1.2 shape
    rw [taken] at read
    cases got : Request.read input with
    | error e => rw [got] at read; cases read
    | ok r =>
      rw [got] at read
      obtain rfl := Option.some.inj read
      exact ⟨_, rfl, kind⟩
  · obtain ⟨last, taken, rfl⟩ := drafted got
    exact (Request.places_review taken).2

/-- Neither an object nor a list is a request. -/
theorem scalar_refused {input : Bytes} {v : Datum} (holds : Holds input v)
    (noObject : ∀ members, v ≠ .object members) (noList : ∀ items, v ≠ .list items)
    (r : Request) : Request.read input ≠ .ok r := by
  have refused : Decides Request.reader v none := decides_record_scalar noObject noList
  have read := whole_toOption refused holds
  intro got
  rw [show whole Request.reader input = .ok r from got] at read
  cases read

end CredentialGate.Review

namespace CredentialGate.Webhook

open Json Review Store

section

variable {lookup : Lookup} {body : Bytes} {v : Datum}

/-- What is no object is a review if it is a list of the fields of one. -/
theorem malformed_unless_listed (holds : Holds body v) (noObject : ∀ members, v ≠ .object members) :
    Malformed body ↔ ¬ ∃ items, v = .list items ∧ ListsReview items := by
  cases v with
  | object members => exact absurd rfl (noObject members)
  | list items =>
    have listed := (review_list_read holds).1
    simp only [Datum.list.injEq, exists_eq_left', ← listed, Malformed, reviewKind, not_exists,
      not_and, ne_eq]
  | _ =>
    have refused := scalar_refused holds (by simp) (by simp)
    simpa [Malformed] using fun r got => absurd got (refused r)

theorem vouched_if_listed (holds : Holds body v) (noObject : ∀ members, v ≠ .object members)
    {user : User} :
    Vouched lookup body user ↔ ∃ items spec token, v = .list items ∧ ListsReview items ∧
      items[2]? = some spec ∧ Bears spec token ∧ token ≠ "" ∧ lookup token = .ok (some user) := by
  cases v with
  | object members => exact absurd rfl (noObject members)
  | list items =>
    obtain ⟨listed, tokens⟩ := review_list_read holds
    constructor
    · rintro ⟨r, token, got, kind, held, present, found⟩
      obtain ⟨spec, place, bears⟩ := (tokens r got token).1 held
      exact ⟨items, spec, token, rfl, listed.1 ⟨r, got, kind⟩, place, bears, present, found⟩
    · rintro ⟨_, spec, token, ⟨⟩, shape, place, bears, present, found⟩
      obtain ⟨r, got, kind⟩ := listed.2 shape
      exact ⟨r, token, got, kind, (tokens r got token).2 ⟨spec, place, bears⟩, present, found⟩
  | _ =>
    constructor
    · rintro ⟨r, token, got, -⟩
      exact absurd got (scalar_refused holds (by simp) (by simp) r)
    · rintro ⟨items, spec, token, ⟨⟩, -⟩

end

/-- Of the bodies that hold no object, those are answered like a review that list the fields of one:
with a token that the store knows they are accepted. All others are answered as malformed. -/
theorem listed_review_answered (lookup : Lookup) (sink : Sink σ) (request : Request) (s : σ)
    (posted : request.method = "POST") (routed : pathOf request.target = reviewPath)
    (fits : request.body.length ≤ bodyLimit) {v : Datum} (holds : Holds request.body v)
    (noObject : ∀ members, v ≠ .object members) :
    let reply := (answer lookup sink request s).1
    (reply.status = 400 ↔ ¬ ∃ items, v = .list items ∧ ListsReview items) ∧
    (reply.status = 200 ↔ ∃ user items spec token, v = .list items ∧ ListsReview items ∧
      items[2]? = some spec ∧ Bears spec token ∧ token ≠ "" ∧ lookup token = .ok (some user)) ∧
    (reply.status = 200 ∨ reply.status = 400 ∨ reply.status = 401) ∧
    ∃ response, Response.read reply.body = .ok response ∧
      (response.status.authenticated = true ↔ reply.status = 200) := by
  intro reply
  have shape : reply = _ := answer_posted posted routed fits
  clear_value reply
  subst shape
  simp only [← malformed_unless_listed holds noObject, ← vouched_if_listed holds noObject,
    vouched_iff, malformed_iff lookup]
  cases decided : verdict lookup (requestOf request.body) with
  | ok user =>
    refine ⟨?_, ?_, .inl rfl, _, Response.read_document _, ?_⟩
    all_goals simp [Outcome.of, Reply.json, Response.authenticated]
  | error reason =>
    refine ⟨?_, ?_, ?_, _, Response.read_document _, ?_⟩
    all_goals cases reason <;>
      simp [Outcome.of, Reply.json, Rejection.status, Response.unauthenticated]

/-- A list with an object for its spec is looked up, and not found. -/
theorem unknown_list_unauthorized :
    let lookup : Lookup := fun _ => .ok none
    let silent : Sink Unit := ⟨fun _ _ => (false, ())⟩
    let v : Value := .list [.text "TokenReview", .null, .object [("token", .text "abc")]]
    let request : Request := ⟨"POST", "/authenticate", v.write⟩
    Holds request.body v.datum ∧ (∀ members, v.datum ≠ .object members) ∧
      (answer lookup silent request ()).1.status = 401 := by
  intro lookup silent v request
  have holds : Holds request.body v.datum := v.holds_datum (by simp [v, Value.datum, itemData,
    memberData])
  have noObject : ∀ members, v.datum ≠ .object members := by simp [v, Value.datum]
  have listed : ∃ items, v.datum = .list items ∧ ListsReview items := by
    refine ⟨_, rfl, by decide, rfl, by simp [itemData, Value.datum], ?_⟩
    simp [itemData, memberData, Value.datum, IsSpec, Optionally, IsText]
  obtain ⟨malformed, accepted, answered, -⟩ := listed_review_answered lookup silent request ()
    rfl (by decide) (by decide) holds noObject
  refine ⟨holds, noObject, ?_⟩
  rcases answered with ok | bad | unauthorized
  · obtain ⟨_, _, _, _, _, _, _, _, _, found⟩ := accepted.1 ok
    cases found
  · exact absurd listed (malformed.1 bad)
  · exact unauthorized

/-- A list is no object, and yet a token in it is accepted. -/
theorem listed_token_accepted :
    let lookup : Lookup := fun token =>
      .ok (if token = "abc" then some ⟨"Alice", "alice@example.org", "lab"⟩ else none)
    let silent : Sink Unit := ⟨fun _ _ => (false, ())⟩
    let v : Value := .list [.text "TokenReview", .null, .list [.text "abc"]]
    let request : Request := ⟨"POST", "/authenticate", v.write⟩
    Holds request.body v.datum ∧ (∀ members, v.datum ≠ .object members) ∧
      request.body.length ≤ bodyLimit ∧ (answer lookup silent request ()).1.status = 200 := by
  intro lookup silent v request
  have holds : Holds request.body v.datum := v.holds_datum (by simp [v, Value.datum, itemData])
  exact ⟨holds, by simp [v, Value.datum], by decide, by decide +kernel⟩

end CredentialGate.Webhook
