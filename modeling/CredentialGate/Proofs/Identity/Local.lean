import CredentialGate.Identity
import CredentialGate.Proofs.Json.Settled
import CredentialGate.Proofs.Review.Acceptance

/-! Identities as they are read and written. Four attributes are known; whatever else an object has
is kept beside them, settled and in order, wherever it stands. -/
namespace CredentialGate.LocalIdentity

open Json Reader

def known : List String := ["name", "email", "authority", "api_token"]

/-- The members that are not known to an identity. -/
def others (members : List (String × Datum)) : List (String × Datum) :=
  members.filter (·.1 ∉ known)

/-- The member may be missing, or it stands there once with such a value. -/
def Once (members : List (String × Datum)) (name : String) (allowed : Datum → Prop) : Prop :=
  (members.map (·.1)).count name ≤ 1 ∧ ∀ v, (name, v) ∈ members → allowed v

/-- An object that is an identity. -/
structure IsIdentity (members : List (String × Datum)) : Prop where
  name : Once members "name" Review.IsText
  email : Once members "email" Review.IsText
  authority : Once members "authority" Review.IsText
  credential : Review.Optionally members "api_token" Review.IsText
  nested : ∀ m ∈ others members, m.2.fits (greatestDepth - 1) = true

/-- The text is what the members give to the name, or empty if they give nothing. -/
def GivesText (members : List (String × Datum)) (name text : String) : Prop :=
  (name, .text text) ∈ members ∨ name ∉ members.map (·.1) ∧ text = ""

/-- A known attribute that must be a text. -/
def textual (name : String) (get : Draft → Option String) (set : String → Draft → Draft) :
    Attribute Draft where
  Content := String
  name := name
  get := get
  set := set
  reader := textValue
  means := Datum.text?

def attributes : List (Attribute Draft) := [
  textual "name" Draft.name? fun v d => { d with name? := some v },
  textual "email" Draft.email? fun v d => { d with email? := some v },
  textual "authority" Draft.authority? fun v d => { d with authority? := some v },
  .optional "api_token" Draft.credential? (fun v d => { d with credential? := some v }) textValue
    Datum.text?]

theorem independent : Attribute.Independent attributes where
  distinct := by simp [attributes, textual, Attribute.optional]
  own := by simp [attributes, textual, Attribute.optional]
  other := by simp [attributes, textual, Attribute.optional]

theorem unset : ∀ a ∈ attributes, a.get {} = none := by
  simp [attributes, textual, Attribute.optional]

/-- What a member makes of a draft. -/
def step (draft : Draft) (m : String × Datum) : Option Draft :=
  if m.1 ∈ known then Attribute.step attributes draft m
  else if m.2.fits (greatestDepth - 1) then
    some { draft with others := (m.1, m.2.written) :: draft.others }
  else none

theorem find_known (key : String) : (fields.find? (·.name = key)).isSome ↔ key ∈ known := by
  rw [List.find?_isSome]
  simp [fields, RecordField.of, known, eq_comm]

theorem decides_known {a : Attribute Draft} (listed : a ∈ attributes) (v : Datum) :
    Decides a.reader v (a.means v) := by
  simp only [attributes, List.mem_cons, List.not_mem_nil, or_false] at listed
  rcases listed with rfl | rfl | rfl | rfl
  · exact decides_textValue v
  · exact decides_textValue v
  · exact decides_textValue v
  · exact decides_optionalValue fun _ => decides_textValue v

theorem decides_attribute {m : String × Datum} (integral : m.1 ∉ known → m.2.Integral)
    (draft : Draft) : DecidesMember (readAttribute draft m.1) m.2 (step draft m) := by
  unfold readAttribute step
  by_cases listed : m.1 ∈ known
  · rw [if_pos listed, if_pos ((find_known m.1).2 listed)]
    have field : fields = attributes.map Attribute.field := rfl
    rw [field]
    exact Attribute.decides_member (fun a member _ => decides_known member m.2) draft
  · have kept := ((decides_value (greatestDepth - 1) (integral listed)).map fun v =>
      { draft with others := (m.1, v) :: draft.others }).behindColon
    rw [if_neg listed, if_neg (mt (find_known m.1).1 listed)]
    rwa [apply_ite (Option.map _)] at kept

/-! The known attributes do not see the others -/

def Draft.keeping (draft : Draft) (others : Members) : Draft := { draft with others := others }

theorem step_keeping (draft : Draft) (kept : Members) (m : String × Datum) :
    Attribute.step attributes (draft.keeping kept) m =
      (Attribute.step attributes draft m).map (·.keeping kept) := by
  unfold Attribute.step
  cases found : attributes.find? (·.name = m.1) with
  | none => rfl
  | some a =>
    have listed := List.mem_of_find?_eq_some found
    have apart : a.get (draft.keeping kept) = a.get draft ∧
        ∀ x, a.set x (draft.keeping kept) = (a.set x draft).keeping kept := by
      simp only [attributes, List.mem_cons, List.not_mem_nil, or_false] at listed
      rcases listed with rfl | rfl | rfl | rfl <;> exact ⟨rfl, fun _ => rfl⟩
    dsimp only
    rw [apart.1, apply_ite (Option.map _), Option.map_map]
    simp only [apart.2]
    rfl

theorem steps_keeping (draft : Draft) (kept : Members) (members : List (String × Datum)) :
    members.foldlM (Attribute.step attributes) (draft.keeping kept) =
      (members.foldlM (Attribute.step attributes) draft).map (·.keeping kept) := by
  induction members generalizing draft with
  | nil => rfl
  | cons m members ih =>
    rw [List.foldlM_cons, List.foldlM_cons, step_keeping]
    cases Attribute.step attributes draft m with
    | none => rfl
    | some next => exact ih next

theorem step_others {draft next : Draft} {m : String × Datum}
    (taken : Attribute.step attributes draft m = some next) : next.others = draft.others := by
  have same : Attribute.step attributes draft m =
      (Attribute.step attributes draft m).map (·.keeping draft.others) :=
    step_keeping draft draft.others m
  rw [taken] at same
  have held : next = next.keeping draft.others := Option.some.inj same
  rw [held]
  rfl

theorem step_unknown {m : String × Datum} (unlisted : m.1 ∉ known) (draft : Draft) :
    Attribute.step attributes draft m = some draft := by
  have none : attributes.find? (·.name = m.1) = none := by
    rw [List.find?_eq_none]
    simpa [attributes, textual, Attribute.optional, known, eq_comm] using unlisted
  rw [Attribute.step, none]

/-- Known and other attributes go their own ways. -/
theorem steps_eq (members : List (String × Datum)) (draft : Draft) :
    members.foldlM step draft =
      if (others members).all (·.2.fits (greatestDepth - 1)) then
        (members.foldlM (Attribute.step attributes) draft).map
          (·.keeping (((others members).map fun m => (m.1, m.2.written)).reverse ++ draft.others))
      else none := by
  induction members generalizing draft with
  | nil => rfl
  | cons m members ih =>
    rw [List.foldlM_cons, List.foldlM_cons, step]
    by_cases listed : m.1 ∈ known
    · have same : others (m :: members) = others members := by simp [others, listed]
      rw [if_pos listed, same]
      cases taken : Attribute.step attributes draft m with
      | none => split <;> rfl
      | some next => simpa [step_others taken] using ih next
    · have more : others (m :: members) = m :: others members := by simp [others, listed]
      rw [if_neg listed, more, List.all_cons, step_unknown listed]
      cases fits : m.2.fits (greatestDepth - 1) with
      | false => simp
      | true =>
        have later := ih (draft.keeping ((m.1, m.2.written) :: draft.others))
        rw [steps_keeping, Option.map_map] at later
        rw [Bool.true_and]
        simpa [Draft.keeping, Function.comp_def] using later

/-- The identity of an object, by its known attributes and by the others. -/
def Draft.identity (draft : Draft) (extra : Members) : LocalIdentity where
  name := draft.name?.getD ""
  email := draft.email?.getD ""
  authority := draft.authority?.getD ""
  credential? := draft.credential?.join.map Credential.mk
  extra := extra

/-- No value beside the known attributes has an object in it that stands for an embedded text. -/
theorem finish_keeping {members : List (String × Datum)} (draft : Draft)
    (plain : ∀ m ∈ members, m.2.Unembedded) :
    (draft.keeping (members.map fun m => (m.1, m.2.written)).reverse).finish =
      .ok (draft.identity (canonicalMembers (settledMembers members))) := by
  have written : (members.map fun m => (m.1, m.2.written)) = memberValues id members :=
    (memberValues_eq id members).symm
  have settled : settledMembers members = memberValues canonicalMembers members :=
    (memberValues_eq canonicalMembers members).symm
  simp only [Draft.finish, Draft.keeping, List.reverse_reverse, written, settled,
    canonicaliseMembers_written members plain]
  rfl

theorem decides_reader {members : List (String × Datum)}
    (integral : ∀ m ∈ others members, m.2.Integral)
    (plain : ∀ m ∈ others members, m.2.Unembedded) :
    Decides reader (.object members)
      (if (others members).all (·.2.fits (greatestDepth - 1)) then
        (members.foldlM (Attribute.step attributes) {}).map
          (·.identity (canonicalMembers (settledMembers (others members))))
      else none) := by
  intro blanks bytes rest all rendered delimited
  cases rendered with
  | @object _ inner rendered =>
    have visible : isBlank openObject = false := by decide
    have decides : ∀ m ∈ members, ∀ draft, DecidesMember (readAttribute draft m.1) m.2
        (step draft m) := fun m member draft => decides_attribute (fun unlisted =>
      integral m (List.mem_filter.2 ⟨member, by simpa using unlisted⟩)) draft
    have walked : ((eachMember readAttribute true {}).run (inner ++ rest)).toOption =
        (members.foldlM step {}).map (·, closeObject :: rest) :=
      membersFrom_toOption decides rendered {} rest
    rw [steps_eq] at walked
    rw [reader, List.cons_append, run_bind, run_token_mark all visible]
    dsimp only
    rw [if_pos rfl, run_bind, run_next_cons]
    dsimp only
    rw [toOption_bind, walked]
    split
    · cases members.foldlM (Attribute.step attributes) {} with
      | none => rfl
      | some last =>
        have finished := finish_keeping last plain
        simp [finished, run_bind, run_endObject, Except.toOption]
    · rfl

/-- The identity has what the object gives, and keeps what it does not know. -/
structure Gives (members : List (String × Datum)) (i : LocalIdentity) : Prop where
  name : GivesText members "name" i.name
  email : GivesText members "email" i.email
  authority : GivesText members "authority" i.authority
  credential : ∀ token, i.credential? = some ⟨token⟩ ↔ ("api_token", .text token) ∈ members
  extra : Latest (settledMembers (others members)) i.extra

section

variable {members : List (String × Datum)} {last : Draft} {name : String}
  {get : Draft → Option String} {set : String → Draft → Draft}

theorem takes_text : (textual name get set).Takes members ↔ Once members name Review.IsText := by
  simp only [Attribute.Takes, textual, Once, Review.text_isSome]

theorem gives_text (taken : members.foldlM (Attribute.step attributes) {} = some last)
    (listed : textual name get set ∈ attributes) : GivesText members name ((get last).getD "") := by
  have held := Attribute.held_iff independent taken listed (unset _ listed)
  have takes : Once members name Review.IsText := takes_text.1
    ((Attribute.taken_iff independent unset members).1 (by rw [taken]; rfl) _ listed)
  cases given : get last with
  | some s =>
    obtain ⟨v, member, meant⟩ := (held s).1 given
    exact .inl (Datum.text?_eq_some.1 meant ▸ member)
  | none =>
    refine .inr ⟨fun named => ?_, rfl⟩
    obtain ⟨⟨_, v⟩, member, rfl⟩ := List.mem_map.1 named
    obtain ⟨s, rfl⟩ := takes.2 v member
    cases given.symm.trans ((held s).2 ⟨.text s, member, rfl⟩)

end

theorem taken_iff (members : List (String × Datum)) :
    (members.foldlM (Attribute.step attributes) {}).isSome ↔
      Once members "name" Review.IsText ∧ Once members "email" Review.IsText ∧
      Once members "authority" Review.IsText ∧
      Review.Optionally members "api_token" Review.IsText := by
  refine (Attribute.taken_iff independent unset members).trans ?_
  simp only [attributes, List.forall_mem_cons, takes_text,
    Review.takes_optional Review.text_isSome, List.not_mem_nil, false_implies, implies_true,
    and_true]

theorem gives {members : List (String × Datum)} {last : Draft}
    (taken : members.foldlM (Attribute.step attributes) {} = some last) :
    Gives members (last.identity (canonicalMembers (settledMembers (others members)))) where
  name := gives_text taken (.head _)
  email := gives_text taken (.tail _ (.head _))
  authority := gives_text taken (.tail _ (.tail _ (.head _)))
  credential token := by
    have held := Attribute.held_optional rfl independent taken
      (.tail _ (.tail _ (.tail _ (.head _)))) rfl token
    simp only [Datum.text?_eq_some, exists_eq_right] at held
    simpa [Draft.identity] using held
  extra := latest_canonicalMembers _

theorem read_toOption {members : List (String × Datum)} {input : Bytes}
    (holds : Holds input (.object members)) (integral : ∀ m ∈ others members, m.2.Integral)
    (plain : ∀ m ∈ others members, m.2.Unembedded) :
    (read input).toOption =
      if (others members).all (·.2.fits (greatestDepth - 1)) then
        (members.foldlM (Attribute.step attributes) {}).map
          (·.identity (canonicalMembers (settledMembers (others members))))
      else none :=
  whole_toOption (decides_reader integral plain) holds

/-! Written identities -/

theorem steps_unknown {members : List (String × Datum)} (unlisted : ∀ m ∈ members, m.1 ∉ known)
    (draft : Draft) : members.foldlM (Attribute.step attributes) draft = some draft := by
  induction members with
  | nil => rfl
  | cons m members ih =>
    rw [List.forall_mem_cons] at unlisted
    rw [List.foldlM_cons, step_unknown unlisted.1]
    exact ih unlisted.2

/-- The members that an identity is written with. -/
def documentMembers (i : LocalIdentity) : List (String × Datum) :=
  [("name", .text i.name), ("email", .text i.email), ("authority", .text i.authority)] ++
    i.credential?.toList.map (fun c => ("api_token", .text c.token)) ++
    i.extra.map fun m => (m.1, m.2.datum)

theorem document_datum (i : LocalIdentity) : i.document.datum = .object i.documentMembers := by
  simp [document, documentMembers, Value.datum, memberData_eq, Credential.document,
    Function.comp_def]

section

variable {i : LocalIdentity}

theorem others_document (unlisted : ∀ m ∈ i.extra, m.1 ∉ known) :
    others i.documentMembers = i.extra.map fun m => (m.1, m.2.datum) := by
  have credential :
      others (i.credential?.toList.map fun c => ("api_token", .text c.token)) = [] := by
    cases i.credential? <;> simp [others, known]
  have extra : others (i.extra.map fun m => (m.1, m.2.datum)) =
      i.extra.map fun m => (m.1, m.2.datum) :=
    List.filter_eq_self.2 (List.forall_mem_map.2 fun m member => by simpa using unlisted m member)
  rw [others] at credential extra ⊢
  rw [documentMembers, List.filter_append, List.filter_append, credential, extra]
  simp [known]

theorem document_steps (unlisted : ∀ m ∈ i.extra, m.1 ∉ known) :
    i.documentMembers.foldlM (Attribute.step attributes) {} =
      some ⟨some i.name, some i.email, some i.authority,
        i.credential?.map fun c => some c.token, []⟩ := by
  have further (draft : Draft) : (i.extra.map fun m => (m.1, m.2.datum)).foldlM
      (Attribute.step attributes) draft = some draft :=
    steps_unknown (List.forall_mem_map.2 unlisted) draft
  rw [documentMembers, List.foldlM_append]
  cases i.credential? with
  | none => exact further _
  | some c => exact further _

/-- An identity whose further attributes last is read back from where it is written. -/
theorem read_document (ascending : Ascending i.extra) (unlisted : ∀ m ∈ i.extra, m.1 ∉ known)
    (lasting : ∀ m ∈ i.extra, m.2.Lasting (greatestDepth - 1)) :
    read i.document.write = .ok i := by
  have rest := others_document unlisted
  have inside {P : Datum → Prop} (holds : ∀ v : Value, v.Lasting (greatestDepth - 1) → P v.datum) :
      ∀ m ∈ others i.documentMembers, P m.2 := by
    rw [rest, List.forall_mem_map]
    exact fun m member => holds m.2 (lasting m member)
  have integral : i.document.datum.Integral := by
    rw [document_datum, Datum.integral_object, documentMembers, List.forall_mem_append,
      List.forall_mem_append, List.forall_mem_map, List.forall_mem_map]
    exact ⟨⟨by simp, by simp⟩, fun m member => (lasting m member).integral⟩
  have holds := i.document.holds_datum integral
  rw [document_datum] at holds
  have read := read_toOption holds (inside fun _ v => v.integral) (inside fun _ v => v.unembedded)
  have fit : (others i.documentMembers).all (·.2.fits (greatestDepth - 1)) = true :=
    List.all_eq_true.2 (inside (P := (·.fits (greatestDepth - 1) = true)) fun _ v => v.fits)
  rw [if_pos fit, document_steps unlisted, rest, Value.Lasting.settledMembers_eq lasting,
    ascending.canonicalMembers_eq] at read
  have same : Draft.identity ⟨some i.name, some i.email, some i.authority,
      i.credential?.map fun c => some c.token, []⟩ i.extra = i := by
    cases i with
    | mk name email authority credential? extra => cases credential? <;> rfl
  rw [Option.map_some, same] at read
  cases got : LocalIdentity.read i.document.write with
  | error e => rw [got] at read; cases read
  | ok j => rw [got] at read; exact congrArg _ (Option.some.inj read)

end

theorem read_iff {members : List (String × Datum)} {input : Bytes}
    (holds : Holds input (.object members)) (integral : ∀ m ∈ others members, m.2.Integral)
    (plain : ∀ m ∈ others members, m.2.Unembedded) :
    (∃ i, read input = .ok i) ↔ IsIdentity members := by
  have read := read_toOption holds integral plain
  have shape : (∃ i, LocalIdentity.read input = .ok i) ↔
      (LocalIdentity.read input).toOption.isSome := by
    cases LocalIdentity.read input <;> simp [Except.toOption]
  rw [shape, read]
  cases fit : (others members).all (·.2.fits (greatestDepth - 1)) with
  | true =>
    have nested := List.all_eq_true.1 fit
    rw [if_pos rfl, Option.isSome_map, taken_iff]
    constructor
    · rintro ⟨name, email, authority, credential⟩
      exact ⟨name, email, authority, credential, nested⟩
    · exact fun shape => ⟨shape.name, shape.email, shape.authority, shape.credential⟩
  | false =>
    rw [if_neg (by simp)]
    refine iff_of_false Bool.false_ne_true fun shape => ?_
    rw [List.all_eq_true.2 shape.nested] at fit
    cases fit

theorem read_eq {members : List (String × Datum)} {input : Bytes} {i : LocalIdentity}
    (holds : Holds input (.object members)) (integral : ∀ m ∈ others members, m.2.Integral)
    (plain : ∀ m ∈ others members, m.2.Unembedded) (got : read input = .ok i) :
    i.Gives members ∧ i.extra = canonicalMembers (settledMembers (others members)) := by
  have read := read_toOption holds integral plain
  rw [got] at read
  split at read
  · obtain ⟨last, taken, rfl⟩ := Option.map_eq_some_iff.1 read.symm
    exact ⟨gives taken, rfl⟩
  · cases read

/-- However an object is written, it is read as an identity if it is one, and the identity keeps
what it does not know: of each key what it was given last, at whatever depth, and wherever the known
attributes stand. Written and read again, it is the same. All of this fails only where an object is
taken for an embedded text. -/
theorem identity_kept {members : List (String × Datum)} {input : Bytes}
    (holds : Holds input (.object members)) (integral : ∀ m ∈ others members, m.2.Integral)
    (plain : ∀ m ∈ others members, m.2.Unembedded) :
    ((∃ i, read input = .ok i) ↔ IsIdentity members) ∧
    (∀ inner, ∃ found, (Datum.object inner).settled = .object found ∧
      Latest (settledMembers inner) found) ∧
    ∀ i, read input = .ok i →
      i.Gives members ∧ (∀ m ∈ i.extra, m.1 ∉ known) ∧
      (∀ rearranged text j, Holds text (.object rearranged) → others rearranged = others members →
        read text = .ok j → j.extra = i.extra) ∧
      ((∀ m ∈ others members, m.2.Settling) → read i.document.write = .ok i) := by
  refine ⟨read_iff holds integral plain, fun inner => ⟨_, Datum.settled_object inner,
    latest_canonicalMembers _⟩, fun i got => ?_⟩
  obtain ⟨gives, extra⟩ := read_eq holds integral plain got
  have kept {m : String × Value} (member : m ∈ i.extra) :
      ∃ d ∈ others members, (d.1, d.2.settled) = m := by
    rw [extra] at member
    exact List.mem_map.1 (mem_canonicalMembers member)
  have unlisted : ∀ m ∈ i.extra, m.1 ∉ known := by
    intro m member
    obtain ⟨d, given, rfl⟩ := kept member
    simpa using (List.mem_filter.1 given).2
  refine ⟨gives, unlisted, ?_, fun settling => ?_⟩
  · intro rearranged text j written same found
    rw [← same] at integral plain extra
    rw [extra, (read_eq written integral plain found).2]
  · have shape := (read_iff holds integral plain).1 ⟨i, got⟩
    refine read_document gives.extra.ascending unlisted fun m member => ?_
    obtain ⟨d, given, rfl⟩ := kept member
    exact Datum.lasting_settled _ (shape.nested d given) (integral d given) (settling d given)

/-- Attributes on both sides of the known ones, with repeated keys outside and inside. -/
theorem repeated_attributes_kept :
    let v : Value := .object [("role", .text "User"), ("api_token", .text "abc"),
      ("limits", .object [("b", .number (.integer (-1))), ("a", .null), ("b", .bool true)]),
      ("name", .text "alice"), ("role", .text "Manager")]
    let members : List (String × Datum) := [("role", .text "User"), ("api_token", .text "abc"),
      ("limits", .object [("b", .number (Number.integer (-1)).write), ("a", .null),
        ("b", .bool true)]), ("name", .text "alice"), ("role", .text "Manager")]
    Holds v.write (.object members) ∧ ∃ i, read v.write = .ok i ∧ i.credential? = some ⟨"abc"⟩ ∧
      i.extra.lookup "role" = some (.text "Manager") ∧
      i.extra.lookup "limits" = some (.object [("a", .null), ("b", .bool true)]) ∧
      read i.document.write = .ok i := by
  intro v members
  have minus : IsInteger (Number.integer (-1)).write := ⟨-1, ⟨by decide, by decide⟩, rfl⟩
  have holds : Holds v.write (.object members) :=
    v.holds_datum (by simp [v, Value.datum, memberData, minus])
  have rest : others members = [members[0], members[2], members[4]] := by
    simp [others, known, members]
  have integral : ∀ m ∈ others members, m.2.Integral := by simp [rest, members, minus]
  have plain : ∀ m ∈ others members, m.2.Unembedded := by
    simp [rest, members, Datum.Unembedded, Datum.everywhere_object, Datum.everywhere_scalar,
      embeddedKey]
  have settling : ∀ m ∈ others members, m.2.Settling := by
    simp [rest, members, Datum.Settling, Datum.everywhere_object, Datum.everywhere_scalar,
      embeddedKey]
  have shape : IsIdentity members := by
    constructor <;> simp [rest, members, Once, Review.Optionally, Review.IsText, Datum.fits,
      greatestDepth]
  obtain ⟨accepted, -, keeps⟩ := identity_kept holds integral plain
  obtain ⟨i, got⟩ := accepted.2 shape
  obtain ⟨gives, -, -, again⟩ := keeps i got
  refine ⟨holds, i, got, (gives.credential "abc").2 (by simp [members]), ?_, ?_, again settling⟩
  · rw [gives.extra.last, rest]
    rfl
  · rw [gives.extra.last, rest]
    rfl

/-- An object that is taken for a text is not kept, but what the text stands for is. -/
theorem embedded_text_replaced :
    let v : Value := .object [("a", .object [(embeddedKey, .text "[1]")])]
    let members : List (String × Datum) := [("a", .object [(embeddedKey, .text "[1]")])]
    let kept : Value := .object [("a", .list [.number (.integer 1)])]
    Holds v.write (.object members) ∧ IsIdentity members ∧
      (read v.write).toOption.map (fun i => (Value.object i.extra).write) = some kept.write ∧
      kept.write ≠ v.write := by
  intro v members kept
  have holds : Holds v.write v.datum := v.holds_datum (by simp [v, Value.datum, memberData])
  have shape : IsIdentity members := by
    constructor <;> simp [members, others, known, Once, Review.Optionally, Datum.fits,
      greatestDepth]
  exact ⟨holds, shape, by decide +kernel, by decide +kernel⟩

end CredentialGate.LocalIdentity
