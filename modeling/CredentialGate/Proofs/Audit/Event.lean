import CredentialGate.Audit.Event
import CredentialGate.Proofs.Json.OneLine
import CredentialGate.Proofs.Json.Record
import CredentialGate.Proofs.Text.Lines

/-! Audit events are read back from their written form, whatever their texts are. The members of an
event are flat, so all that its reader has to know is which of them are its own: the others are put
aside, in their order, for the action. -/
namespace CredentialGate.Audit

open Json Reader

namespace Action

/-- The members of an action with what they hold. -/
def entries : Action → List (String × Option String)
  | .reviewReceived kind? apiVersion? fingerprint? =>
    [("action", receivedTag), ("kind", kind?), ("api_version", apiVersion?),
      ("token_fingerprint", fingerprint?)]
  | .authenticated name username =>
    [("action", authenticatedTag), ("name", name), ("username", username)]

theorem members_eq (a : Action) : a.members = flat a.entries := by
  cases a <;> rfl

theorem asOptionalText_optional (s? : Option String) : asOptionalText (.optional s?) = .ok s? := by
  cases s? <;> rfl

theorem ofFlat_members (a : Action) : ofFlat a.members = .ok a := by
  cases a with
  | reviewReceived kind? apiVersion? fingerprint? =>
    simp +decide [ofFlat, members, once, tagKey, required, kindOfTag?, ofMembers, optionalField,
      asOptionalText_optional, Bind.bind, Except.bind, Pure.pure, Except.pure]
  | authenticated name username =>
    simp +decide [ofFlat, members, once, tagKey, required, kindOfTag?, ofMembers, textField, asText,
      Bind.bind, Except.bind, Pure.pure, Except.pure]

theorem entries_others (a : Action) : ∀ entry ∈ a.entries, entry.1 ≠ "id" ∧ entry.1 ≠ "ts" := by
  cases a <;> simp +decide [entries]

end Action

namespace Event

def entries (e : Event) : List (String × Option String) :=
  ("id", e.id.display) :: ("ts", e.time.display) :: e.action.entries

theorem document_eq (e : Event) : e.document = .object (flat e.entries) := by
  rw [document, Action.members_eq]
  rfl

theorem reads_parsed {read? : String → Option α} {s : String} {a : α} (reads : read? s = some a) :
    Reads (parsed read?) (quote s) a := by
  intro rest delimited
  simp [parsed, run_bind, reads_textValue s rest delimited, reads]

/-- A member that is none of the event's own is put aside. -/
theorem reads_otherMember {key : String} (other : key ≠ "id" ∧ key ≠ "ts") (s? : Option String)
    (draft : Draft) :
    Reads (readPart draft key) (colonMark :: (Value.optional s?).write)
      { draft with others := (key, .optional s?) :: draft.others } := by
  intro rest delimited
  have unknown : (fields.find? (·.name = key)).isSome = false := by
    simp [fields, RecordField.of, other.1.symm, other.2.symm]
  simp [readPart, unknown, run_bind, run_colon, reads_value asWritten _ s? rest delimited]

theorem readsMembers_others {entries : List (String × Option String)}
    (others : ∀ entry ∈ entries, entry.1 ≠ "id" ∧ entry.1 ≠ "ts") (draft : Draft) :
    ReadsMembers readPart draft (flat entries)
      { draft with others := (flat entries).reverse ++ draft.others } := by
  induction entries generalizing draft with
  | nil => exact .nil draft
  | cons entry entries ih =>
    obtain ⟨key, s?⟩ := entry
    rw [List.forall_mem_cons] at others
    have later := ih others.2 { draft with others := (key, .optional s?) :: draft.others }
    have head := reads_otherMember others.1 s? draft
    simp only [flat, List.map_cons, List.reverse_cons, List.append_assoc, List.singleton_append]
    exact .cons head later

theorem reads_ownMember {field : RecordField Draft} {draft next : Draft} {key : String}
    {bytes : Bytes} (found : fields.find? (·.name = key) = some field)
    (unset : field.isSet draft = false) (taken : Reads (field.read draft) bytes next) :
    Reads (readPart draft key) (colonMark :: bytes) next := by
  rw [readPart, if_pos (by rw [found]; rfl)]
  exact reads_knownMember found unset taken

/-- The draft of an event once its members have been read. -/
def draftOf (e : Event) : Draft := ⟨some e.id, some e.time, e.action.members.reverse⟩

theorem finish_draftOf (e : Event) : (draftOf e).finish = .ok e := by
  simp [draftOf, Draft.finish, required, Action.ofFlat_members, Bind.bind, Except.bind, Pure.pure,
    Except.pure]

variable {e : Event}

theorem readsMembers_entries (id : Uuid.read? e.id.display = some e.id)
    (time : Timestamp.read? e.time.display = some e.time) :
    ReadsMembers readPart {} (flat e.entries) (draftOf e) := by
  have first : Reads (readPart {} "id") (colonMark :: quote e.id.display)
      { id? := some e.id } :=
    reads_ownMember rfl rfl ((reads_parsed id).map _)
  have second : Reads (readPart { id? := some e.id } "ts") (colonMark :: quote e.time.display)
      { id? := some e.id, time? := some e.time } :=
    reads_ownMember rfl rfl ((reads_parsed time).map _)
  have later :=
    readsMembers_others e.action.entries_others { id? := some e.id, time? := some e.time }
  rw [List.append_nil] at later
  rw [draftOf, Action.members_eq]
  exact .cons first (.cons second later)

/-- An event is read back from its written form. -/
theorem read_document (id : Uuid.read? e.id.display = some e.id)
    (time : Timestamp.read? e.time.display = some e.time) : read e.document.write = .ok e := by
  apply whole_of_reads
  intro rest _
  have visible : isBlank openObject = false := by decide
  have walked := run_membersFrom (readsMembers_entries id time) true rest
  rw [document_eq]
  simp [reader, Value.write, run_bind, visible, eachMember, walked,
    run_complete _ (finish_draftOf e), run_endObject]

/-- What is written of an event is a text on one line, which starts with a brace. -/
theorem document_text (e : Event) : ∃ cs : List Char,
    e.document.write = Text.utf8 (String.ofList ('\x7b' :: cs)) ∧
      Text.Unbroken ('\x7b' :: cs) := by
  obtain ⟨cs, text, visible⟩ := (oneLine_writeMembers true e.entries).chars
  refine ⟨cs, ?_, ?_⟩
  · rw [document_eq, Value.write, ← text, Text.utf8_ofList, Text.utf8_ofList]
    rfl
  · have controls (c : Char) (control : c.toNat < 0x20) : c ∉ cs := fun member =>
      Nat.not_le_of_lt control (visible c member)
    simp only [Text.Unbroken, List.mem_cons, not_or]
    exact ⟨⟨by decide, controls '\n' (by decide)⟩, ⟨by decide, controls '\r' (by decide)⟩⟩

theorem document_unbroken (e : Event) : lineFeed ∉ e.document.write := by
  intro member
  rw [document_eq, Value.write, List.mem_cons] at member
  rcases member with mark | member
  · exact absurd mark (by decide)
  · exact absurd ((oneLine_writeMembers true e.entries).visible _ member) (by decide)

end Event

end CredentialGate.Audit
