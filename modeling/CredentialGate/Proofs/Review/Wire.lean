import CredentialGate.Proofs.Json.Pretty
import CredentialGate.Proofs.Json.Record
import CredentialGate.Review.Wire

/-! Review requests and responses are read back from their text, one member after the other; and the
text of a response that is shown to a user holds the response. -/
namespace CredentialGate.Review

open Json Reader

theorem Spec.reads_document (s : Spec) : Reads Spec.reader s.document.write s := by
  apply reads_record
  · apply ReadsMembers.cons (reads_knownMember rfl rfl ((reads_optionalText s.token?).map _))
    exact .nil _
  · rfl

/-- A request is read back from its text. -/
theorem Request.read_document (r : Request) : Request.read r.document.write = .ok r := by
  obtain ⟨kind?, apiVersion?, spec?⟩ := r
  have spec : Reads (optionalValue Spec.reader) ((spec?.map Spec.document).getD .null).write
      spec? := by
    cases spec? with
    | none => exact reads_optionalValue_null Spec.reader
    | some s => exact reads_optionalObject s.reads_document
  apply whole_of_reads
  apply reads_record
  · apply ReadsMembers.cons (reads_knownMember rfl rfl ((reads_optionalText kind?).map _))
    apply ReadsMembers.cons (reads_knownMember rfl rfl ((reads_optionalText apiVersion?).map _))
    apply ReadsMembers.cons (reads_knownMember rfl rfl (spec.map _))
    exact .nil _
  · rfl

theorem ReviewedUser.reads_document (u : ReviewedUser) :
    Reads ReviewedUser.reader u.document.write u := by
  have groups : Reads (listOf textValue) (Value.list (u.groups.map .text)).write u.groups :=
    reads_listOf fun group _ => ⟨opens_quote group, reads_textValue group⟩
  apply reads_record
  · apply ReadsMembers.cons (reads_knownMember rfl rfl ((reads_textValue u.username).map _))
    apply ReadsMembers.cons (reads_knownMember rfl rfl (groups.map _))
    exact .nil _
  · rfl

theorem Status.reads_document (s : Status) : Reads Status.reader s.document.write s := by
  obtain ⟨authenticated, user?⟩ := s
  have flag := reads_boolValue authenticated
  cases user? with
  | none =>
    apply reads_record
    · apply ReadsMembers.cons (reads_knownMember rfl rfl (flag.map _))
      exact .nil _
    · rfl
  | some user =>
    have shown := reads_optionalObject user.reads_document
    apply reads_record
    · apply ReadsMembers.cons (reads_knownMember rfl rfl (flag.map _))
      apply ReadsMembers.cons (reads_knownMember rfl rfl (shown.map _))
      exact .nil _
    · rfl

/-- A response is read back from its text. -/
theorem Response.read_document (r : Response) : Response.read r.document.write = .ok r := by
  apply whole_of_reads
  apply reads_record
  · apply ReadsMembers.cons (reads_knownMember rfl rfl ((reads_textValue r.apiVersion).map _))
    apply ReadsMembers.cons (reads_knownMember rfl rfl ((reads_textValue r.kind).map _))
    apply ReadsMembers.cons (reads_knownMember rfl rfl (r.status.reads_document.map _))
    exact .nil _
  · rfl

/-- What is shown of a response is a text of it. -/
theorem Response.displayed (r : Response) :
    Holds (Text.utf8 r.document.displayOver) r.document.datum := by
  refine r.document.displayOver_holds ?_
  obtain ⟨apiVersion, kind, authenticated, user?⟩ := r
  cases user? with
  | none => simp [Response.document, Status.document, Value.datum, memberData]
  | some user =>
    simp [Response.document, Status.document, ReviewedUser.document, Value.datum, memberData,
      itemData_eq]

/-- A request names its kind first, a response its version. -/
theorem request_ne_response (request : Request) (response : Response) :
    request.document.write ≠ response.document.write := by
  have kind : quote "kind" = [quoteMark, 0x6B, 0x69, 0x6E, 0x64, quoteMark] := by decide
  have version : quote "apiVersion" =
      [quoteMark, 0x61, 0x70, 0x69, 0x56, 0x65, 0x72, 0x73, 0x69, 0x6F, 0x6E, quoteMark] := by
    decide
  intro same
  have third := congrArg (·[2]?) same
  simp [Request.document, Response.document, Value.write, Value.writeMembers, kind, version]
    at third

/-- What is written is read back, so nothing else is written the same. -/
theorem documents_read_back :
    (∀ r : Request, Request.read r.document.write = .ok r) ∧
    (∀ r : Response, Response.read r.document.write = .ok r) ∧
    (∀ r r' : Request, r.document.write = r'.document.write → r = r') ∧
    (∀ r r' : Response, r.document.write = r'.document.write → r = r') ∧
    ∀ (r : Request) (r' : Response), r.document.write ≠ r'.document.write := by
  refine ⟨Request.read_document, Response.read_document, fun r r' same => ?_, fun r r' same => ?_,
    request_ne_response⟩
  · have read := r.read_document
    rw [same, r'.read_document] at read
    exact (Except.ok.inj read).symm
  · have read := r.read_document
    rw [same, r'.read_document] at read
    exact (Except.ok.inj read).symm

end CredentialGate.Review
