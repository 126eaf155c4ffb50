import CredentialGate.Http.Message
import CredentialGate.Proofs.Json.Positional

/-! What the body of a failure tells the user: one text, wherever in the body it stands and however
it is written, or nothing. -/
namespace CredentialGate.Http.Response

open Json

/-- The one text that an object calls its message, or that an array holds. -/
def told : Datum → String
  | .object members =>
    match given members "message" with
    | [.text s] => s
    | _ => ""
  | .list [.text s] => s
  | _ => ""

def messageAttribute : Attribute Complaint :=
  .optional "message" Complaint.message? (fun v c => { c with message? := some v }) textValue
    Datum.text?

theorem independent : Attribute.Independent [messageAttribute] where
  distinct := by simp
  own := by simp [messageAttribute, Attribute.optional]
  other := by simp

theorem decides_message (v : Datum) :
    Decides messageAttribute.reader v (messageAttribute.means v) :=
  decides_optionalValue fun _ => decides_textValue v

theorem complaintReader_eq : complaintReader =
    record ([messageAttribute].map Attribute.field) {} fun c => .ok (c.message?.join.getD "") := rfl

/-- A message that is missing, null, of another kind or repeated is empty. -/
theorem filled_told (values : List Datum) :
    ((Attribute.fill messageAttribute.means none values).map fun m? => m?.join.getD "").getD "" =
      match values with
      | [.text s] => s
      | _ => "" := by
  match values with
  | [] => rfl
  | [v] => cases v <;> rfl
  | v :: w :: more => cases v <;> rfl

theorem decides_complaint (v : Datum) :
    ∃ message?, Decides complaintReader v message? ∧ message?.getD "" = told v := by
  rw [complaintReader_eq]
  cases v with
  | object members =>
    refine ⟨_, Attribute.decides_record fun m _ a listed _ => ?_, ?_⟩
    · obtain rfl := List.mem_singleton.1 listed
      exact decides_message m.2
    · rw [told, ← filled_told]
      cases taken : members.foldlM (Attribute.step [messageAttribute]) {} with
      | none =>
        obtain ⟨a, listed, unfilled⟩ := Attribute.fill_run_refused independent taken
        obtain rfl := List.mem_singleton.1 listed
        have empty : Attribute.fill messageAttribute.means none (given members "message") = none :=
          unfilled
        rw [empty]
        rfl
      | some last =>
        have filled : Attribute.fill messageAttribute.means none (given members "message") =
            some last.message? :=
          Attribute.fill_run independent taken (List.mem_singleton.2 rfl)
        rw [filled]
        rfl
  | list items =>
    refine ⟨_, Attribute.decides_record_list fun a listed v _ => ?_, ?_⟩
    · obtain rfl := List.mem_singleton.1 listed
      exact decides_message v
    · match items with
      | [] => rfl
      | [v] => cases v <;> rfl
      | v :: w :: more => cases v <;> rfl
  | _ => exact ⟨none, decides_record_scalar (by simp) (by simp), rfl⟩

/-- However the body of a failure is written, the user is told what it says. -/
theorem complaint_told {r : Response} (whole : r.isComplete = true) {v : Datum}
    (holds : Holds r.body v) : r.complaint = told v := by
  obtain ⟨message?, decides, same⟩ := decides_complaint v
  have read := whole_toOption decides holds
  rw [complaint, ← same, ← read]
  cases Json.whole complaintReader r.body with
  | ok message => simp [whole, Except.toOption]
  | error e => rfl

end CredentialGate.Http.Response
