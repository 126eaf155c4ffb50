import CredentialGate.Audit.Action
import CredentialGate.Audit.Timestamp
import CredentialGate.Audit.Uuid
import CredentialGate.Json.Record

/-! Audit events: an action with an identifier and a time, in one flat object. The action is told
by its tag, which is the name of the action or its index. -/
namespace CredentialGate.Audit

open Json Reader

structure Event where
  id : Uuid
  time : Timestamp
  action : Action
deriving DecidableEq, Repr

inductive ActionKind
  | reviewReceived
  | authenticated
deriving DecidableEq, Repr

namespace Action

def kindOfTag? : Value → Except Mismatch ActionKind
  | .text s =>
    if s = receivedTag then .ok .reviewReceived
    else if s = authenticatedTag then .ok .authenticated
    else .error .unknownVariant
  | .number (.integer 0) => .ok .reviewReceived
  | .number (.integer 1) => .ok .authenticated
  | .number (.integer n) => .error (if 0 ≤ n then .unknownVariant else .wrongType)
  | _ => .error .wrongType

def asOptionalText : Value → Except Mismatch (Option String)
  | .text s => .ok (some s)
  | .null => .ok none
  | _ => .error .wrongType

def asText : Value → Except Mismatch String
  | .text s => .ok s
  | _ => .error .wrongType

/-- The value of a field, which may be given once. -/
def once (key : String) (members : Members) : Except Mismatch (Option Value) :=
  match members.filter (·.1 = key) with
  | [] => .ok none
  | [(_, v)] => .ok (some v)
  | _ => .error .repeatedField

def optionalField (key : String) (members : Members) : Except Mismatch (Option String) := do
  match ← once key members with
  | none => return none
  | some v => asOptionalText v

def textField (key : String) (members : Members) : Except Mismatch String := do
  asText (← required (← once key members))

def ofMembers (kind : ActionKind) (members : Members) : Except Mismatch Action :=
  match kind with
  | .reviewReceived => do
    return .reviewReceived (← optionalField "kind" members)
      (← optionalField "api_version" members) (← optionalField "token_fingerprint" members)
  | .authenticated => do
    return .authenticated (← textField "name" members) (← textField "username" members)

def ofItems (kind : ActionKind) (items : List Value) : Except Mismatch Action :=
  match kind, items with
  | .reviewReceived, [a, b, c] => do
    return .reviewReceived (← asOptionalText a) (← asOptionalText b) (← asOptionalText c)
  | .authenticated, [a, b] => do return .authenticated (← asText a) (← asText b)
  | _, _ => .error .missingField

def tagKey : String := "action"

/-- The action that flat members of a larger object hold. -/
def ofFlat (members : Members) : Except Mismatch Action := do
  let kind ← kindOfTag? (← required (← once tagKey members))
  ofMembers kind (members.filter (·.1 ≠ tagKey))

/-- An action that is being read. The other members stand in reverse, as written. -/
structure Draft where
  kind? : Option ActionKind := none
  others : Members := []

def tag : Reader ActionKind := do complete (kindOfTag? (.text (← textValue)))

def readPart (draft : Draft) (key : String) : Reader Draft :=
  if key = tagKey then
    if draft.kind?.isSome then fail (.mismatch .repeatedField)
    else do
      colon
      return { draft with kind? := some (← tag) }
  else do
    colon
    let v ← value asWritten (greatestDepth - 1)
    return { draft with others := (key, v) :: draft.others }

def Draft.finish (draft : Draft) : Except Mismatch Action := do
  ofMembers (← required draft.kind?) draft.others.reverse

/-- The tag and then the fields, in a list that has been opened. -/
def readItems : Reader Action := do
  if ← moreItems true then
    let kind ← tag
    let rest ← restOfItems
    let action ← complete (ofItems kind rest.reverse)
    endList
    return action
  else fail (.mismatch .missingField)
where
  restOfItems : Reader (List Value) :=
    let item := value asWritten (greatestDepth - 1)
    ⟨laterItems (fun done => return (← item) :: done) [], laterItems_shrinks⟩

/-- An action that stands alone: an object with its tag anywhere, or a list with its tag first. -/
def reader : Reader Action := do
  let start ← token
  if start = some openObject then
    let _ ← next
    let draft ← eachMember readPart true {}
    let action ← complete draft.finish
    endObject
    return action
  else if start = some openList then
    let _ ← next
    readItems
  else wrongType

def read (input : Bytes) : Except Failure Action := whole reader input

end Action

namespace Event

def document (e : Event) : Value :=
  .object ([("id", .text e.id.display), ("ts", .text e.time.display)] ++ e.action.members)

structure Draft where
  id? : Option Uuid := none
  time? : Option Timestamp := none
  others : Members := []

def parsed (read? : String → Option α) : Reader α := do
  match read? (← textValue) with
  | some a => return a
  | none => fail (.mismatch .wrongText)

def fields : List (RecordField Draft) := [
  .of "id" Draft.id? (fun v d => { d with id? := some v }) (parsed Uuid.read?),
  .of "ts" Draft.time? (fun v d => { d with time? := some v }) (parsed Timestamp.read?)]

def readPart (draft : Draft) (key : String) : Reader Draft :=
  if (fields.find? (·.name = key)).isSome then readMember fields draft key
  else do
    colon
    let v ← value asWritten (greatestDepth - 1)
    return { draft with others := (key, v) :: draft.others }

def Draft.finish (draft : Draft) : Except Mismatch Event := do
  return ⟨← required draft.id?, ← required draft.time?, ← Action.ofFlat draft.others.reverse⟩

def reader : Reader Event := do
  if (← token) = some openObject then
    let _ ← next
    let draft ← eachMember readPart true {}
    let event ← complete draft.finish
    endObject
    return event
  else wrongType

def read (input : Bytes) : Except Failure Event := whole reader input

end Event

end CredentialGate.Audit
