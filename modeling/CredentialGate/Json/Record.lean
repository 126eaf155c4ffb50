import CredentialGate.Json.Document
import CredentialGate.Json.Passing

/-! Reading records. A record is written as an object, whose unknown members are passed, or as an
array of its fields in their order. A field may be set once. -/
namespace CredentialGate.Json

open Reader

def optionalValue (r : Reader α) : Reader (Option α) := do
  if (← token) = some 0x6E then
    let _ ← next
    word nullRest
    return none
  else return some (← r)

def boolValue : Reader Bool := do
  match ← token with
  | none => failNext .endInValue
  | some b =>
    if b = 0x74 then
      let _ ← next
      word trueRest
      return true
    else if b = 0x66 then
      let _ ← next
      word falseRest
      return false
    else wrongType

def listOf (item : Reader α) : Reader (List α) := do
  if (← token) = some openList then
    let _ ← next
    let items ← eachItem (fun done => return (← item) :: done) []
    endList
    return items.reverse
  else wrongType

/-- One field of a record that is being read into a draft `σ`. -/
structure RecordField (σ : Type) where
  name : String
  isSet : σ → Bool
  read : σ → Reader σ

/-- A field that the draft holds as an option. -/
def RecordField.of (name : String) (get : σ → Option β) (set : β → σ → σ) (r : Reader β) :
    RecordField σ where
  name := name
  isSet draft := (get draft).isSome
  read draft := do return set (← r) draft

/-- A member of a record: a known field that is not yet set, or one that is passed. -/
def readMember (fields : List (RecordField σ)) (draft : σ) (key : String) : Reader σ :=
  match fields.find? (·.name = key) with
  | some field =>
    if field.isSet draft then fail (.mismatch .repeatedField)
    else do
      colon
      field.read draft
  | none => do
    colon
    pass
    return draft

/-- The fields of a record that is written as an array, as many as there are. -/
def readFields : List (RecordField σ) → Bool → σ → Reader σ
  | [], _, draft => return draft
  | field :: more, first, draft => do
    if ← moreItems first then
      readFields more false (← field.read draft)
    else return draft

def complete (result : Except Mismatch α) : Reader α :=
  match result with
  | .ok a => return a
  | .error kind => fail (.mismatch kind)

/-- A record with the given fields. `finish` fills in defaults and demands what has none. -/
def record (fields : List (RecordField σ)) (draft : σ) (finish : σ → Except Mismatch α) :
    Reader α := do
  match ← token with
  | none => failNext .endInValue
  | some b =>
    if b = openObject then
      let _ ← next
      let draft ← eachMember (readMember fields) true draft
      let a ← complete (finish draft)
      endObject
      return a
    else if b = openList then
      let _ ← next
      let draft ← readFields fields true draft
      let a ← complete (finish draft)
      endList
      return a
    else wrongType

def required (a? : Option α) : Except Mismatch α :=
  match a? with
  | some a => .ok a
  | none => .error .missingField

end CredentialGate.Json
