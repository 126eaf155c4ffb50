import CredentialGate.Json.Value
import CredentialGate.Json.Walk

/-! Reading values that are kept. They nest at most 127 deep. Read as written, an object has the
members of the text in their order; read as a document, every object is canonical.

One key is special in a document: an object that starts with it stands for the value whose text
is the value of that key. -/
namespace CredentialGate.Json

open Reader

/-- A scalar that is kept, or what `list` and `object` make of an opening bracket, which they find
unread. -/
def scalarOr (list object : Reader Value) : Reader Value := do
  match ← token with
  | none => failNext .endInValue
  | some b =>
    if b = openList then list
    else if b = openObject then object
    else if b = minusMark ∨ isDigit b then return .number (← number)
    else if b = quoteMark then
      let _ ← next
      return .text (← text)
    else if b = 0x6E then
      let _ ← next
      word nullRest
      return .null
    else if b = 0x74 then
      let _ ← next
      word trueRest
      return .bool true
    else if b = 0x66 then
      let _ ← next
      word falseRest
      return .bool false
    else failNext .expectedValue

/-- Refuses a value of the wrong type. A scalar has to be well-formed before its type counts. -/
def wrongType : Reader α := do
  let _ ← scalarOr (fail (.mismatch .wrongType)) (fail (.mismatch .wrongType))
  fail (.mismatch .wrongType)

def textValue : Reader String := do
  if (← token) = some quoteMark then
    let _ ← next
    text
  else wrongType

def listValue (item : Reader Value) : Reader Value := do
  let _ ← next
  let items ← eachItem (fun done => return (← item) :: done) []
  endList
  return .list items.reverse

/-- How an object that has been opened is read, given the reading of the values in it. -/
abbrev ObjectRule := Reader Value → Reader Value

/-- A value inside which `depth` more brackets may be opened. -/
def value (rule : ObjectRule) : Nat → Reader Value
  | 0 => scalarOr (failNext .tooDeep) (failNext .tooDeep)
  | depth + 1 =>
    scalarOr (listValue (value rule depth)) do
      let _ ← next
      rule (value rule depth)

def greatestDepth : Nat := 127

def asWritten : ObjectRule := fun item => do
  let members ← eachMember (fun done key => do
    colon
    return (key, ← item) :: done) true []
  endObject
  return .object members.reverse

def embeddedKey : String := "$serde_json::private::RawValue"

/-- Canonical objects. `embed` reads the text that stands for a value. -/
def canonical (embed : String → Except Cause Value) : ObjectRule := fun item => do
  if ← moreMembers true then
    let key ← text
    colon
    if key = embeddedKey then
      match embed (← textValue) with
      | .error cause => fail cause
      | .ok v =>
        endObject
        return v
    else
      let v ← item
      let members ← eachMember (fun done key => do
        colon
        return (key, ← item) :: done) false [(key, v)]
      endObject
      return .object (canonicalMembers members.reverse)
  else
    endObject
    return .object []

/-- A text that holds one value and nothing else. -/
def whole (r : Reader α) (input : Bytes) : Except Failure α :=
  let complete : Reader α := do
    let a ← r
    if (← token).isSome then failNext .trailingCharacters else return a
  (complete.run input).map (·.1)

def embeddedBy (read : Bytes → Except Failure α) (s : String) : Except Cause α :=
  let input := Text.utf8 s
  match read input with
  | .ok a => .ok a
  | .error failure => .error (.embedded failure.cause (failure.position input))

/-- A document in which texts may be embedded in texts `level` times. -/
def documentAt : Nat → Bytes → Except Failure Value
  | 0, _ => .error ⟨.tooDeep, 0⟩
  | level + 1, input =>
    whole (value (canonical (embeddedBy (documentAt level))) greatestDepth) input

/-- Each embedded text is shorter than the one around it, so its length bounds the levels. -/
def document (input : Bytes) : Except Failure Value := documentAt (input.length + 1) input

mutual

def Value.canonicalise : Value → Except Cause Value
  | .list items => do return .list (← canonicaliseItems items)
  | .object ((key, v) :: more) =>
    if key = embeddedKey then
      match v, more with
      | .text s, [] => embeddedBy document s
      | .text s, _ :: _ => do
        let _ ← embeddedBy document s
        .error (.mismatch .wrongType)
      | _, _ => .error (.mismatch .wrongType)
    else do return .object (canonicalMembers (← canonicaliseMembers ((key, v) :: more)))
  | v => .ok v

def canonicaliseItems : List Value → Except Cause (List Value)
  | [] => .ok []
  | v :: more => do return (← v.canonicalise) :: (← canonicaliseItems more)

def canonicaliseMembers : List (String × Value) → Except Cause Members
  | [] => .ok []
  | (key, v) :: more => do return (key, ← v.canonicalise) :: (← canonicaliseMembers more)

end

end CredentialGate.Json
