import CredentialGate.Json.Failure

/-! Readers take a value off the front of a byte text and leave the rest, which is never longer
than what they were given. Lists and objects are walked from here: a walk calls a reader for each
item or member and carries a state along, so a text is refused at the first fault from the left,
be it one of the grammar or one of the shape. -/
namespace CredentialGate.Json

abbrev Bytes := List UInt8

structure Reader (α : Type) where
  run : Bytes → Except Failure (α × Bytes)
  shrinks : ∀ {input value rest}, run input = .ok (value, rest) → rest.length ≤ input.length

namespace Reader

def pure (a : α) : Reader α where
  run input := .ok (a, input)
  shrinks h := by cases h; exact Nat.le_refl _

def bind (r : Reader α) (f : α → Reader β) : Reader β where
  run input :=
    match r.run input with
    | .ok (a, rest) => (f a).run rest
    | .error e => .error e
  shrinks {input value rest} h := by
    cases first : r.run input with
    | error e => simp [first] at h
    | ok taken => rw [first] at h; exact Nat.le_trans ((f taken.1).shrinks h) (r.shrinks first)

instance : Monad Reader where
  pure := pure
  bind := bind

@[simp] theorem run_pure (a : α) (input : Bytes) :
    (Pure.pure a : Reader α).run input = .ok (a, input) := rfl

theorem run_bind (r : Reader α) (f : α → Reader β) (input : Bytes) :
    (r >>= f).run input = match r.run input with
      | .ok (a, rest) => (f a).run rest
      | .error e => .error e := rfl

/-- Refuses the text behind what has been read, and `back` bytes before that place. -/
def failBack (back : Nat) (cause : Cause) : Reader α where
  run input := .error ⟨cause, input.length + back⟩
  shrinks h := by cases h

def fail (cause : Cause) : Reader α := failBack 0 cause

/-- Refuses the text behind the byte that comes next, if there is one. -/
def failNext (cause : Cause) : Reader α where
  run input := .error ⟨cause, input.length - 1⟩
  shrinks h := by cases h

def peek : Reader (Option UInt8) where
  run input := .ok (input.head?, input)
  shrinks h := by cases h; exact Nat.le_refl _

def next : Reader (Option UInt8) where
  run
    | [] => .ok (none, [])
    | b :: rest => .ok (some b, rest)
  shrinks {input value rest} h := by cases input <;> cases h <;> simp

def takeWhile (p : UInt8 → Bool) : Reader Bytes where
  run input := .ok (input.takeWhile p, input.dropWhile p)
  shrinks {input _ _} h := by cases h; exact (List.dropWhile_suffix p).length_le

end Reader

open Reader

def isBlank (b : UInt8) : Bool := b == 0x20 || b == 0x09 || b == 0x0A || b == 0x0D

def comma : UInt8 := 0x2C
def colonMark : UInt8 := 0x3A
def quoteMark : UInt8 := 0x22
def openList : UInt8 := 0x5B
def closeList : UInt8 := 0x5D
def openObject : UInt8 := 0x7B
def closeObject : UInt8 := 0x7D

/-- The byte behind the blanks, which are passed. -/
def token : Reader (Option UInt8) := do
  let _ ← takeWhile isBlank
  peek

/-- The rest of a word whose first letter has been seen and read. -/
def word : Bytes → Reader Unit
  | [] => Pure.pure ()
  | expected :: more => do
    match ← next with
    | none => fail .endInValue
    | some b => if b = expected then word more else fail .expectedWord

def nullRest : Bytes := [0x75, 0x6C, 0x6C]
def trueRest : Bytes := [0x72, 0x75, 0x65]
def falseRest : Bytes := [0x61, 0x6C, 0x73, 0x65]

/-- Whether a list goes on. The bracket that closes it is left to `endList`. -/
def moreItems (first : Bool) : Reader Bool := do
  match ← token with
  | none => failNext .endInList
  | some b =>
    if b = closeList then Pure.pure false
    else if first then Pure.pure true
    else if b = comma then
      let _ ← next
      match ← token with
      | none => failNext .endInValue
      | some b => if b = closeList then failNext .trailingComma else Pure.pure true
    else failNext .expectedListEnd

def endList : Reader Unit := do
  match ← token with
  | none => failNext .endInList
  | some b =>
    if b = closeList then
      let _ ← next
    else if b = comma then
      let _ ← next
      if (← token) = some closeList then failNext .trailingComma else failNext .trailingCharacters
    else failNext .trailingCharacters

/-- Whether an object goes on, and then the quotation mark of the key has been read. The brace
that closes it is left to `endObject`. -/
def moreMembers (first : Bool) : Reader Bool := do
  match ← token with
  | none => failNext .endInObject
  | some b =>
    if b = closeObject then Pure.pure false
    else if first then
      if b = quoteMark then
        let _ ← next
        Pure.pure true
      else failNext .keyNotString
    else if b = comma then
      let _ ← next
      match ← token with
      | none => failNext .endInValue
      | some b =>
        if b = quoteMark then
          let _ ← next
          Pure.pure true
        else if b = closeObject then failNext .trailingComma
        else failNext .keyNotString
    else failNext .expectedObjectEnd

def colon : Reader Unit := do
  match ← token with
  | none => failNext .endInObject
  | some b => if b = colonMark then let _ ← next else failNext .expectedColon

def endObject : Reader Unit := do
  match ← token with
  | none => failNext .endInObject
  | some b =>
    if b = closeObject then let _ ← next
    else if b = comma then failNext .trailingComma
    else failNext .trailingCharacters

end CredentialGate.Json
