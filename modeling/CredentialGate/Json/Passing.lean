import CredentialGate.Json.Numeral
import CredentialGate.Json.Walk

/-! Passing a value without looking at more than its form. It may nest to any depth: the brackets
that are open stand in a list of their own. -/
namespace CredentialGate.Json

open Reader

/-- A number of which only the form is looked at; it may not end early either. -/
def passNumeral : Reader Unit where
  run input :=
    match numeral.run input with
    | .ok (_, rest) => .ok ((), rest)
    | .error e => .error { e with cause := .invalidNumber }
  shrinks {input value rest} h := by
    cases taken : numeral.run input with
    | error e => simp [taken] at h
    | ok n => rw [taken] at h; cases h; exact numeral.shrinks taken

inductive Bracket
  | list
  | object
deriving DecidableEq, Repr

def Bracket.close : Bracket → UInt8
  | list => closeList
  | object => closeObject

/-- Passes a value, or of a list or an object its opening bracket, which is returned. The byte
that the value starts with has been seen and read. -/
def passAfter (b : UInt8) : Reader (Option Bracket) :=
  if b = quoteMark then do
    passText
    return none
  else if b = openList then return some .list
  else if b = openObject then return some .object
  else if b = 0x6E then do
    word nullRest
    return none
  else if b = 0x74 then do
    word trueRest
    return none
  else if b = 0x66 then do
    word falseRest
    return none
  else fail .expectedValue

def passStart : Reader (Option Bracket) := do
  match ← token with
  | none => failNext .endInValue
  | some b =>
    if b = minusMark ∨ isDigit b then
      passNumeral
      return none
    else
      let _ ← next
      passAfter b

def passKey : Reader Unit := do
  match ← token with
  | none => failNext .endInObject
  | some b =>
    if b = quoteMark then
      let _ ← next
      passText
      colon
    else failNext .keyNotString

/-- Whether a bracket that has just been opened holds a value. If not, it is closed. -/
def enter : Bracket → Reader Bool
  | .list => do
    match ← token with
    | none => failNext .endInList
    | some b =>
      if b = closeList then
        let _ ← next
        return false
      else return true
  | .object => do
    match ← token with
    | none => failNext .endInObject
    | some b =>
      if b = closeObject then
        let _ ← next
        return false
      else
        passKey
        return true

/-- Whether a bracket holds one more value behind one that has been passed. -/
def goOn (bracket : Bracket) : Reader Bool := do
  match ← token with
  | none => failNext (if bracket = .list then .endInList else .endInObject)
  | some b =>
    if b = comma then
      let _ ← next
      if bracket = .object then passKey
      return true
    else if b = bracket.close then
      let _ ← next
      return false
    else failNext (if bracket = .list then .expectedListEnd else .expectedObjectEnd)

/-- Closes brackets up to one that holds a further value, and returns those still open. -/
def leaveFrom : List Bracket → Bytes → Except Failure (List Bracket × Bytes)
  | [], input => .ok ([], input)
  | bracket :: outer, input =>
    match (goOn bracket).run input with
    | .error e => .error e
    | .ok (true, rest) => .ok (bracket :: outer, rest)
    | .ok (false, rest) => leaveFrom outer rest

theorem leaveFrom_shrinks {brackets : List Bracket} {input : Bytes} {value rest}
    (h : leaveFrom brackets input = .ok (value, rest)) : rest.length ≤ input.length := by
  fun_induction leaveFrom brackets input with
  | case1 => cases h; exact Nat.le_refl _
  | case2 => cases h
  | case3 _ _ _ _ more => cases h; exact (goOn _).shrinks more
  | case4 _ _ _ _ more ih => exact Nat.le_trans (ih h) ((goOn _).shrinks more)

def leave (brackets : List Bracket) : Reader (List Bracket) :=
  ⟨leaveFrom brackets, leaveFrom_shrinks⟩

/-- Passes a value that stands inside brackets, or opens one more, and returns the brackets in
which a value is due next. -/
def passStep (brackets : List Bracket) : Reader (List Bracket) := do
  match ← passStart with
  | none => leave brackets
  | some bracket =>
    if ← enter bracket then return bracket :: brackets
    else leave brackets

theorem wholePart_shrinks {input : Bytes} {value rest}
    (h : wholePart.run input = .ok (value, rest)) : rest.length < input.length := by
  match input, h with
  | [], h => cases h
  | b :: more, h =>
    simp only [wholePart, run_bind, run_next_cons] at h
    have := Reader.shrinks _ h
    simp only [List.length_cons]; omega

theorem numeral_shrinks {input : Bytes} {value rest}
    (h : numeral.run input = .ok (value, rest)) : rest.length < input.length := by
  rw [numeral, run_bind] at h
  split at h
  · rename_i signed
    have := minusSign.shrinks signed
    rw [run_bind] at h
    split at h
    · rename_i taken
      have := wholePart_shrinks taken
      have := Reader.shrinks _ h
      omega
    · cases h
  · cases h

theorem passStart_shrinks {input : Bytes} {value rest}
    (h : passStart.run input = .ok (value, rest)) : rest.length < input.length := by
  have passed := dropBlanks_length input
  simp only [passStart, run_bind, run_token] at h
  cases left : input.dropWhile isBlank with
  | nil => simp [left] at h
  | cons b more =>
    rw [left] at passed
    simp only [left, List.head?_cons] at h
    split at h
    · simp only [run_bind, passNumeral] at h
      cases taken : numeral.run (b :: more) with
      | error e => simp [taken] at h
      | ok n =>
        have := numeral_shrinks taken
        simp only [taken] at h
        cases h; omega
    · simp only [run_bind, run_next_cons] at h
      have := Reader.shrinks _ h
      simp only [List.length_cons] at passed; omega

theorem passStep_shrinks {brackets : List Bracket} {input : Bytes} {value rest}
    (h : (passStep brackets).run input = .ok (value, rest)) : rest.length < input.length := by
  simp only [passStep, run_bind] at h
  split at h
  · rename_i started
    have := passStart_shrinks started
    have := Reader.shrinks _ h
    omega
  · cases h

/-- Passes values until no bracket is open. -/
def passFrom (brackets : List Bracket) (input : Bytes) : Except Failure (Unit × Bytes) :=
  match _step : (passStep brackets).run input with
  | .error e => .error e
  | .ok ([], rest) => .ok ((), rest)
  | .ok (bracket :: outer, rest) => passFrom (bracket :: outer) rest
termination_by input.length
decreasing_by exact passStep_shrinks _step

theorem passFrom_shrinks {brackets : List Bracket} {input : Bytes} {value rest}
    (h : passFrom brackets input = .ok (value, rest)) : rest.length ≤ input.length := by
  fun_induction passFrom brackets input with
  | case1 => cases h
  | case2 _ _ _ step => cases h; exact (passStep _).shrinks step
  | case3 _ _ _ _ _ step ih => exact Nat.le_trans (ih h) ((passStep _).shrinks step)

def pass : Reader Unit := ⟨passFrom [], passFrom_shrinks⟩

end CredentialGate.Json
