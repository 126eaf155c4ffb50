import CredentialGate.Json.Reader
import CredentialGate.Text.Hex
import CredentialGate.Text.Utf8

/-! Text between quotation marks. Quotation marks, backslashes and bytes below a blank are written
as escapes and every other byte as it is, so a text of UTF-8 has exactly one written form. -/
namespace CredentialGate.Json

open Reader

def escapeMark : UInt8 := 0x5C
def unicodeMark : UInt8 := 0x75

def shortEscape? (b : UInt8) : Option UInt8 :=
  if b = quoteMark ∨ b = escapeMark then some b
  else if b = 0x08 then some 0x62
  else if b = 0x0C then some 0x66
  else if b = 0x0A then some 0x6E
  else if b = 0x0D then some 0x72
  else if b = 0x09 then some 0x74
  else none

def escapeByte (b : UInt8) : Bytes :=
  match shortEscape? b with
  | some letter => [escapeMark, letter]
  | none =>
    if b < 0x20 then
      [escapeMark, unicodeMark, zeroDigit, zeroDigit] ++ (Text.lowerHex b).map Char.toUInt8
    else [b]
where zeroDigit : UInt8 := 0x30

def quote (s : String) : Bytes := quoteMark :: (Text.utf8 s).flatMap escapeByte ++ [quoteMark]

def unescape? (letter : UInt8) : Option UInt8 :=
  if letter = quoteMark ∨ letter = escapeMark ∨ letter = 0x2F then some letter
  else if letter = 0x62 then some 0x08
  else if letter = 0x66 then some 0x0C
  else if letter = 0x6E then some 0x0A
  else if letter = 0x72 then some 0x0D
  else if letter = 0x74 then some 0x09
  else none

/-- Four digits in base sixteen. With fewer than four bytes left the text has ended. -/
def fourDigits : Reader Nat where
  run
    | a :: b :: c :: d :: rest =>
      match Text.hexNumber? ([a, b, c, d].map fun x => Char.ofNat x.toNat) with
      | some n => .ok (n, rest)
      | none => .error ⟨.invalidEscape, rest.length⟩
    | _ => .error ⟨.endInString, 0⟩
  shrinks {input value rest} h := by
    match input, h with
    | a :: b :: c :: d :: more, h =>
      dsimp only at h
      split at h
      · cases h; simp only [List.length_cons]; omega
      · cases h
    | [], h | [_], h | [_, _], h | [_, _, _], h => cases h

def inside : Reader UInt8 := do
  match ← next with
  | none => fail .endInString
  | some b => return b

def isLeading (n : Nat) : Bool := 0xD800 ≤ n && n ≤ 0xDBFF
def isTrailing (n : Nat) : Bool := 0xDC00 ≤ n && n ≤ 0xDFFF

def paired (leading trailing : Nat) : Nat :=
  (leading - 0xD800) * 0x400 + (trailing - 0xDC00) + 0x10000

/-- The second half of a surrogate pair: a backslash, the letter and four digits. -/
def trailingHalf : Reader Nat := do
  if (← inside) ≠ escapeMark then fail .unfinishedSurrogate
  else if (← inside) ≠ unicodeMark then fail .unfinishedSurrogate
  else
    let n ← fourDigits
    if isTrailing n then return n else fail .loneSurrogate

def escape : Reader Bytes := do
  let letter ← inside
  if letter = unicodeMark then
    let n ← fourDigits
    if isTrailing n then fail .loneSurrogate
    else if isLeading n then
      let n := paired n (← trailingHalf)
      return Text.utf8 (String.singleton (Char.ofNat n))
    else return Text.utf8 (String.singleton (Char.ofNat n))
  else
    match unescape? letter with
    | some b => return [b]
    | none => fail .invalidEscape

/-- Any escape, of which only the form is looked at. -/
def passEscape : Reader Unit := do
  let letter ← inside
  if letter = unicodeMark then
    let _ ← fourDigits
  else if (unescape? letter).isNone then fail .invalidEscape

/-- Bytes that have been read, put onto those before them, which stand in reverse. -/
def behind (bytes done : Bytes) : Bytes := bytes.reverse ++ done

/-- The bytes of a text behind its opening quotation mark; `done` holds those in front of the
input, in reverse. -/
def unquoteFrom (done : Bytes) (input : Bytes) : Except Failure (Bytes × Bytes) :=
  match input with
  | [] => .error ⟨.endInString, 0⟩
  | b :: rest =>
    if b = quoteMark then .ok (done.reverse, rest)
    else if b = escapeMark then
      match _h : escape.run rest with
      | .error e => .error e
      | .ok (bytes, rest) => unquoteFrom (behind bytes done) rest
    else if b < 0x20 then .error ⟨.controlCharacter, rest.length⟩
    else unquoteFrom (b :: done) rest
termination_by input.length
decreasing_by
  · have := escape.shrinks _h; simp only [List.length_cons]; omega
  · simp only [List.length_cons]; omega

theorem unquoteFrom_shrinks {done input value rest}
    (h : unquoteFrom done input = .ok (value, rest)) : rest.length ≤ input.length := by
  fun_induction unquoteFrom done input with
  | case1 => cases h
  | case2 => cases h; simp
  | case3 => cases h
  | case4 _ _ _ _ escaped _ ih =>
    have := ih h; have := escape.shrinks escaped; simp only [List.length_cons]; omega
  | case5 => cases h
  | case6 _ _ _ _ _ _ ih => have := ih h; simp only [List.length_cons]; omega

def unquote : Reader Bytes := ⟨unquoteFrom [], unquoteFrom_shrinks⟩

/-- A text behind its opening quotation mark. It has to be UTF-8. -/
def text : Reader String := do
  match Text.ofUtf8? (← unquote) with
  | some s => return s
  | none => fail .invalidCharacter

/-- Passes a text behind its opening quotation mark; bytes need not be UTF-8 and surrogates need
not come in pairs. -/
def passTextFrom (input : Bytes) : Except Failure (Unit × Bytes) :=
  match input with
  | [] => .error ⟨.endInString, 0⟩
  | b :: rest =>
    if b = quoteMark then .ok ((), rest)
    else if b = escapeMark then
      match _h : passEscape.run rest with
      | .error e => .error e
      | .ok (_, rest) => passTextFrom rest
    else if b < 0x20 then .error ⟨.controlCharacter, rest.length + 1⟩
    else passTextFrom rest
termination_by input.length
decreasing_by
  · have := passEscape.shrinks _h; simp only [List.length_cons]; omega
  · simp only [List.length_cons]; omega

theorem passTextFrom_shrinks {input value rest}
    (h : passTextFrom input = .ok (value, rest)) : rest.length ≤ input.length := by
  fun_induction passTextFrom input with
  | case1 => cases h
  | case2 => cases h; simp
  | case3 => cases h
  | case4 _ _ _ escaped _ ih =>
    have := ih h; have := passEscape.shrinks escaped; simp only [List.length_cons]; omega
  | case5 => cases h
  | case6 _ _ _ _ _ ih => have := ih h; simp only [List.length_cons]; omega

def passText : Reader Unit := ⟨passTextFrom, passTextFrom_shrinks⟩

end CredentialGate.Json
