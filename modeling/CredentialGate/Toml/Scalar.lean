import CredentialGate.Text.Hex
import CredentialGate.Toml.Reader
import CredentialGate.Toml.Value

/-! Values of one word: booleans, numbers, dates and times. The word is the longest run of
characters that occur in one; a date and a time may have a blank between them. -/
namespace CredentialGate.Toml

open Reader

def isWordChar (c : Char) : Bool :=
  c.isAlphanum || c == '+' || c == '-' || c == '_' || c == '.' || c == ':'

/-- The digits without the underscores that may stand between two of them. -/
def digits? (isDigit : Char → Bool) : List Char → Option (List Char)
  | [] => none
  | [c] => if isDigit c then some [c] else none
  | c :: '_' :: rest => if isDigit c then (digits? isDigit rest).map (c :: ·) else none
  | c :: rest => if isDigit c then (digits? isDigit rest).map (c :: ·) else none

def number (base : Nat) (digits : List Char) : Nat :=
  digits.foldl (fun n c => n * base + (Text.hexValue? c).getD 0) 0

/-- Digits in base ten. A zero leads no other digit. -/
def decimalDigits? (word : List Char) : Option (List Char) := do
  let digits ← digits? Char.isDigit word
  if digits.head? = some '0' ∧ digits.length ≠ 1 then none else some digits

def isBelow (base : Nat) (c : Char) : Bool :=
  match Text.hexValue? c with
  | some n => n < base
  | none => false

def natural? (base : Nat) (word : List Char) : Option Nat :=
  (digits? (isBelow base) word).map (number base)

/-- Whether the word has a minus, and the word behind the sign that it may have. -/
def takeSign : List Char → Bool × List Char
  | '-' :: word => (true, word)
  | '+' :: word => (false, word)
  | word => (false, word)

/-- An integer. Only one in base ten has a sign. -/
def integer? (word : List Char) : Option Int :=
  match word with
  | '0' :: 'x' :: rest => (natural? 16 rest).map Int.ofNat
  | '0' :: 'o' :: rest => (natural? 8 rest).map Int.ofNat
  | '0' :: 'b' :: rest => (natural? 2 rest).map Int.ofNat
  | _ =>
    let (negative, word) := takeSign word
    (decimalDigits? word).map fun digits =>
      if negative then -(number 10 digits : Int) else (number 10 digits : Int)

def isExponentMark (c : Char) : Bool := c == 'e' || c == 'E'

def exponent? : List Char → Option Int
  | [] => some 0
  | _ :: word =>
    let (negative, word) := takeSign word
    (digits? Char.isDigit word).map fun digits =>
      if negative then -(number 10 digits : Int) else (number 10 digits : Int)

def fraction? : List Char → Option (List Char)
  | [] => some []
  | _ :: word => digits? Char.isDigit word

def real? (word : List Char) : Option Real := do
  let unsigned := (takeSign word).2
  if unsigned = ['i', 'n', 'f'] then some .infinity
  else if unsigned = ['n', 'a', 'n'] then some .nan
  else
    let mantissa := unsigned.takeWhile (!isExponentMark ·)
    let whole ← decimalDigits? (mantissa.takeWhile (· ≠ '.'))
    let fraction ← fraction? (mantissa.dropWhile (· ≠ '.'))
    let exponent ← exponent? (unsigned.dropWhile (!isExponentMark ·))
    if mantissa.length = unsigned.length ∧ fraction.isEmpty then none
    else some (.decimal (number 10 (whole ++ fraction)) (exponent - fraction.length))

/-- A number of exactly two digits within bounds. -/
def twoDigits? (least greatest : Nat) : List Char → Option Nat
  | [a, b] =>
    if a.isDigit ∧ b.isDigit ∧ least ≤ number 10 [a, b] ∧ number 10 [a, b] ≤ greatest then
      some (number 10 [a, b])
    else none
  | _ => none

def monthLength (year month : Nat) : Nat :=
  if month = 2 then
    if year % 4 = 0 ∧ (year % 100 ≠ 0 ∨ year % 400 = 0) then 29 else 28
  else if month = 4 ∨ month = 6 ∨ month = 9 ∨ month = 11 then 30
  else 31

def isDate : List Char → Bool
  | [y₁, y₂, y₃, y₄, '-', m₁, m₂, '-', d₁, d₂] =>
    [y₁, y₂, y₃, y₄].all Char.isDigit &&
      match twoDigits? 1 12 [m₁, m₂] with
      | some month =>
        let year := number 10 [y₁, y₂, y₃, y₄]
        (twoDigits? 1 (monthLength year month) [d₁, d₂]).isSome
      | none => false
  | _ => false

def isClock (hour minute : List Char) : Bool :=
  (twoDigits? 0 23 hour).isSome && (twoDigits? 0 59 minute).isSome

/-- Seconds with a fraction; a second may be a leap second. -/
def areSeconds : List Char → Bool
  | [] => true
  | [':', a, b] => (twoDigits? 0 60 [a, b]).isSome
  | ':' :: a :: b :: '.' :: fraction =>
    (twoDigits? 0 60 [a, b]).isSome && !fraction.isEmpty && fraction.all Char.isDigit
  | _ => false

def isTime : List Char → Bool
  | a :: b :: ':' :: c :: d :: rest => isClock [a, b] [c, d] && areSeconds rest
  | _ => false

def isOffset : List Char → Bool
  | [c] => c == 'Z' || c == 'z'
  | [sign, a, b, ':', c, d] => (sign == '+' || sign == '-') && isClock [a, b] [c, d]
  | _ => false

def startsOffset (c : Char) : Bool := c == 'Z' || c == 'z' || c == '+' || c == '-'

def isTimeWithOffset (word : List Char) : Bool :=
  let offset := word.dropWhile (!startsOffset ·)
  isTime (word.takeWhile (!startsOffset ·)) && (offset.isEmpty || isOffset offset)

def isMoment (word : List Char) : Bool :=
  isDate word || isTime word ||
    match word.drop 10 with
    | separator :: time =>
      isDate (word.take 10) && (separator == 'T' || separator == 't' || separator == ' ') &&
        isTimeWithOffset time
    | [] => false

def scalar? (word : List Char) : Option Value :=
  if word = ['t', 'r', 'u', 'e'] then some (.boolean true)
  else if word = ['f', 'a', 'l', 's', 'e'] then some (.boolean false)
  else if isMoment word then some (.moment (String.ofList word))
  else ((integer? word).map .integer).or ((real? word).map .real)

/-- A date at the end of a word goes on behind one blank, if a digit follows it. -/
def continuesDate (word rest : List Char) : Bool :=
  match rest with
  | ' ' :: c :: _ => isDate word && c.isDigit
  | _ => false

/-- A word, and behind a date and a blank the time. -/
def word : Reader (List Char) where
  run input :=
    let first := input.takeWhile isWordChar
    let rest := input.dropWhile isWordChar
    if continuesDate first rest then
      let time := rest.drop 1
      some (first ++ ' ' :: time.takeWhile isWordChar, time.dropWhile isWordChar)
    else some (first, rest)
  shrinks {input _ _} h := by
    have shorter := (List.dropWhile_suffix (l := input) isWordChar).length_le
    dsimp only at h
    split at h <;> cases h
    · have := (List.dropWhile_suffix
        (l := (input.dropWhile isWordChar).drop 1) isWordChar).length_le
      rw [List.length_drop] at this
      omega
    · exact shorter

def scalar : Reader Value := do
  ofOption (scalar? (← word))

end CredentialGate.Toml
