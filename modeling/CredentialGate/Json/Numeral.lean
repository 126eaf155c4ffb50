import CredentialGate.Decimal.Shortest
import CredentialGate.Json.Reader

/-! Numbers. A numeral is the text of one, split into its parts; its value is an integer when it
has neither fraction nor exponent and fits 64 bits, and a binary floating point number otherwise. -/
namespace CredentialGate.Json

open Decimal Reader

inductive Number
  | integer (n : Int)
  | binary (x : Binary64)
deriving DecidableEq, Repr

def minusMark : UInt8 := 0x2D
def plusMark : UInt8 := 0x2B
def pointMark : UInt8 := 0x2E
def zeroDigit : UInt8 := 0x30

def isDigit (b : UInt8) : Bool := 0x30 ≤ b && b ≤ 0x39
def isExponentMark (b : UInt8) : Bool := b == 0x65 || b == 0x45

/-- The digits of a numeral. There is always a digit before the point. -/
structure Numeral where
  negative : Bool
  whole : Bytes
  fraction : Bytes
  exponent? : Option (Bool × Bytes)
deriving DecidableEq, Repr

def digitValue (b : UInt8) : Nat := b.toNat - 0x30

/-- Appends digits to a number while it stays below a limit, and returns those that are left. -/
def absorb (limit : Nat) : Nat → Bytes → Nat × Bytes
  | n, [] => (n, [])
  | n, digit :: more =>
    if n * 10 + digitValue digit < limit then absorb limit (n * 10 + digitValue digit) more
    else (n, digit :: more)

namespace Numeral

def isPlain (n : Numeral) : Bool := n.fraction.isEmpty && n.exponent?.isNone

/-- The digits that fit a significand of 64 bits, and the power of ten that it is to be
multiplied by before the exponent counts. Further digits are dropped. -/
def significand (n : Numeral) : Nat × Int :=
  let (whole, dropped) := absorb (Nat.pow 2 64) 0 n.whole
  let (all, unread) := absorb (Nat.pow 2 64) whole n.fraction
  (all, (dropped.length : Int) - (n.fraction.length - unread.length : Nat))

/-- The exponent, when it is below 2 ^ 31. -/
def exponentNumber? (digits : Bytes) : Option Nat :=
  match absorb (Nat.pow 2 31) 0 digits with
  | (n, []) => some n
  | _ => none

def binary? (n : Numeral) : Option Binary64 :=
  let (digits, shift) := n.significand
  match n.exponent? with
  | none => Binary64.ofDecimal? n.negative digits shift
  | some (down, exponent) =>
    match exponentNumber? exponent with
    | some e => Binary64.ofDecimal? n.negative digits (if down then shift - e else shift + e)
    | none => if down || digits == 0 then some (.zero n.negative) else none

/-- The number that a numeral stands for; none when it is beyond every finite one. -/
def number? (n : Numeral) : Option Number :=
  match n.isPlain, absorb (Nat.pow 2 64) 0 n.whole with
  | true, (whole, []) =>
    if !n.negative then some (.integer whole)
    else if 0 < whole ∧ whole ≤ Nat.pow 2 63 then some (.integer (-whole))
    else n.binary?.map .binary
  | _, _ => n.binary?.map .binary

/-- The digits of the exponent behind the one at which it is known to be too great. -/
def surplus (n : Numeral) : Nat :=
  match n.exponent? with
  | some (_, digits) => (absorb (Nat.pow 2 31) 0 digits).2.length - 1
  | none => 0

end Numeral

def wholePart : Reader Bytes := do
  match ← next with
  | none => fail .endInValue
  | some b =>
    if b = zeroDigit then
      match ← peek with
      | none => return [b]
      | some c => if isDigit c then failNext .invalidNumber else return [b]
    else if isDigit b then return b :: (← takeWhile isDigit)
    else fail .invalidNumber

def fractionPart : Reader Bytes := do
  if (← peek) ≠ some pointMark then return []
  else
    let _ ← next
    let digits ← takeWhile isDigit
    if digits.isEmpty then
      match ← peek with
      | none => failNext .endInValue
      | some _ => failNext .invalidNumber
    else return digits

def exponentSign : Reader Bool := do
  match ← peek with
  | none => return false
  | some b =>
    if b = minusMark then
      let _ ← next
      return true
    else if b = plusMark then
      let _ ← next
      return false
    else return false

def exponentPart : Reader (Option (Bool × Bytes)) := do
  match ← peek with
  | none => return none
  | some mark =>
    if isExponentMark mark then
      let _ ← next
      let down ← exponentSign
      match ← next with
      | none => fail .endInValue
      | some b =>
        if isDigit b then return some (down, b :: (← takeWhile isDigit))
        else fail .invalidNumber
    else return none

def minusSign : Reader Bool := do
  if (← peek) = some minusMark then
    let _ ← next
    return true
  else return false

def numeral : Reader Numeral := do
  let negative ← minusSign
  let whole ← wholePart
  let fraction ← fractionPart
  let exponent? ← exponentPart
  return ⟨negative, whole, fraction, exponent?⟩

def number : Reader Number := do
  let n ← numeral
  match n.number? with
  | some value => return value
  | none => failBack n.surplus .numberOutOfRange

def digitsOf (n : Nat) : Bytes :=
  if n < 10 then [zeroDigit + UInt8.ofNat n]
  else digitsOf (n / 10) ++ [zeroDigit + UInt8.ofNat (n % 10)]

/-- Positional from 1e-5 up to 1e16, and with an exponent outside. -/
def decimalStyle : Style := ⟨-5, 16⟩

def Number.write : Number → Bytes
  | .integer (.ofNat n) => digitsOf n
  | .integer (.negSucc n) => minusMark :: digitsOf (n + 1)
  | .binary x => (x.write decimalStyle).map Char.toUInt8

end CredentialGate.Json
