import CredentialGate.Text.Hex

/-! Unique identifiers of 128 bits. They are written in lower case with hyphens, and read with or
without hyphens, in braces or behind `urn:uuid:`. -/
namespace CredentialGate.Audit

structure Uuid where
  bits : BitVec 128
deriving DecidableEq, Repr

namespace Uuid

/-- The lowest `count` digits of a number in base sixteen, most significant first. -/
def hexDigits (count n : Nat) : List Char :=
  (List.range count).reverse.map fun i => Text.lowerDigit (n / Nat.pow 16 i % 16)

def groupSizes : List Nat := [8, 4, 4, 4, 12]

def hyphenated : List Nat → List Char → List Char
  | size :: next :: sizes, digits =>
    digits.take size ++ '-' :: hyphenated (next :: sizes) (digits.drop size)
  | _, digits => digits

/-- The identifier of version 4 that random bytes make. -/
def ofRandom (bytes : List UInt8) : Uuid :=
  let bits := bytes.foldl (fun n b => n * 256 + b.toNat) 0
  let marks := 0xF * Nat.pow 2 76 + 0xC * Nat.pow 2 60
  let unmarked := bits % Nat.pow 2 128 &&& (Nat.pow 2 128 - 1 - marks)
  ⟨BitVec.ofNat 128 (unmarked ||| (0x4 * Nat.pow 2 76 ||| 0x8 * Nat.pow 2 60))⟩

def simple (u : Uuid) : String := String.ofList (hexDigits 32 u.bits.toNat)

def display (u : Uuid) : String := String.ofList (hyphenated groupSizes (hexDigits 32 u.bits.toNat))

def ofDigits? (digits : List Char) : Option Uuid :=
  if digits.length = 32 then (Text.hexNumber? digits).map fun n => ⟨BitVec.ofNat 128 n⟩ else none

/-- The digits of a text with a hyphen behind each group but the last. -/
def dropHyphens? : List Nat → List Char → Option (List Char)
  | size :: next :: sizes, text =>
    match text.drop size with
    | '-' :: rest => (dropHyphens? (next :: sizes) rest).map (text.take size ++ ·)
    | _ => none
  | [size], text => if text.length = size then some text else none
  | [], _ => none

def ofHyphenated? (text : List Char) : Option Uuid := (dropHyphens? groupSizes text).bind ofDigits?

def urn : List Char := "urn:uuid:".toList

def read? (s : String) : Option Uuid :=
  let text := s.toList
  if text.length = 32 then ofDigits? text
  else if text.length = 38 ∧ text.head? = some '{' ∧ text.getLast? = some '}' then
    ofHyphenated? ((text.drop 1).take 36)
  else if text.length = 45 ∧ (text.take 9).map Char.toLower = urn then ofHyphenated? (text.drop 9)
  else ofHyphenated? text

end Uuid

end CredentialGate.Audit
