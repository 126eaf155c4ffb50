import CredentialGate.Url.Domain
import CredentialGate.Url.Percent

/-! Hosts: addresses of four bytes or of eight words, and names. A name whose last label is a number
has to be an address. -/
namespace CredentialGate.Url

inductive Failure
  | relativeWithoutBase
  | relativeToOpaque
  | emptyHost
  | badPort
  | badName
  | badAddress4
  | badAddress6
  | badHostCharacter
deriving DecidableEq, Repr

def Failure.message : Failure → String
  | relativeWithoutBase => "relative URL without a base"
  | relativeToOpaque => "relative URL with a cannot-be-a-base base"
  | emptyHost => "empty host"
  | badPort => "invalid port number"
  | badName => "invalid international domain name"
  | badAddress4 => "invalid IPv4 address"
  | badAddress6 => "invalid IPv6 address"
  | badHostCharacter => "invalid domain character"

namespace Host

def decimalDigits (n : Nat) : List Char := (toString n).toList

/-! Addresses of four bytes -/

def numberIn (base : Nat) (digits : List Char) : Option Nat :=
  digits.foldl (fun n c => do
    let n ← n
    let d ← Text.hexValue? c
    if d < base then some (n * base + d) else none) (some 0)

/-- A number in base sixteen behind `0x`, in base eight behind `0`, or in base ten. -/
def partNumber? (part : List Char) : Option Nat :=
  match part with
  | [] => none
  | '0' :: 'x' :: rest | '0' :: 'X' :: rest => numberIn 16 rest
  | '0' :: d :: rest => numberIn 8 (d :: rest)
  | digits => numberIn 10 digits

def dropEmptyLast (parts : List (List Char)) : List (List Char) :=
  if parts.getLast? = some [] then parts.dropLast else parts

/-- Whether the last label is a number, so that the host has to be an address. -/
def endsInNumber (name : List Char) : Bool :=
  let parts := Domain.labelsFrom [] name
  let parts := if 1 < parts.length then dropEmptyLast parts else parts
  match parts.getLast? with
  | some last => (!last.isEmpty && last.all Char.isDigit) || (partNumber? last).isSome
  | none => false

/-- The address of up to four numbers, of which the last fills the bytes that are left. -/
def address4? (name : List Char) : Option Nat := do
  let parts := dropEmptyLast (Domain.labelsFrom [] name)
  if 4 < parts.length then none
  else
    let numbers ← parts.mapM partNumber?
    let last ← numbers.getLast?
    let front := numbers.dropLast
    if last < Nat.pow 256 (4 - front.length) ∧ front.all (· ≤ 255) then
      return front.zipIdx.foldl (fun sum (n, i) => sum + n * Nat.pow 256 (3 - i)) last
    else none

def writeAddress4 (n : Nat) : List Char :=
  ['.'].intercalate ([3, 2, 1, 0].map fun i => decimalDigits (n / Nat.pow 256 i % 256))

/-! Addresses of eight words -/

/-- Four numbers of a byte each, without zeros in front, as two words. -/
def tailWords? (cs : List Char) : Option (List Nat) := do
  let parts := Domain.labelsFrom [] cs
  let numbers ← parts.mapM fun part =>
    if part.isEmpty ∨ !part.all Char.isDigit ∨ (1 < part.length ∧ part.head? = some '0') then none
    else (numberIn 10 part).filter (· ≤ 255)
  match numbers with
  | [a, b, c, d] => some [a * 256 + b, c * 256 + d]
  | _ => none

def groupsFrom (group : List Char) : List Char → List (List Char)
  | [] => [group.reverse]
  | c :: rest =>
    if c = ':' then group.reverse :: groupsFrom [] rest else groupsFrom (c :: group) rest

/-- The words of groups between colons. The last group may be four numbers. -/
def words? (groups : List (List Char)) (last : Bool) : Option (List Nat) :=
  match groups with
  | [] => some []
  | [group] =>
    if last ∧ group.contains '.' then tailWords? group else (word? group).map ([·])
  | group :: more => do
    let w ← word? group
    return w :: (← words? more last)
where
  word? (group : List Char) : Option Nat :=
    if group.isEmpty ∨ 4 < group.length then none else Text.hexNumber? group

def splitAtGap : List Char → Option (List Char × List Char)
  | ':' :: ':' :: rest => some ([], rest)
  | c :: rest => (splitAtGap rest).map fun (a, b) => (c :: a, b)
  | [] => none

def sideWords? (side : List Char) (last : Bool) : Option (List Nat) :=
  if side.isEmpty then some [] else words? (groupsFrom [] side) last

/-- Eight words, of which a run of zeros may be left out between two colons. -/
def address6? (cs : List Char) : Option (List Nat) := do
  match splitAtGap cs with
  | some (front, back) =>
    let front ← sideWords? front false
    let back ← sideWords? back true
    let count := front.length + back.length
    if count < 8 then return front ++ List.replicate (8 - count) 0 ++ back else none
  | none =>
    let all ← sideWords? cs true
    if all.length = 8 then return all else none

def hexDigits (n : Nat) : List Char := Nat.toDigits 16 n

def zeroRun (ws : List Nat) : Nat := (ws.takeWhile (· == 0)).length

/-- Where the first of the longest runs of zeros starts, and its length. -/
def longestRun (ws : List Nat) : Nat × Nat :=
  (List.range ws.length).foldl (fun (best : Nat × Nat) i =>
    let run := zeroRun (ws.drop i)
    if best.2 < run then (i, run) else best) (0, 0)

/-- The longest run of at least two zeros is left out. -/
def writeAddress6 (ws : List Nat) : List Char :=
  let join (ws : List Nat) := [':'].intercalate (ws.map hexDigits)
  let (start, run) := longestRun ws
  let inner := if 2 ≤ run then join (ws.take start) ++ "::".toList ++ join (ws.drop (start + run))
    else join ws
  '[' :: inner ++ [']']

/-- The text between brackets, if the host starts with one. -/
def bracketed? (cs : List Char) : Except Failure (Option (List Char)) :=
  match cs with
  | '[' :: rest =>
    if rest.getLast? = some ']' then .ok (some rest.dropLast) else .error .badAddress6
  | _ => .ok none

def readAddress6 (inner : List Char) : Except Failure String :=
  match address6? inner with
  | some ws => .ok (String.ofList (writeAddress6 ws))
  | none => .error .badAddress6

/-- The host of an address whose scheme is special. -/
def read (cs : List Char) : Except Failure String := do
  match ← bracketed? cs with
  | some inner => readAddress6 inner
  | none =>
    let decoded := Text.ofUtf8? (decode (Text.utf8 (String.ofList cs)))
    match decoded.bind (Domain.toAscii? ·.toList) with
    | none => .error .badName
    | some [] => .error .emptyHost
    | some name =>
      if endsInNumber name then
        match address4? name with
        | some n => .ok (String.ofList (writeAddress4 n))
        | none => .error .badAddress4
      else .ok (String.ofList name)

def isBadOpaque (c : Char) : Bool :=
  c.toNat == 0 || "\t\n\r #/:<>?@[\\]^|".toList.contains c

/-- The host of an address whose scheme is not special; it is not looked into. -/
def readOpaque (cs : List Char) : Except Failure String := do
  match ← bracketed? cs with
  | some inner => readAddress6 inner
  | none => if cs.any isBadOpaque then .error .badHostCharacter else .ok (encode controlSet cs)

end Host

end CredentialGate.Url
