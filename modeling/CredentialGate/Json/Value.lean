import CredentialGate.Json.Numeral
import CredentialGate.Json.Quoted

/-! JSON values and their compact text. An object is a list of members. In a canonical object the
members stand in ascending order of their keys and no key occurs twice. -/
namespace CredentialGate.Json

inductive Value
  | null
  | bool (b : Bool)
  | number (n : Number)
  | text (s : String)
  | list (items : List Value)
  | object (members : List (String × Value))

abbrev Members := List (String × Value)

/-- Sets a member of a canonical object. A former value of the key is lost. -/
def setMember (key : String) (value : Value) : Members → Members
  | [] => [(key, value)]
  | (k, v) :: more =>
    if key < k then (key, value) :: (k, v) :: more
    else if key = k then (key, value) :: more
    else (k, v) :: setMember key value more

/-- The canonical members of a list in which the last of several equal keys counts. -/
def canonicalMembers (members : Members) : Members :=
  members.foldl (fun done m => setMember m.1 m.2 done) []

namespace Value

def optional (s? : Option String) : Value :=
  match s? with
  | some s => .text s
  | none => .null

def asText? : Value → Option String
  | .text s => some s
  | _ => none

def member? (key : String) : Value → Option Value
  | .object members => members.lookup key
  | _ => none

def trueWord : Bytes := 0x74 :: trueRest
def falseWord : Bytes := 0x66 :: falseRest
def nullWord : Bytes := 0x6E :: nullRest

mutual

/-- The compact text of a value, without blanks. -/
def write : Value → Bytes
  | .null => nullWord
  | .bool b => if b then trueWord else falseWord
  | .number n => n.write
  | .text s => quote s
  | .list items => openList :: writeItems true items
  | .object members => openObject :: writeMembers true members

def writeItems (first : Bool) : List Value → Bytes
  | [] => [closeList]
  | v :: more => (if first then [] else [comma]) ++ v.write ++ writeItems false more

def writeMembers (first : Bool) : List (String × Value) → Bytes
  | [] => [closeObject]
  | (key, v) :: more =>
    (if first then [] else [comma]) ++ quote key ++ colonMark :: v.write ++ writeMembers false more

end

/-! The text of a value over several lines. Each item and member stands on a line of its own, two
blanks further in than what it belongs to; an empty list or object stays on its line. -/

def newLine (depth : Nat) : Bytes := 0x0A :: List.replicate (2 * depth) 0x20

mutual

/-- The text of a value whose first line stands at a depth. -/
def writeOver (depth : Nat) : Value → Bytes
  | .list [] => [openList, closeList]
  | .list (v :: more) =>
    openList :: newLine (depth + 1) ++ v.writeOver (depth + 1) ++ writeItemsOver depth more
  | .object [] => [openObject, closeObject]
  | .object ((key, v) :: more) =>
    openObject :: newLine (depth + 1) ++ quote key ++ [colonMark, 0x20] ++
      v.writeOver (depth + 1) ++ writeMembersOver depth more
  | v => v.write

def writeItemsOver (depth : Nat) : List Value → Bytes
  | [] => newLine depth ++ [closeList]
  | v :: more =>
    comma :: newLine (depth + 1) ++ v.writeOver (depth + 1) ++ writeItemsOver depth more

def writeMembersOver (depth : Nat) : List (String × Value) → Bytes
  | [] => newLine depth ++ [closeObject]
  | (key, v) :: more =>
    comma :: newLine (depth + 1) ++ quote key ++ [colonMark, 0x20] ++ v.writeOver (depth + 1) ++
      writeMembersOver depth more

end

def displayOver (v : Value) : String := Text.ofUtf8Lossy (v.writeOver 0)

end Value

end CredentialGate.Json
