import CredentialGate.Url.Punycode

/-! Domain names in ASCII. Letters lose their case, variants of the full stop separate labels, and
a label with letters outside ASCII is written in punycode behind `xn--`.

This is a part of the processing of international names. Instead of the whole mapping table there
is a case map of Latin, Greek, Cyrillic and full-width letters, so ligatures and the capitals of
other scripts stay as they are. A name is not brought into normal form: a letter and the mark
behind it are not made one. The two joiners are refused everywhere, also between letters that they
may join. Code points that are not assigned pass, apart from a few ranges; only some marks are
known; and the order of letters that are written from the right is not checked. So a name beyond
those scripts may get another text, be refused, or be let through. This concerns the text of a host
and whether there is one, and no other part of an address. -/
namespace CredentialGate.Url.Domain

def lowerOther (n : Nat) : Nat :=
  if (0xC0 ≤ n ∧ n ≤ 0xDE ∧ n ≠ 0xD7) ∨ (0x391 ≤ n ∧ n ≤ 0x3AB ∧ n ≠ 0x3A2) ∨
      (0x410 ≤ n ∧ n ≤ 0x42F) then n + 32
  else if 0x400 ≤ n ∧ n ≤ 0x40F then n + 80
  else if n = 0x178 then 0xFF
  else if (0x100 ≤ n ∧ n ≤ 0x137 ∧ n ≠ 0x130) ∨ (0x14A ≤ n ∧ n ≤ 0x177) ∨
      (0x460 ≤ n ∧ n ≤ 0x481) ∨ (0x48A ≤ n ∧ n ≤ 0x4BF) ∨ (0x4D0 ≤ n ∧ n ≤ 0x52F) ∨
      (0x1E00 ≤ n ∧ n ≤ 0x1E95) ∨ (0x1EA0 ≤ n ∧ n ≤ 0x1EFF) then
    (if n % 2 = 0 then n + 1 else n)
  else if (0x139 ≤ n ∧ n ≤ 0x148) ∨ (0x179 ≤ n ∧ n ≤ 0x17E) then (if n % 2 = 1 then n + 1 else n)
  else n

/-- What a letter becomes: nothing, or one other letter. A letter that the case map does not cover
stays. -/
def mapLetter (c : Char) : List Char :=
  let n := c.toNat
  if n < 128 then [c.toLower]
  else if n = 0xAD ∨ n = 0x200B ∨ n = 0x2060 ∨ n = 0xFEFF ∨ (0xFE00 ≤ n ∧ n ≤ 0xFE0F) then []
  else if n = 0x3002 ∨ n = 0xFF0E ∨ n = 0xFF61 then ['.']
  else if 0xFF01 ≤ n ∧ n ≤ 0xFF5E then [(Char.ofNat (n - 0xFEE0)).toLower]
  else if n = 0x3000 ∨ n = 0xA0 then [' ']
  else [Char.ofNat (lowerOther n)]

def isForbidden (c : Char) : Bool :=
  let n := c.toNat
  n ≤ 0x20 || n == 0x7F || "%#/:<>?@[\\]^|".toList.contains c || (0x80 ≤ n && n ≤ 0x9F) ||
    (0x2000 ≤ n && n ≤ 0x200F) || (0x2028 ≤ n && n ≤ 0x202F) || (0x205F ≤ n && n ≤ 0x206F) ||
    (0xE000 ≤ n && n ≤ 0xF8FF) || (0xFFF0 ≤ n && n ≤ 0xFFFF)

def isMark (c : Char) : Bool :=
  let n := c.toNat
  (0x300 ≤ n && n ≤ 0x36F) || (0x483 ≤ n && n ≤ 0x489) || (0x591 ≤ n && n ≤ 0x5BD) ||
    (0x64B ≤ n && n ≤ 0x65F) || (0x20D0 ≤ n && n ≤ 0x20F0)

def labelsFrom (label : List Char) : List Char → List (List Char)
  | [] => [label.reverse]
  | c :: rest =>
    if c = '.' then label.reverse :: labelsFrom [] rest else labelsFrom (c :: label) rest

def prefixMark : List Char := "xn--".toList

def isAscii (label : List Char) : Bool := label.all Punycode.isAscii

def encodeLabel? (label : List Char) : Option (List Char) :=
  if (label.head?.map isMark).getD false then none
  else some (prefixMark ++ Punycode.encode label)

/-- A label in ASCII. What stands behind the mark of punycode has to be the text of a label that
needs it. -/
def writeLabel? (label : List Char) : Option (List Char) :=
  if !isAscii label then encodeLabel? label
  else if prefixMark.isPrefixOf label then do
    let decoded ← Punycode.decode? (label.drop 4)
    if isAscii decoded ∨ decoded.any isForbidden ∨ decoded.flatMap mapLetter ≠ decoded ∨
        encodeLabel? decoded ≠ some label then none
    else some label
  else some label

/-- The name in ASCII, unless it holds a character or a label that no name has. Neither normal forms
nor the contexts of joiners play a part. -/
def toAscii? (name : List Char) : Option (List Char) := do
  let mapped := name.flatMap mapLetter
  if mapped.any isForbidden then none
  else return ['.'].intercalate (← (labelsFrom [] mapped).mapM writeLabel?)

end CredentialGate.Url.Domain
