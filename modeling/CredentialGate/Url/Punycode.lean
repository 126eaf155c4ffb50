/-! Punycode: letters outside ASCII are written behind the others as the steps from one letter and
place to the next, in digits of base 36 whose thresholds adapt. -/
namespace CredentialGate.Url.Punycode

def digitOf (n : Nat) : Char :=
  if n < 26 then Char.ofNat ('a'.toNat + n) else Char.ofNat ('0'.toNat + (n - 26))

def digitValue? (c : Char) : Option Nat :=
  if 'a' ≤ c ∧ c ≤ 'z' then some (c.toNat - 'a'.toNat)
  else if 'A' ≤ c ∧ c ≤ 'Z' then some (c.toNat - 'A'.toNat)
  else if '0' ≤ c ∧ c ≤ '9' then some (c.toNat - '0'.toNat + 26)
  else none

/-- The threshold of the digit at `k`; it lies between 1 and 26. -/
def threshold (k bias : Nat) : Nat := max 1 (min 26 (k - bias))

/-- Divides a step down until it is small, and counts the divisions. -/
def settle (delta divisions : Nat) : Nat × Nat :=
  if 455 < delta then settle (delta / 35) (divisions + 1) else (delta, divisions)
termination_by delta
decreasing_by omega

/-- The bias for the step behind a step `delta`, when `count` letters have been placed. -/
def adapt (delta count : Nat) (first : Bool) : Nat :=
  let scaled := if first then delta / 700 else delta / 2
  let (delta, divisions) := settle (scaled + scaled / count) 0
  36 * divisions + 36 * delta / (delta + 38)

def digits (bias k q : Nat) : List Char :=
  let t := threshold k bias
  if q < t then [digitOf q]
  else digitOf (t + (q - t) % (36 - t)) :: digits bias (k + 36) ((q - t) / (36 - t))
termination_by q
decreasing_by
  have h : (q - threshold k bias) / (36 - threshold k bias) ≤ q - threshold k bias :=
    Nat.div_le_self _ _
  have : 1 ≤ threshold k bias := Nat.le_max_left _ _
  omega

structure Progress where
  written : List Char
  delta : Nat
  bias : Nat
  count : Nat

/-- One letter of the label, while the letters `m` are being placed. -/
def place (basic m : Nat) (p : Progress) (c : Char) : Progress :=
  if c.toNat < m then { p with delta := p.delta + 1 }
  else if c.toNat = m then
    ⟨p.written ++ digits p.bias 36 p.delta, 0,
      adapt p.delta (p.count + 1) (p.count == basic), p.count + 1⟩
  else p

/-- Places the letters of each value in turn; `n` is the value that is reached. -/
def placeAll (label : List Char) (basic : Nat) : List Nat → Nat → Progress → Progress
  | [], _, p => p
  | m :: more, n, p =>
    let p := { p with delta := p.delta + (m - n) * (p.count + 1) }
    let p := label.foldl (place basic m) p
    placeAll label basic more (m + 1) { p with delta := p.delta + 1 }

/-- Puts a number into an ascending list that does not hold it yet. -/
def insert (n : Nat) : List Nat → List Nat
  | [] => [n]
  | m :: more => if n < m then n :: m :: more else if n = m then m :: more else m :: insert n more

def isAscii (c : Char) : Bool := c.toNat < 128

def encode (label : List Char) : List Char :=
  let plain := label.filter isAscii
  let others := ((label.filter (!isAscii ·)).map Char.toNat).foldl (fun ns n => insert n ns) []
  let front := if plain.isEmpty then [] else plain ++ ['-']
  (placeAll label plain.length others 128 ⟨front, 0, 72, plain.length⟩).written

/-- A step and the rest behind its digits. -/
def readStep (bias : Nat) : Nat → Nat → Nat → List Char → Option (Nat × List Char)
  | _, _, _, [] => none
  | k, weight, step, c :: rest => do
    let d ← digitValue? c
    let t := threshold k bias
    let step := step + d * weight
    if d < t then some (step, rest) else readStep bias (k + 36) (weight * (36 - t)) step rest

def insertAt (place : Nat) (c : Char) (cs : List Char) : List Char :=
  cs.take place ++ c :: cs.drop place

/-- Reads steps to the end. Every step takes a digit, so their number bounds the steps. -/
def readAll : Nat → List Char → Nat → Nat → Nat → List Char → Option (List Char)
  | 0, _, _, _, _, done => some done
  | fuel + 1, text, n, i, bias, done =>
    if text.isEmpty then some done
    else do
      let (step, rest) ← readStep bias 36 1 0 text
      let i' := i + step
      let count := done.length + 1
      let n := n + i' / count
      let place := i' % count
      if n < 0xD800 ∨ (0xDFFF < n ∧ n < 0x110000) then
        readAll fuel rest n (place + 1) (adapt step count (i == 0))
          (insertAt place (Char.ofNat n) done)
      else none

def decode? (text : List Char) : Option (List Char) :=
  let behind := (text.reverse.takeWhile (· ≠ '-')).reverse
  let front := (text.take (text.length - behind.length)).dropLast
  if front.all isAscii then readAll (text.length + 1) behind 128 0 72 front else none

end CredentialGate.Url.Punycode
