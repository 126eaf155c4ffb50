import CredentialGate.Decimal.Binary64

/-! The shortest decimal text that reads back as a given number. Of all grids of powers of ten the
coarsest with a point that rounds to the number is taken, and on it the point nearest to the
number. -/
namespace CredentialGate.Decimal

/-- A decimal `digits · 10 ^ exponent`. -/
structure Digits where
  digits : Nat
  exponent : Int
deriving DecidableEq, Repr

/-- The reals that round to a number, in quarters of its unit in the last place: from `low` to
`high` around `centre`, ends included when the mantissa is even. Below a power of two the numbers
stand twice as close. -/
structure Interval where
  low : Nat
  centre : Nat
  high : Nat
  closed : Bool
  quarter : Int

def Binary64.interval (x : Binary64) : Interval where
  low := if x.mantissa = Nat.pow 2 52 ∧ Binary64.leastExponent < x.exponent
    then 4 * x.mantissa - 1 else 4 * x.mantissa - 2
  centre := 4 * x.mantissa
  high := 4 * x.mantissa + 2
  closed := x.mantissa % 2 == 0
  quarter := x.exponent - 2

/-- The weight of one step of the grid `10 ^ t`, against `Interval.weight`. -/
def gridWeight (quarter t : Int) : Nat := Nat.pow 10 t.toNat * Nat.pow 2 (-quarter).toNat

/-- The weight of one quarter, against `gridWeight`. -/
def quarterWeight (quarter t : Int) : Nat := Nat.pow 10 (-t).toNat * Nat.pow 2 quarter.toNat

/-- The point of the grid `10 ^ t` that rounds to the number and is nearest to it, an even one
of two that are equally near. -/
def Interval.gridPoint? (i : Interval) (t : Int) : Option Nat :=
  let step := gridWeight i.quarter t
  let quarter := quarterWeight i.quarter t
  let inside (p : Nat) : Bool :=
    if i.closed then i.low * quarter ≤ p * step && p * step ≤ i.high * quarter
    else i.low * quarter < p * step && p * step < i.high * quarter
  let below := i.centre * quarter / step
  let above := below + 1
  match inside below && below != 0, inside above with
  | true, true =>
    let down := i.centre * quarter - below * step
    let up := above * step - i.centre * quarter
    if down < up ∨ (down = up ∧ below % 2 = 0) then some below else some above
  | true, false => some below
  | false, true => some above
  | false, false => none

/-- An exponent whose power of ten is above the number. -/
def Binary64.coarsest (x : Binary64) : Int :=
  ((x.mantissa.log2 : Int) + x.exponent) * 30103 / 100000 + 2

/-- Twenty grids are enough: seventeen digits always read back. -/
def Binary64.shortest (x : Binary64) : Digits :=
  let i := x.interval
  let grid (k : Nat) : Option Digits :=
    let t := x.coarsest - k
    (i.gridPoint? t).map (⟨·, t⟩)
  if x.isZero then ⟨0, 0⟩ else ((List.range 20).findSome? grid).getD ⟨0, 0⟩

/-- How decimals are written: positional from `10 ^ least` up to but not including `10 ^ limit`. -/
structure Style where
  least : Int
  limit : Int

def zeros (n : Nat) : List Char := List.replicate n '0'

/-- The decimal with its point, at least one digit on each side. -/
def Digits.positional (d : Digits) : List Char :=
  let text := (toString d.digits).toList
  if 0 ≤ d.exponent then text ++ zeros d.exponent.toNat ++ ".0".toList
  else
    let places := (-d.exponent).toNat
    if places < text.length then
      text.take (text.length - places) ++ '.' :: text.drop (text.length - places)
    else "0.".toList ++ zeros (places - text.length) ++ text

/-- One digit before the point, and an exponent that always has its sign. -/
def Digits.scientific (d : Digits) (exponent : Int) : List Char :=
  let mark := if 0 ≤ exponent then "e+" else "e-"
  let tail := mark.toList ++ (toString exponent.natAbs).toList
  match (toString d.digits).toList with
  | [] => tail
  | [first] => first :: tail
  | first :: more => first :: '.' :: more ++ tail

def Binary64.write (style : Style) (x : Binary64) : List Char :=
  let d := x.shortest
  let exponent := ((toString d.digits).length : Int) - 1 + d.exponent
  let text :=
    if style.least ≤ exponent ∧ exponent < style.limit then d.positional
    else d.scientific exponent
  if x.negative then '-' :: text else text

end CredentialGate.Decimal
