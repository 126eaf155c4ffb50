/-! Finite binary floating point numbers of 64 bits and their exact rounding. Every operation takes
the exact rational result and rounds it to the nearest number, a tie to the even mantissa; a
result beyond the greatest number has none. There are no infinities and no NaN. -/
namespace CredentialGate.Decimal

/-- The number `± mantissa · 2 ^ exponent`. The mantissa has 53 bits, or fewer at the least
exponent, which is -1074. -/
structure Binary64 where
  negative : Bool
  mantissa : Nat
  exponent : Int
deriving DecidableEq, Repr

/-- The quotient rounded to the nearest integer, a tie to the even one. -/
def roundDiv (num den : Nat) : Nat :=
  let quotient := num / den
  let remainder := num % den
  if 2 * remainder < den ∨ (2 * remainder = den ∧ quotient % 2 = 0) then quotient else quotient + 1

namespace Binary64

def leastExponent : Int := -1074
def greatestExponent : Int := 971

def zero (negative : Bool) : Binary64 := ⟨negative, 0, leastExponent⟩

def isZero (x : Binary64) : Bool := x.mantissa == 0

/-- `num / den` rounded to a multiple of `2 ^ exponent`, in such multiples. -/
def inUnits (num den : Nat) (exponent : Int) : Nat :=
  roundDiv (num * Nat.pow 2 (-exponent).toNat) (den * Nat.pow 2 exponent.toNat)

/-- The exponent at which `num / den` has a mantissa of 53 bits, or the least one. -/
def unitOf (num den : Nat) : Int :=
  let guess : Int := (num.log2 : Int) - (den.log2 : Int) - 53
  let fits := num * Nat.pow 2 (-guess).toNat < Nat.pow 2 53 * (den * Nat.pow 2 guess.toNat)
  max leastExponent (if fits then guess else guess + 1)

def ofRatio? (negative : Bool) (num den : Nat) : Option Binary64 :=
  if num = 0 then some (zero negative)
  else
    let exponent := unitOf num den
    let mantissa := inUnits num den exponent
    let rounded : Binary64 :=
      if mantissa = Nat.pow 2 53 then ⟨negative, Nat.pow 2 52, exponent + 1⟩
      else ⟨negative, mantissa, exponent⟩
    if rounded.exponent ≤ greatestExponent then some rounded else none

def ofNat? (n : Nat) : Option Binary64 := ofRatio? false n 1

def num (x : Binary64) : Nat := x.mantissa * Nat.pow 2 x.exponent.toNat
def den (x : Binary64) : Nat := Nat.pow 2 (-x.exponent).toNat

def mul? (x y : Binary64) : Option Binary64 :=
  ofRatio? (x.negative != y.negative) (x.num * y.num) (x.den * y.den)

def div? (x y : Binary64) : Option Binary64 :=
  if y.isZero then none
  else ofRatio? (x.negative != y.negative) (x.num * y.den) (x.den * y.num)

def neg (x : Binary64) : Binary64 := { x with negative := !x.negative }

def tenPow? (k : Nat) : Option Binary64 := ofNat? (Nat.pow 10 k)

def greatestTenPow : Nat := 308

/-- `x · 10 ^ k`, rounded once. A power beyond the greatest is beyond every number but zero. -/
def scaleUp? (x : Binary64) (k : Nat) : Option Binary64 :=
  if k ≤ greatestTenPow then (tenPow? k).bind x.mul?
  else if x.isZero then some x else none

/-- `x / 10 ^ k`, rounded after each division by a power of ten that is a number. -/
def scaleDown? (x : Binary64) (k : Nat) : Option Binary64 :=
  if k ≤ greatestTenPow then (tenPow? k).bind x.div?
  else if x.isZero then some x
  else do
    let divisor ← tenPow? greatestTenPow
    let x ← x.div? divisor
    scaleDown? x (k - greatestTenPow)
termination_by k
decreasing_by simp_all [greatestTenPow]; omega

/-- The number for `significand · 10 ^ exponent`: the significand is rounded, then scaled. -/
def ofDecimal? (negative : Bool) (significand : Nat) (exponent : Int) : Option Binary64 := do
  let x ← ofNat? significand
  let x ← if 0 ≤ exponent then x.scaleUp? exponent.toNat else x.scaleDown? (-exponent).toNat
  return if negative then x.neg else x

end Binary64

end CredentialGate.Decimal
