/-! Values of TOML. A table remembers how it has been defined, since that decides how it may still
grow. An array of tables has a last element, to which a path through it leads. -/
namespace CredentialGate.Toml

/-- Where a table comes from. -/
inductive TableForm
  /-- It has a header of its own. -/
  | named
  /-- It is written between braces. -/
  | inline
  /-- It stands on the way to a header. -/
  | implied
  /-- It stands on the way to a dotted key. -/
  | dotted
deriving DecidableEq, Repr

/-- A number with a fraction or an exponent, or one that is not finite. -/
inductive Real
  /-- The number `digits · 10 ^ exponent`, without its sign. -/
  | decimal (digits : Nat) (exponent : Int)
  | infinity
  | nan
deriving DecidableEq, Repr

inductive Value
  | text (s : String)
  | integer (n : Int)
  | real (x : Real)
  | boolean (b : Bool)
  | moment (literal : String)
  | array (items : List Value)
  | tables (earlier : List (List (String × Value))) (last : List (String × Value))
  | table (form : TableForm) (entries : List (String × Value))

abbrev Entries := List (String × Value)

/-- An integer that is passed over has to fit 128 bits. -/
def fitsWord (n : Int) : Bool := -(Nat.pow 2 127 : Int) ≤ n && n < (Nat.pow 2 128 : Int)

/-- The first half of a unit beyond the greatest binary floating point number of 64 bits. -/
def firstOverflow : Nat := (Nat.pow 2 54 - 1) * Nat.pow 2 970

/-- Whether a decimal rounds to a finite number. Every number of 400 digits or more is too great,
and none of 300 digits or fewer is. -/
def Real.fits : Real → Bool
  | .decimal digits exponent =>
    if digits = 0 ∨ exponent + digits.log2 / 3 < 300 then true
    else if 400 ≤ exponent + digits.log2 / 4 then false
    else digits * Nat.pow 10 exponent.toNat < firstOverflow * Nat.pow 10 (-exponent).toNat
  | .infinity => true
  | .nan => true

mutual

def Value.fits : Value → Bool
  | .integer n => fitsWord n
  | .real x => x.fits
  | .array items => allFit items
  | .tables earlier last => allTablesFit earlier && allEntriesFit last
  | .table _ entries => allEntriesFit entries
  | _ => true

def allFit : List Value → Bool
  | [] => true
  | v :: more => v.fits && allFit more

def allEntriesFit : List (String × Value) → Bool
  | [] => true
  | (_, v) :: more => v.fits && allEntriesFit more

def allTablesFit : List (List (String × Value)) → Bool
  | [] => true
  | entries :: more => allEntriesFit entries && allTablesFit more

end

end CredentialGate.Toml
