import CredentialGate.Toml.Value

/-! How the tables of a document grow. A table is defined once. A path goes through tables that
are missing, which it makes, and through the last element of an array of tables. -/
namespace CredentialGate.Toml

/-- The parts of a dotted key, of which there is at least one. -/
structure Key where
  path : List String
  last : String
deriving DecidableEq, Repr

namespace Key

def parts (key : Key) : List String := key.path ++ [key.last]

end Key

namespace Entries

def replace (key : String) (value : Value) (entries : Entries) : Entries :=
  entries.map fun e => if e.1 = key then (key, value) else e

/-- A new entry; a key is given once. -/
def insertNew? (key : String) (value : Value) (entries : Entries) : Option Entries :=
  match entries.lookup key with
  | none => some (entries ++ [(key, value)])
  | some _ => none

/-- Changes the table that a path leads to, of which `change` is told the form. A table between
braces is closed, and a dotted key does not go through a table that has a header. -/
def along (dotted : Bool) (change : TableForm → Entries → Option Entries) :
    List String → TableForm → Entries → Option Entries
  | [], form, entries => change form entries
  | key :: path, _, entries =>
    match entries.lookup key with
    | none => do
      let form := if dotted then .dotted else .implied
      let inner ← along dotted change path form []
      return entries ++ [(key, .table form inner)]
    | some (.table form inner) =>
      if form = .inline ∨ (dotted ∧ form = .named) then none
      else do
        let inner ← along dotted change path form inner
        return replace key (.table form inner) entries
    | some (.tables earlier last) => do
      let last ← along dotted change path .named last
      return replace key (.tables earlier last) entries
    | some _ => none

/-- Gives a value to a dotted key. The table that holds it has been made by dotted keys alone. -/
def assign? (key : Key) (value : Value) (entries : Entries) : Option Entries :=
  along true (fun form inner =>
    if !key.path.isEmpty ∧ form ≠ .dotted then none else insertNew? key.last value inner)
    key.path .named entries

/-- Opens a table under a header. It may have been implied before. -/
def openTable? (key : Key) (entries : Entries) : Option Entries :=
  along false (fun _ inner =>
    match inner.lookup key.last with
    | none => some (inner ++ [(key.last, .table .named [])])
    | some (.table .implied former) => some (replace key.last (.table .named former) inner)
    | some _ => none)
    key.path .named entries

def openElement? (key : Key) (entries : Entries) : Option Entries :=
  along false (fun _ inner =>
    match inner.lookup key.last with
    | none => some (inner ++ [(key.last, .tables [] [])])
    | some (.tables earlier last) =>
      some (replace key.last (.tables (earlier ++ [last]) []) inner)
    | some _ => none)
    key.path .named entries

end Entries

def inlineTable? (assignments : List (Key × Value)) : Option Value := do
  let entries ←
    assignments.foldlM (fun entries (key, value) => Entries.assign? key value entries) []
  return .table .inline entries

end CredentialGate.Toml
