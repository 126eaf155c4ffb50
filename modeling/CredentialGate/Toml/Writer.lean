import CredentialGate.Toml.Document

/-! Writing documents of flat sections. A section has a header of bare words and one line for each
entry; an empty line stands between two sections. -/
namespace CredentialGate.Toml

inductive Datum
  | text (s : String)
  | natural (n : Nat)
deriving DecidableEq, Repr

namespace Datum

def value : Datum → Value
  | text s => .text s
  | natural n => .integer n

def write : Datum → List Char
  | text s => quote s
  | natural n => Nat.toDigits 10 n

end Datum

structure Section where
  header : Key
  entries : List (String × Datum)
deriving DecidableEq, Repr

namespace Section

/-- What a reader finds in the written section. -/
def statements (s : Section) : List Statement :=
  .table s.header :: s.entries.map fun (key, datum) => .assign ⟨[], key⟩ datum.value

def writeHeader (s : Section) : List Char :=
  '[' :: (".".intercalate s.header.parts).toList ++ [']', '\n']

def writeEntry (key : String) (datum : Datum) : List Char :=
  key.toList ++ [' ', '=', ' '] ++ datum.write ++ ['\n']

def write (s : Section) : List Char :=
  s.writeHeader ++ s.entries.flatMap fun (key, datum) => writeEntry key datum

end Section

def writeSections : List Section → List Char
  | [] => []
  | [s] => s.write
  | s :: more => s.write ++ '\n' :: writeSections more

end CredentialGate.Toml
