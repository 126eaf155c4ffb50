import CredentialGate.Text.Utf8

/-! Paths to files, as text. A path is walked part by part: from the root of the system if it starts
with a slash, and from the working directory otherwise. A part `.` stays and a part `..` goes up. -/
namespace CredentialGate.Files

structure FilePath where
  text : String
deriving DecidableEq, Repr

namespace FilePath

/-- The parts of a text between slashes. `part` holds the characters before the text, reversed. -/
def splitFrom (part : List Char) : List Char → List String
  | [] => [String.ofList part.reverse]
  | c :: rest =>
    if c = '/' then String.ofList part.reverse :: splitFrom [] rest
    else splitFrom (c :: part) rest

def segments (p : FilePath) : List String := splitFrom [] p.text.toList

/-- The parts that lead somewhere else. -/
def parts (p : FilePath) : List String := p.segments.filter fun s => s ≠ "" ∧ s ≠ "."

/-- Whether the text ends in a way that only a directory can. -/
def endsInDirectory (p : FilePath) : Bool :=
  match p.segments.getLast? with
  | some s => s == "" || s == "." || s == ".."
  | none => true

def isAbsolute (p : FilePath) : Bool := p.text.startsWith "/"

/-- The greatest number of bytes in a name, and in a path. -/
def greatestName : Nat := 255
def greatestPath : Nat := 4095

def isNameable (s : String) : Bool := (Text.utf8 s).length ≤ greatestName

/-- Whether the system takes the path at all. -/
def isUsable (p : FilePath) : Bool :=
  !p.text.isEmpty && !p.text.toList.contains (Char.ofNat 0) &&
    (Text.utf8 p.text).length ≤ greatestPath

/-- A part that leads nowhere else. -/
def isIdle (s : String) : Bool := s = "" ∨ s = "."

/-- The parts in front of the last one that leads somewhere else, without idle ones at the end. -/
def above (p : FilePath) : List String :=
  (((p.segments.reverse.dropWhile isIdle).drop 1).dropWhile isIdle).reverse

/-- The path to the directory that the path stands in, spelled as there; empty for a path of one
part, and the root for one that starts there. -/
def parent (p : FilePath) : FilePath :=
  ⟨if p.above.isEmpty && p.isAbsolute then "/" else "/".intercalate p.above⟩

/-- The path to a name below this one: one slash stands between. -/
def join (p : FilePath) (name : String) : FilePath :=
  if p.text.isEmpty ∨ p.text.endsWith "/" then ⟨p.text ++ name⟩ else ⟨p.text ++ "/" ++ name⟩

end FilePath

end CredentialGate.Files
