import CredentialGate.Files.Tree

/-! What has to be done to turn one tree into another: directories are made first, from the root
on, then files are written, and names that are gone are removed last. -/
namespace CredentialGate.Files

inductive Change
  | makeDirectory (place : Place)
  /-- Puts a whole file. -/
  | write (place : Place) (file : File)
  | append (place : Place) (bytes : Bytes)
  | remove (place : Place)
deriving DecidableEq, Repr

namespace Change

/-- The bytes by which a file has grown, if it has only grown. -/
def growth? (old new : File) : Option Bytes :=
  match old.content, new.content with
  | .bytes before, .bytes after =>
    if old.serial = new.serial ∧ old.mode = new.mode ∧ before.isPrefixOf after then
      some (after.drop before.length)
    else none
  | _, _ => none

/-- How a node comes about where another stood, or none. -/
def ofNode (place : Place) : Option Node → Node → List Change
  | some .directory, .directory => []
  | _, .directory => [makeDirectory place]
  | some (.file old), .file new =>
    if old = new then []
    else match growth? old new with
      | some bytes => [append place bytes]
      | none => [write place new]
  | _, .file new => [write place new]

def isDirectory : Change → Bool
  | makeDirectory _ => true
  | _ => false

def between (old new : Tree) : List Change :=
  let made := new.nodes.flatMap fun (place, node) => ofNode place (old.nodes.lookup place) node
  let (directories, files) := made.partition isDirectory
  let gone := old.nodes.filter fun (place, _) => (new.nodes.lookup place).isNone
  let byDepth (a b : Change) : Bool :=
    match a, b with
    | makeDirectory a, makeDirectory b => a.length ≤ b.length
    | _, _ => true
  directories.mergeSort byDepth ++ files ++ gone.map fun (place, _) => remove place

end Change

end CredentialGate.Files
