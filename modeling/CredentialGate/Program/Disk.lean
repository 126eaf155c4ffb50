import CredentialGate.Files.Change
import CredentialGate.Store.Archive

/-! The files of the system as a tree, and changes of the tree carried out on them. A database is a
file that holds the archive of a table. -/
namespace CredentialGate.Program

open Files

def placeText (place : Place) : String := "/" ++ "/".intercalate place

/-- What stands at a place of the system. -/
def nodeAt? (place : Place) (serial : Nat) : IO (Option Node) := do
  let path := System.mkFilePath [placeText place]
  if ← path.isDir then return some .directory
  else if ← path.pathExists then
    let bytes := (← IO.FS.readBinFile path).data.toList
    let content := match Store.Table.ofArchive? bytes with
      | some table => Content.users table
      | none => .bytes bytes
    return some (.file ⟨serial, content, fileMode⟩)
  else return none

/-- The tree with what stands at a place and on the way to it. -/
def loadPlace (t : Tree) (place : Place) : IO Tree := do
  let mut t := t
  for n in List.range (place.length + 1) do
    let part := place.take n
    if !part.isEmpty && (t.nodes.lookup part).isNone then
      if let some node ← nodeAt? part t.fresh then
        t := { t.set part node with fresh := t.fresh + 1 }
  return t

/-- The place that a path names if every part of it is a name. -/
def placeOf (t : Tree) (p : FilePath) : Place :=
  p.parts.foldl (fun place part => if part = ".." then place.dropLast else place ++ [part])
    (t.startOf p)

def loadPaths (t : Tree) (paths : List FilePath) : IO Tree :=
  paths.foldlM (fun t p => loadPlace t (placeOf t p)) t

/-- The tree of the working directory alone. -/
def workingTree : IO Tree := do
  let here := FilePath.parts ⟨(← IO.currentDir).toString⟩
  return .workingIn here

def bytesOf : Content → List UInt8
  | .bytes b => b
  | .users table => table.archive

def privateRight : IO.FileRight := ⟨⟨true, true, false⟩, {}, {}⟩

def carryOut : Change → IO Unit
  | .makeDirectory place => IO.FS.createDirAll (placeText place)
  | .write place file => do
    IO.FS.writeBinFile (placeText place) ⟨(bytesOf file.content).toArray⟩
    if file.mode = ownerOnly then IO.setAccessRights (placeText place) privateRight
  | .append place bytes => do
    let handle ← IO.FS.Handle.mk (placeText place) .append
    handle.write ⟨bytes.toArray⟩
  | .remove place => IO.FS.removeFile (placeText place)

def carryOutAll (old new : Tree) : IO Unit := (Change.between old new).forM carryOut

end CredentialGate.Program
