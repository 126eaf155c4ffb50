import CredentialGate.Files.FilePath
import CredentialGate.Store.Table

/-! A tree of directories and regular files, with a working directory somewhere in it. A file
keeps its serial number as long as it has a name, so one that has been opened for appending is
told from a later file of the same name. -/
namespace CredentialGate.Files

abbrev Bytes := List UInt8

inductive Content
  | bytes (b : Bytes)
  | users (t : Store.Table)
deriving DecidableEq, Repr

structure File where
  serial : Nat
  content : Content
  mode : Nat
deriving DecidableEq, Repr

inductive Node
  | directory
  | file (f : File)
deriving DecidableEq, Repr

/-- The names that lead from the root of the tree to a place. -/
abbrev Place := List String

/-- Every serial number below `fresh` may be in use. Relative paths start `here`. -/
structure Tree where
  nodes : List (Place × Node)
  fresh : Nat
  here : Place
deriving Repr

def fileMode : Nat := 0o644
def ownerOnly : Nat := 0o600

namespace Tree

def empty : Tree := ⟨[], 0, []⟩

def node? (t : Tree) (place : Place) : Option Node :=
  if place.isEmpty then some .directory else t.nodes.lookup place

def set (t : Tree) (place : Place) (node : Node) : Tree :=
  { t with nodes := (place, node) :: t.nodes.filter (·.1 ≠ place) }

def erase (t : Tree) (place : Place) : Tree :=
  { t with nodes := t.nodes.filter (·.1 ≠ place) }

/-- The place that parts lead to from a directory, by way of directories. The last part need not
exist. Nothing leads above the root. -/
def walk (t : Tree) (place : Place) : List String → Option Place
  | [] => some place
  | part :: parts =>
    match t.node? place with
    | some .directory =>
      if part = ".." then t.walk place.dropLast parts
      else if FilePath.isNameable part then t.walk (place ++ [part]) parts
      else none
    | _ => none

def startOf (t : Tree) (p : FilePath) : Place := if p.isAbsolute then [] else t.here

def locate (t : Tree) (p : FilePath) : Option Place :=
  if p.isUsable then t.walk (t.startOf p) p.parts else none

/-- What stands at a path; a file cannot be reached by a path that asks for a directory. -/
def find? (t : Tree) (p : FilePath) : Option Node :=
  match (t.locate p).bind t.node? with
  | some .directory => some .directory
  | some (.file f) => if p.endsInDirectory then none else some (.file f)
  | none => none

def contains (t : Tree) (p : FilePath) : Bool := (t.find? p).isSome

def file? (t : Tree) (p : FilePath) : Option File :=
  match t.find? p with
  | some (.file f) => some f
  | _ => none

def read? (t : Tree) (p : FilePath) : Option Content := (t.file? p).map (·.content)

/-- The bytes of a file; a database has none that are text. -/
def readBytes? (t : Tree) (p : FilePath) : Option Bytes :=
  match t.read? p with
  | some (.bytes b) => some b
  | _ => none

def readText? (t : Tree) (p : FilePath) : Option String := (t.readBytes? p).bind Text.ofUtf8?

/-- The place of the file at a path and the file itself, which is new and empty if there is
none. Fails where a directory stands or is asked for. -/
def openFile? (t : Tree) (p : FilePath) : Option (Place × File × Tree) :=
  match t.locate p with
  | none => none
  | some place =>
    match t.node? place with
    | some .directory => none
    | some (.file f) => if p.endsInDirectory then none else some (place, f, t)
    | none =>
      if p.endsInDirectory then none
      else
        let f : File := ⟨t.fresh, .bytes [], fileMode⟩
        some (place, f, { t.set place (.file f) with fresh := t.fresh + 1 })

/-- Puts the whole content of a file, which keeps its mode. -/
def write? (t : Tree) (p : FilePath) (content : Content) : Option Tree := do
  let (place, f, t) ← t.openFile? p
  return t.set place (.file { f with content := content })

def setMode? (t : Tree) (p : FilePath) (mode : Nat) : Option Tree := do
  let place ← t.locate p
  match ← t.node? place with
  | .directory => none
  | .file f => return t.set place (.file { f with mode := mode })

def remove? (t : Tree) (p : FilePath) : Option Tree := do
  let place ← t.locate p
  let _ ← t.file? p
  return t.erase place

/-- The directories along parts, made where they are missing. What has been made before a failure
stays. -/
def makeAlong (t : Tree) (place : Place) : List String → Bool × Tree
  | [] => (true, t)
  | part :: parts =>
    if part = ".." then t.makeAlong place.dropLast parts
    else if FilePath.isNameable part then
      match t.node? (place ++ [part]) with
      | some .directory => t.makeAlong (place ++ [part]) parts
      | some (.file _) => (false, t)
      | none => (t.set (place ++ [part]) .directory).makeAlong (place ++ [part]) parts
    else (false, t)

def makeDirectories (t : Tree) (p : FilePath) : Bool × Tree :=
  if p.isUsable then t.makeAlong (t.startOf p) p.parts else (false, t)

def workingIn (here : Place) : Tree := { (empty.makeAlong [] here).2 with here := here }

/-- Makes the directories that the path stands in. A path of one part stands in none. -/
def makeParents (t : Tree) (p : FilePath) : Bool × Tree :=
  if p.parts.length ≤ 1 then (true, t) else t.makeDirectories p.parent

/-- Appends to the file of a serial number, wherever its name. A file that has been removed takes
the bytes along. -/
def appendTo (t : Tree) (serial : Nat) (b : Bytes) : Tree :=
  let grown (f : File) : File :=
    match f.content with
    | .bytes old => { f with content := .bytes (old ++ b) }
    | .users _ => f
  { t with nodes := t.nodes.map fun (place, node) =>
      match node with
      | .file f => (place, .file (if f.serial = serial then grown f else f))
      | .directory => (place, .directory) }

end Tree

end CredentialGate.Files
