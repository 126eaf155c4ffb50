import CredentialGate.Files.Tree

/-! Databases of users. One that has no name is private to whoever opened it; any other is kept in
a file, where an empty file becomes an empty database. -/
namespace CredentialGate.Store

open Files

/-- An open database: the table itself, or the place of its file. -/
inductive Database
  | unnamed (table : Table)
  | stored (place : Place)
deriving DecidableEq, Repr

namespace Database

def cannotMakeDirectory : Failure := .other "Failed to create database directory"
def cannotOpen : Failure := .other "Failed to open SQLite database"
def cannotMakeTables : Failure := .other "Failed to create tables"
def noDatabase : Failure := .database "file is not a database"
def noTable : Failure := .database "no such table: users"

def unnamedPath (p : FilePath) : Bool := p.text.isEmpty || p.text == ":memory:"

/-- Opens the database at a path. The directories and the file are made where they are missing,
and stay when a later step fails. -/
def openAt (p : FilePath) (t : Tree) : Except Failure Database × Tree :=
  if unnamedPath p then (.ok (.unnamed .empty), t)
  else
    match t.makeParents p with
    | (false, t) => (.error cannotMakeDirectory, t)
    | (true, t) =>
      match t.openFile? p with
      | none => (.error cannotOpen, t)
      | some (place, f, t) =>
        match f.content with
        | .users _ => (.ok (.stored place), t)
        | .bytes [] =>
          (.ok (.stored place), t.set place (.file { f with content := .users .empty }))
        | .bytes (_ :: _) => (.error cannotMakeTables, t)

/-- The table of an open database, unless its file has been overwritten. -/
def table (d : Database) (t : Tree) : Except Failure Table :=
  match d with
  | .unnamed table => .ok table
  | .stored place =>
    match t.node? place with
    | some (.file ⟨_, .users table, _⟩) => .ok table
    | some (.file ⟨_, .bytes [], _⟩) => .error noTable
    | _ => .error noDatabase

def setTable (d : Database) (table : Table) (t : Tree) : Database × Tree :=
  match d with
  | .unnamed _ => (.unnamed table, t)
  | .stored place =>
    match t.node? place with
    | some (.file f) => (d, t.set place (.file { f with content := .users table }))
    | _ => (d, t)

/-- Runs a change of the table. One that fails has no effect. -/
def update (change : Table → Except Failure Table) (d : Database) (t : Tree) :
    Except Failure Unit × Database × Tree :=
  match (d.table t).bind change with
  | .ok table => (.ok (), d.setTable table t)
  | .error e => (.error e, d, t)

def upsert (user : User) (token : String) := update (·.upsert user token)

def revoke (email : String) := update (·.revoke email)

def lookup (d : Database) (t : Tree) : Lookup := fun token => (d.table t).map (·.find? token)

end Database

end CredentialGate.Store
