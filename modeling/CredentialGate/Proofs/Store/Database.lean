import CredentialGate.Proofs.Files.Tree
import CredentialGate.Proofs.Store.Registry
import CredentialGate.Store.Database

/-! A database answers as the map that its table stands for, through any number of requests and
after its file has been opened again. -/
namespace CredentialGate.Store

open Files

namespace Database

/-- A database that has been opened, and the files it may live among. -/
abbrev Opened := Database × Tree

def resolve (s : Opened) (token : String) : Except Failure (Option User) := s.1.lookup s.2 token

/-- Serves a request. The file of the database is opened again at its path. -/
def serve (p : FilePath) (request : Request) (s : Opened) : Answer × Opened :=
  match request with
  | .upsert user token =>
    let (result, s) := upsert user token s.1 s.2
    (.done result, s)
  | .revoke email =>
    let (result, s) := revoke email s.1 s.2
    (.done result, s)
  | .lookup token => (.found (resolve s token), s)
  | .reopen =>
    match openAt p s.2 with
    | (.ok d, t) => (.done (.ok ()), d, t)
    | (.error e, t) => (.done (.error e), s.1, t)

def serveAll (p : FilePath) : List Request → Opened → List Answer × Opened
  | [], s => ([], s)
  | request :: requests, s =>
    let (answer, s) := serve p request s
    let (answers, s) := serveAll p requests s
    (answer :: answers, s)

/-- The database of a path keeps a table: its own, or that of the file at the path, which opens
again without a change. -/
inductive Keeps (p : FilePath) : Opened → Table → Prop
  | unnamed {table : Table} {t : Tree} : unnamedPath p = true → Keeps p (.unnamed table, t) table
  | stored {place : Place} {serial mode : Nat} {table : Table} {t : Tree} :
      unnamedPath p = false → t.locate p = some place → t.makeParents p = (true, t) →
      p.endsInDirectory = false → t.node? place = some (.file ⟨serial, .users table, mode⟩) →
      Keeps p (.stored place, t) table

section

variable {p : FilePath} {s : Opened} {table : Table}

theorem Keeps.table_eq (keeps : Keeps p s table) : s.1.table s.2 = .ok table := by
  cases keeps with
  | unnamed => rfl
  | stored _ _ _ _ standing => simp only [Database.table, standing]

theorem Keeps.resolve_eq (keeps : Keeps p s table) (token : String) :
    resolve s token = .ok (table.find? token) := by
  simp only [resolve, lookup, keeps.table_eq, Except.map]

theorem Keeps.setTable (keeps : Keeps p s table) (next : Table) :
    Keeps p (s.1.setTable next s.2) next := by
  cases keeps with
  | unnamed nameless => exact .unnamed nameless
  | @stored place serial mode _ _ named located parents plain standing =>
    obtain ⟨located, parents, stands⟩ :=
      Tree.set_stands located parents standing ⟨serial, .users next, mode⟩
    simp only [Database.setTable, standing]
    exact .stored named located parents plain stands

theorem Keeps.update (keeps : Keeps p s table) (change : Table → Except Failure Table) :
    ∃ s', update change s.1 s.2 = ((table.apply change).1, s') ∧
      Keeps p s' (table.apply change).2 := by
  simp only [Database.update, keeps.table_eq, Except.bind, Table.apply]
  cases change table with
  | ok next => exact ⟨_, rfl, keeps.setTable next⟩
  | error e => exact ⟨s, rfl, keeps⟩

theorem Keeps.openAt (keeps : Keeps p s table) (named : unnamedPath p = false) :
    openAt p s.2 = (.ok s.1, s.2) := by
  cases keeps with
  | unnamed nameless => simp [named] at nameless
  | stored _ located parents plain standing =>
    simp [Database.openAt, named, parents, Tree.openFile?_again located standing plain]

/-- Whatever is opened keeps a table. -/
theorem openAt_keeps {t opened : Tree} {d : Database}
    (opening : Database.openAt p t = (.ok d, opened)) : ∃ table, Keeps p (d, opened) table := by
  unfold Database.openAt at opening
  split at opening
  · rename_i nameless
    cases opening
    exact ⟨.empty, .unnamed nameless⟩
  · rename_i named
    have named : unnamedPath p = false := by simpa using named
    split at opening
    · cases opening
    · rename_i made parents
      split at opening
      · cases opening
      · rename_i place f found standing
        obtain ⟨within, located, stands, plain⟩ := Tree.openFile?_stands standing
        have again := Tree.makeParents_again parents within
        split at opening
        · rename_i table content
          cases opening
          obtain ⟨serial, content', mode⟩ := f
          cases content
          exact ⟨table, .stored named located again plain stands⟩
        · cases opening
          obtain ⟨located, parents, stands⟩ :=
            Tree.set_stands located again stands { f with content := .users .empty }
          exact ⟨.empty, .stored named located parents plain stands⟩
        · cases opening

theorem lookup_stored {place : Place} {t : Tree} {token : String} {user : User} :
    (Database.stored place).lookup t token = .ok (some user) ↔ ∃ f table,
      t.node? place = some (.file f) ∧ f.content = .users table ∧
        table.find? token = some user := by
  simp only [lookup, Database.table]
  constructor
  · intro found
    split at found
    · rename_i serial table mode standing
      exact ⟨_, table, standing, rfl, Except.ok.inj found⟩
    · cases found
    · cases found
  · rintro ⟨⟨serial, _, mode⟩, table, standing, rfl, found⟩
    rw [standing]
    exact congrArg Except.ok found

/-- Opening a database gives no token a user, and takes none away. -/
theorem openAt_lookup {t opened : Tree} {d : Database}
    (opening : Database.openAt p t = (.ok d, opened)) (token : String) (user : User) :
    d.lookup t token = .ok (some user) ↔ d.lookup opened token = .ok (some user) := by
  unfold Database.openAt at opening
  split at opening
  · cases opening
    rfl
  · split at opening
    · cases opening
    · rename_i made parents
      have same (place : Place) (f : File) :
          made.node? place = some (.file f) ↔ t.node? place = some (.file f) := by
        have files := t.makeParents_file p place f
        rwa [parents] at files
      split at opening
      · cases opening
      · rename_i place f found standing
        have before := Tree.openFile?_before standing
        obtain ⟨-, located, stands, -⟩ := Tree.openFile?_stands standing
        split at opening
        · rename_i table content
          cases opening
          obtain before | ⟨-, empty⟩ := before
          · simp only [lookup_stored, stands, (same place f).1 before]
          · simp [content] at empty
        · rename_i content
          cases opening
          have named : place ≠ [] :=
            Tree.ne_root (by simp [stands] : found.node? place ≠ some .directory)
          -- An empty file gives nothing while it is empty, and no more as an empty database.
          simp only [lookup_stored, ← same, Tree.node?_set found named, if_true]
          constructor
          · rintro ⟨g, table, held, users, -⟩
            obtain before | ⟨before, -⟩ := before
            · rw [before] at held
              cases held
              simp [content] at users
            · simp [before] at held
          · rintro ⟨g, table, held, users, resolved⟩
            cases held
            cases users
            cases resolved
        · cases opening

theorem Keeps.serve (keeps : Keeps p s table) (request : Request)
    (reopenable : request = .reopen → unnamedPath p = false) :
    ∃ s', serve p request s = ((table.serve request).1, s') ∧
      Keeps p s' (table.serve request).2 := by
  cases request with
  | upsert user token =>
    obtain ⟨s', updated, kept⟩ := keeps.update (·.upsert user token)
    exact ⟨s', by simp only [Database.serve, upsert, updated, Table.serve], kept⟩
  | revoke email =>
    obtain ⟨s', updated, kept⟩ := keeps.update (·.revoke email)
    exact ⟨s', by simp only [Database.serve, revoke, updated, Table.serve], kept⟩
  | lookup token =>
    exact ⟨s, by simp only [Database.serve, keeps.resolve_eq, Table.serve, Table.lookup], keeps⟩
  | reopen =>
    exact ⟨s, by simp only [Database.serve, keeps.openAt (reopenable rfl), Table.serve], keeps⟩

/-- Requests to a database are requests to the table that it keeps. -/
theorem Keeps.serveAll (keeps : Keeps p s table) (requests : List Request)
    (reopenable : .reopen ∈ requests → unnamedPath p = false) :
    ∃ s', serveAll p requests s = ((table.serveAll requests).1, s') ∧
      Keeps p s' (table.serveAll requests).2 := by
  induction requests generalizing s table with
  | nil => exact ⟨s, rfl, keeps⟩
  | cons request requests ih =>
    obtain ⟨s, served, keeps⟩ := keeps.serve request fun same => reopenable (by simp [same])
    obtain ⟨s', servedAll, kept⟩ := ih keeps fun member => reopenable (by simp [member])
    exact ⟨s', by simp only [Database.serveAll, served, servedAll, Table.serveAll], kept⟩

/-- A token that a request has taken from its user resolves only after an upsert has set it. -/
theorem Keeps.set_again (keeps : Keeps p s table) {before later : List Request} {request : Request}
    {user : User} {token : String}
    (reopenable : .reopen ∈ before ++ request :: later → unnamedPath p = false)
    (resolves : resolve (Database.serveAll p before s).2 token = .ok (some user))
    (retires : request.Retires user token)
    (succeeds : (Database.serve p request (Database.serveAll p before s).2).1 = .done (.ok ()))
    (again : resolve (Database.serveAll p (before ++ request :: later) s).2 token ≠ .ok none) :
    ∃ between given rest, later = between ++ .upsert given token :: rest ∧
      (Database.serve p (.upsert given token)
        (Database.serveAll p (before ++ request :: between) s).2).1 = .done (.ok ()) := by
  obtain ⟨first, servedFirst, kept⟩ := keeps.serveAll before (by grind)
  obtain ⟨_, served, -⟩ := kept.serve request (by grind)
  obtain ⟨_, servedAll, last⟩ := keeps.serveAll (before ++ request :: later) reopenable
  rw [servedFirst, kept.resolve_eq, Except.ok.injEq] at resolves
  rw [servedFirst, served] at succeeds
  rw [servedAll, last.resolve_eq, ne_eq, Except.ok.injEq, Table.serveAll_append] at again
  have gone := Table.serve_retired resolves retires succeeds
  obtain ⟨between, given, rest, rfl, set⟩ := Table.serveAll_unheld gone again
  obtain ⟨_, servedBetween, held⟩ := keeps.serveAll (before ++ request :: between) (by grind)
  obtain ⟨_, servedSet, -⟩ := held.serve (.upsert given token) (by simp)
  refine ⟨between, given, rest, rfl, ?_⟩
  rw [servedBetween, servedSet, Table.serveAll_append]
  exact set

end

/-- Whatever is asked of a database that was empty when it was opened, it answers as the map from
e-mails to users does, and its table stands for that map. In every map that is reached a token has
one holder, and in every table an e-mail one row. A token that was rotated or revoked resolves again
only after an upsert has set it. -/
theorem answers_as_registry {p : FilePath} {start : Tree} {s : Opened}
    (opening : openAt p start = (.ok s.1, s.2)) (fresh : s.1.table s.2 = .ok .empty)
    (requests : List Request) (reopenable : .reopen ∈ requests → unnamedPath p = false) :
    (∃ table, (serveAll p requests s).2.1.table (serveAll p requests s).2.2 = .ok table ∧
      (table.rows.map (·.user.email)).Nodup ∧
      ∀ answers m, AnswersAll .empty requests answers m ↔
        answers = (serveAll p requests s).1 ∧ m = table.registry) ∧
    (∀ answers m, AnswersAll .empty requests answers m → ∀ email other token,
      m.Holds email token → m.Holds other token → email = other) ∧
    ∀ before request later user token, requests = before ++ request :: later →
      resolve (serveAll p before s).2 token = .ok (some user) → request.Retires user token →
      (serve p request (serveAll p before s).2).1 = .done (.ok ()) →
      resolve (serveAll p requests s).2 token ≠ .ok none →
      ∃ between given rest, later = between ++ .upsert given token :: rest ∧
        (serve p (.upsert given token) (serveAll p (before ++ request :: between) s).2).1 =
          .done (.ok ()) := by
  obtain ⟨table, keeps⟩ := openAt_keeps opening
  cases Except.ok.inj (keeps.table_eq.symm.trans fresh)
  obtain ⟨last, served, kept⟩ := keeps.serveAll requests reopenable
  refine ⟨⟨(Table.empty.serveAll requests).2, ?_, Table.emails _, ?_⟩, ?_, ?_⟩
  · rw [served]
    exact kept.table_eq
  · rw [served]
    exact Table.empty.answersAll_iff requests
  · intro answers m answered email other token
    obtain ⟨-, rfl⟩ := (Table.empty.answersAll_iff requests answers m).1 answered
    exact Table.holder_email_unique _
  · rintro before request later user token rfl resolves retires succeeds again
    exact keeps.set_again reopenable resolves retires succeeds again

/-- A file that is made on opening and opened again after an upsert answers as the map does. -/
theorem new_file_answers :
    let s : Opened :=
      (.stored ["users"], ⟨[(["users"], .file ⟨0, .users .empty, fileMode⟩)], 1, []⟩)
    let requests : List Request :=
      [.upsert ⟨"Alice", "alice@example.org", "lab"⟩ "abc", .reopen, .revoke "alice@example.org",
        .lookup "abc"]
    openAt ⟨"users"⟩ .empty = (.ok s.1, s.2) ∧ s.1.table s.2 = .ok .empty ∧
      unnamedPath ⟨"users"⟩ = false ∧
      ∃ m, AnswersAll .empty requests (serveAll ⟨"users"⟩ requests s).1 m := by
  intro s requests
  have named : unnamedPath ⟨"users"⟩ = false := by decide
  have relative : FilePath.isAbsolute ⟨"users"⟩ = false := by decide +kernel
  have parents : Tree.empty.makeParents ⟨"users"⟩ = (true, .empty) := if_pos (by decide)
  have located : Tree.empty.locate ⟨"users"⟩ = some ["users"] := by
    simp only [Tree.locate, Tree.startOf, relative]
    decide
  have opening : openAt ⟨"users"⟩ .empty = (.ok s.1, s.2) := by
    simp only [openAt, named, parents, Tree.openFile?, located]
    rfl
  refine ⟨opening, rfl, named, ?_⟩
  obtain ⟨⟨table, -, -, answers⟩, -⟩ := answers_as_registry opening rfl requests fun _ => named
  exact ⟨table.registry, (answers _ _).2 ⟨rfl, rfl⟩⟩

end Database

end CredentialGate.Store
