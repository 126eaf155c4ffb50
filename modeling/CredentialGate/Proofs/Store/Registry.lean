import CredentialGate.Proofs.Store.Table
import Mathlib.Logic.Function.Basic

/-! The map that a table stands for, from e-mails to what is kept of their users, and the answers
that the map gives by itself. -/
namespace CredentialGate.Store

/-- What is kept of the user of an e-mail. -/
structure Entry where
  name : String
  authority : String
  token? : Option String

abbrev Registry := String → Option Entry

def Registry.empty : Registry := fun _ => none

def Registry.Holds (m : Registry) (email token : String) : Prop :=
  ∃ entry, m email = some entry ∧ entry.token? = some token

inductive Request
  | upsert (user : User) (token : String)
  | revoke (email : String)
  | lookup (token : String)
  | reopen

inductive Answer
  | done (result : Except Failure Unit)
  | found (result : Except Failure (Option User))

/-- The answer of a map to a request, and the map behind it. -/
inductive Answers (m : Registry) : Request → Answer → Registry → Prop
  /-- A user of another e-mail holds the token. -/
  | taken {user : User} {token email : String} : email ≠ user.email → m.Holds email token →
      Answers m (.upsert user token) (.done (.error Table.tokenTaken)) m
  | stored {user : User} {token : String} : (∀ email, m.Holds email token → email = user.email) →
      Answers m (.upsert user token) (.done (.ok ()))
        (Function.update m user.email (some ⟨user.name, user.authority, some token⟩))
  | cleared {email : String} {entry : Entry} : m email = some entry →
      Answers m (.revoke email) (.done (.ok ()))
        (Function.update m email (some { entry with token? := none }))
  | unknown {email : String} : m email = none →
      Answers m (.revoke email) (.done (.error (.userNotFound email))) m
  | found {email token : String} {entry : Entry} : m email = some entry →
      entry.token? = some token →
      Answers m (.lookup token) (.found (.ok (some ⟨entry.name, email, entry.authority⟩))) m
  | missed {token : String} : (∀ email, ¬ m.Holds email token) →
      Answers m (.lookup token) (.found (.ok none)) m
  | reopened : Answers m .reopen (.done (.ok ())) m

/-- The answers of a map to requests in their order. -/
inductive AnswersAll : Registry → List Request → List Answer → Registry → Prop
  | nil {m : Registry} : AnswersAll m [] [] m
  | cons {m next last : Registry} {request : Request} {answer : Answer} {requests : List Request}
      {answers : List Answer} : Answers m request answer next →
      AnswersAll next requests answers last →
      AnswersAll m (request :: requests) (answer :: answers) last

def Entry.row (entry : Entry) (email : String) : Row :=
  ⟨⟨entry.name, email, entry.authority⟩, entry.token?⟩

def Row.entry (r : Row) : Entry := ⟨r.user.name, r.user.authority, r.token?⟩

theorem Entry.row_eq_iff {entry : Entry} {email : String} {r : Row} :
    entry.row email = r ↔ r.user.email = email ∧ entry = r.entry := by
  constructor
  · rintro rfl
    exact ⟨rfl, rfl⟩
  · rintro ⟨rfl, rfl⟩
    rfl

namespace Table

def registry (t : Table) : Registry := fun email =>
  (t.rows.find? (·.user.email = email)).map Row.entry

/-- A change, which has no effect if it fails. -/
def apply (t : Table) (change : Table → Except Failure Table) : Except Failure Unit × Table :=
  match change t with
  | .ok u => (.ok (), u)
  | .error e => (.error e, t)

/-- A request to a table. Opening its file again changes nothing. -/
def serve (t : Table) : Request → Answer × Table
  | .upsert user token =>
    let (result, t) := t.apply (·.upsert user token)
    (.done result, t)
  | .revoke email =>
    let (result, t) := t.apply (·.revoke email)
    (.done result, t)
  | .lookup token => (.found (t.lookup token), t)
  | .reopen => (.done (.ok ()), t)

theorem registry_eq_some_iff (t : Table) (email : String) (entry : Entry) :
    t.registry email = some entry ↔ entry.row email ∈ t.rows := by
  simp only [registry, Option.map_eq_some_iff]
  constructor
  · rintro ⟨r, found, rfl⟩
    have same : r.user.email = email := by simpa using List.find?_some found
    exact same ▸ List.mem_of_find?_eq_some found
  · intro member
    have known : (t.rows.find? (·.user.email = email)).isSome := by
      simpa using ⟨_, member, rfl⟩
    obtain ⟨r, found⟩ := Option.isSome_iff_exists.1 known
    have same : r.user.email = email := by simpa using List.find?_some found
    have one := t.row_unique (List.mem_of_find?_eq_some found) member same
    exact ⟨r, found, by rw [one]; rfl⟩

theorem registry_eq_none_iff (t : Table) (email : String) :
    t.registry email = none ↔ ∀ r ∈ t.rows, r.user.email ≠ email := by
  simp [registry]

theorem holds_iff (t : Table) (email token : String) :
    t.registry.Holds email token ↔ ∃ r ∈ t.rows, r.user.email = email ∧ r.token? = some token := by
  simp only [Registry.Holds, registry_eq_some_iff]
  constructor
  · rintro ⟨entry, member, held⟩
    exact ⟨_, member, rfl, held⟩
  · rintro ⟨r, member, rfl, held⟩
    exact ⟨r.entry, member, held⟩

theorem holder_email_unique (t : Table) {email other token : String}
    (held : t.registry.Holds email token) (again : t.registry.Holds other token) :
    email = other := by
  obtain ⟨r, member, rfl, first⟩ := (t.holds_iff email token).1 held
  obtain ⟨s, also, rfl, second⟩ := (t.holds_iff other token).1 again
  rw [t.holder_unique member also first second]

/-- A table stands for a map if the map's entries are its rows. -/
theorem registry_eq {t : Table} {m : Registry}
    (same : ∀ email entry, m email = some entry ↔ entry.row email ∈ t.rows) : t.registry = m := by
  funext email
  exact Option.ext fun entry => (t.registry_eq_some_iff email entry).trans (same email entry).symm

theorem registry_inserted {t u : Table} {user : User} {token : String}
    (rows : u.rows = t.inserted user token) :
    u.registry = Function.update t.registry user.email
      (some ⟨user.name, user.authority, some token⟩) := by
  refine registry_eq fun email entry => ?_
  rw [rows, mem_inserted, Entry.row_eq_iff]
  by_cases same : email = user.email
  · subst same
    simp [Entry.row, Row.entry, eq_comm]
  · rw [Function.update_of_ne same, registry_eq_some_iff]
    simp [Entry.row, same, Ne.symm same]

theorem registry_cleared {t u : Table} {email : String} {entry : Entry}
    (rows : u.rows = t.changed email fun r => { r with token? := none })
    (known : t.registry email = some entry) :
    u.registry = Function.update t.registry email (some { entry with token? := none }) := by
  have present := (t.registry_eq_some_iff email entry).1 known
  refine registry_eq fun other given => ?_
  rw [rows, mem_changed]
  by_cases same : other = email
  · subst same
    rw [Function.update_self, Option.some_inj]
    constructor
    · rintro rfl
      exact .inl ⟨_, present, rfl, rfl⟩
    · rintro (⟨old, member, kept, changed⟩ | ⟨-, differs⟩)
      · cases t.row_unique member present kept
        exact (Entry.row_eq_iff.1 changed).2.symm
      · exact absurd rfl differs
  · rw [Function.update_of_ne same, registry_eq_some_iff]
    constructor
    · exact fun member => .inr ⟨member, same⟩
    · rintro (⟨old, -, kept, changed⟩ | ⟨member, -⟩)
      · exact absurd ((Entry.row_eq_iff.1 changed).1.symm.trans kept) same
      · exact member

/-- A table answers a request as its map does. -/
theorem answers_serve (t : Table) (request : Request) :
    Answers t.registry request (t.serve request).1 (t.serve request).2.registry := by
  cases request with
  | upsert user token =>
    rcases t.upsert_cases user token with
      ⟨⟨r, member, other, held⟩, failed⟩ | ⟨free, u, stored, rows⟩
    · simp only [serve, apply, failed]
      exact .taken other ((t.holds_iff _ _).2 ⟨r, member, rfl, held⟩)
    · simp only [serve, apply, stored, registry_inserted rows]
      refine .stored fun email holds => ?_
      obtain ⟨r, member, rfl, held⟩ := (t.holds_iff _ _).1 holds
      exact free r member held
  | revoke email =>
    rcases t.revoke_cases email with ⟨absent, failed⟩ | ⟨⟨r, member, same⟩, u, cleared, rows⟩
    · simp only [serve, apply, failed]
      exact .unknown ((t.registry_eq_none_iff email).2 absent)
    · have known : t.registry email = some r.entry := by
        rw [registry_eq_some_iff, ← same]
        exact member
      simp only [serve, apply, cleared, registry_cleared rows known]
      exact .cleared known
  | lookup token =>
    cases found : t.find? token with
    | none =>
      simp only [serve, lookup, found]
      refine .missed fun email holds => ?_
      obtain ⟨r, member, -, held⟩ := (t.holds_iff _ _).1 holds
      have resolves := (t.find?_eq_some_iff token r.user).2 (held ▸ member)
      simp [found] at resolves
    | some user =>
      simp only [serve, lookup, found]
      have member := (t.find?_eq_some_iff token user).1 found
      have known : t.registry user.email = some ⟨user.name, user.authority, some token⟩ :=
        (t.registry_eq_some_iff _ _).2 member
      exact .found known rfl
  | reopen => exact .reopened

end Table

/-- A map in which a token has one holder leaves no choice of an answer. -/
theorem Answers.unique {m next other : Registry} {request : Request} {answer another : Answer}
    (single : ∀ {email also token}, m.Holds email token → m.Holds also token → email = also)
    (first : Answers m request answer next) (second : Answers m request another other) :
    answer = another ∧ next = other := by
  cases first with
  | taken differs holds =>
    cases second with
    | taken => exact ⟨rfl, rfl⟩
    | stored free => exact absurd (free _ holds) differs
  | stored free =>
    cases second with
    | taken differs holds => exact absurd (free _ holds) differs
    | stored => exact ⟨rfl, rfl⟩
  | cleared known =>
    cases second with
    | cleared again =>
      cases known.symm.trans again
      exact ⟨rfl, rfl⟩
    | unknown absent => cases known.symm.trans absent
  | unknown absent =>
    cases second with
    | cleared known => cases absent.symm.trans known
    | unknown => exact ⟨rfl, rfl⟩
  | found known held =>
    cases second with
    | found again also =>
      cases single ⟨_, known, held⟩ ⟨_, again, also⟩
      cases known.symm.trans again
      exact ⟨rfl, rfl⟩
    | missed nobody => exact absurd ⟨_, known, held⟩ (nobody _)
  | missed nobody =>
    cases second with
    | found known held => exact absurd ⟨_, known, held⟩ (nobody _)
    | missed => exact ⟨rfl, rfl⟩
  | reopened =>
    cases second
    exact ⟨rfl, rfl⟩

namespace Table

def serveAll (t : Table) : List Request → List Answer × Table
  | [] => ([], t)
  | request :: requests =>
    ((t.serve request).1 :: ((t.serve request).2.serveAll requests).1,
      ((t.serve request).2.serveAll requests).2)

/-- A table answers requests as its map does, and the map can answer them in no other way. -/
theorem answersAll_iff (t : Table) (requests : List Request) (answers : List Answer)
    (m : Registry) : AnswersAll t.registry requests answers m ↔
      answers = (t.serveAll requests).1 ∧ m = (t.serveAll requests).2.registry := by
  induction requests generalizing t answers with
  | nil =>
    constructor
    · rintro ⟨⟩
      exact ⟨rfl, rfl⟩
    · rintro ⟨rfl, rfl⟩
      exact .nil
  | cons request requests ih =>
    constructor
    · rintro (_ | ⟨first, later⟩)
      obtain ⟨rfl, rfl⟩ := first.unique t.holder_email_unique (t.answers_serve request)
      obtain ⟨rfl, rfl⟩ := (ih _ _).1 later
      exact ⟨rfl, rfl⟩
    · rintro ⟨rfl, rfl⟩
      exact .cons (t.answers_serve request) ((ih _ _).2 ⟨rfl, rfl⟩)

theorem serveAll_append (t : Table) (first later : List Request) :
    (t.serveAll (first ++ later)).2 = ((t.serveAll first).2.serveAll later).2 := by
  induction first generalizing t with
  | nil => rfl
  | cons request first ih => exact ih _

theorem find?_eq_none_iff (t : Table) (token : String) :
    t.find? token = none ↔ ∀ r ∈ t.rows, r.token? ≠ some token := by
  simp [find?]

end Table

/-- Whether the request, when it succeeds, takes the token from the user who holds it. -/
def Request.Retires (user : User) (token : String) : Request → Prop
  | upsert given other => given.email = user.email ∧ other ≠ token
  | revoke email => email = user.email
  | lookup _ | reopen => False

namespace Table

/-- A token that has been rotated or revoked belongs to nobody. -/
theorem serve_retired {t : Table} {request : Request} {user : User} {token : String}
    (resolves : t.find? token = some user) (retires : request.Retires user token)
    (succeeds : (t.serve request).1 = .done (.ok ())) :
    (t.serve request).2.find? token = none := by
  have held := (t.find?_eq_some_iff token user).1 resolves
  rw [find?_eq_none_iff]
  intro r member has
  cases request with
  | upsert given other =>
    obtain ⟨same, differs⟩ := retires
    rcases t.upsert_cases given other with ⟨-, failed⟩ | ⟨-, u, stored, rows⟩
    · simp [serve, apply, failed] at succeeds
    · simp only [serve, apply, stored, rows, mem_inserted] at member
      rcases member with rfl | ⟨member, apart⟩
      · exact differs (Option.some_inj.1 has)
      · cases t.holder_unique member held has rfl
        exact apart same.symm
  | revoke email =>
    rcases t.revoke_cases email with ⟨-, failed⟩ | ⟨-, u, cleared, rows⟩
    · simp [serve, apply, failed] at succeeds
    · simp only [serve, apply, cleared, rows, mem_changed] at member
      rcases member with ⟨old, -, -, rfl⟩ | ⟨member, apart⟩
      · cases has
      · cases t.holder_unique member held has rfl
        exact apart retires.symm
  | lookup _ | reopen => exact retires.elim

/-- Only an upsert of the token itself makes it resolve. -/
theorem serve_unheld {t : Table} {request : Request} {token : String}
    (unheld : t.find? token = none) (resolves : (t.serve request).2.find? token ≠ none) :
    ∃ given, request = .upsert given token ∧ (t.serve request).1 = .done (.ok ()) := by
  rw [find?_eq_none_iff] at unheld
  simp only [ne_eq, find?_eq_none_iff, not_forall, not_not] at resolves
  obtain ⟨r, member, has⟩ := resolves
  cases request with
  | upsert given other =>
    rcases t.upsert_cases given other with ⟨-, failed⟩ | ⟨-, u, stored, rows⟩
    · simp only [serve, apply, failed] at member
      exact absurd has (unheld r member)
    · simp only [serve, apply, stored, rows, mem_inserted] at member
      rcases member with rfl | ⟨member, -⟩
      · cases has
        exact ⟨given, rfl, by simp only [serve, apply, stored]⟩
      · exact absurd has (unheld r member)
  | revoke email =>
    rcases t.revoke_cases email with ⟨-, failed⟩ | ⟨-, u, cleared, rows⟩
    · simp only [serve, apply, failed] at member
      exact absurd has (unheld r member)
    · simp only [serve, apply, cleared, rows, mem_changed] at member
      rcases member with ⟨old, -, -, rfl⟩ | ⟨member, -⟩
      · cases has
      · exact absurd has (unheld r member)
  | lookup _ | reopen => exact absurd has (unheld r member)

theorem serveAll_unheld {t : Table} {requests : List Request} {token : String}
    (unheld : t.find? token = none) (resolves : (t.serveAll requests).2.find? token ≠ none) :
    ∃ before given after, requests = before ++ .upsert given token :: after ∧
      ((t.serveAll before).2.serve (.upsert given token)).1 = .done (.ok ()) := by
  induction requests generalizing t with
  | nil => exact absurd unheld resolves
  | cons request requests ih =>
    by_cases next : (t.serve request).2.find? token = none
    · obtain ⟨before, given, after, rfl, succeeds⟩ := ih next resolves
      exact ⟨request :: before, given, after, rfl, succeeds⟩
    · obtain ⟨given, rfl, succeeds⟩ := serve_unheld unheld next
      exact ⟨[], given, requests, rfl, succeeds⟩

end Table

end CredentialGate.Store
