import CredentialGate.Proofs.Files.Tree
import CredentialGate.Proofs.Review.Decision
import CredentialGate.Proofs.Store.Database

/-! The fixed map and the database, filled with the same tokens. Where no token and no e-mail occurs
twice, an insertion displaces nothing in either, so each gives exactly the users that were put in,
and a review cannot tell them apart. -/
namespace CredentialGate.Store

open Files

/-- A token and the user it is given to. -/
structure Grant where
  token : String
  user : User
deriving DecidableEq, Repr

namespace Grant

def row (g : Grant) : Row := ⟨g.user, some g.token⟩

def request (g : Grant) : Request := .upsert g.user g.token

end Grant

/-- No token is given twice, and no e-mail has two users. -/
structure Distinct (grants : List Grant) : Prop where
  tokens : (grants.map (·.token)).Nodup
  emails : (grants.map (·.user.email)).Nodup

theorem Distinct.perm {grants others : List Grant} (same : grants.Perm others)
    (distinct : Distinct grants) : Distinct others where
  tokens := (same.map _).nodup_iff.1 distinct.tokens
  emails := (same.map _).nodup_iff.1 distinct.emails

/-- In distinct grants, the next one differs in token and e-mail from those before it. -/
theorem Distinct.next {before later : List Grant} {g : Grant}
    (distinct : Distinct (before ++ g :: later)) :
    ∀ h ∈ before, h.token ≠ g.token ∧ h.user.email ≠ g.user.email := by
  obtain ⟨tokens, emails⟩ := distinct
  rw [List.map_append, List.nodup_append] at tokens emails
  intro h member
  exact ⟨tokens.2.2 _ (List.mem_map_of_mem member) _ (by simp),
    emails.2.2 _ (List.mem_map_of_mem member) _ (by simp)⟩

/-- A store gives exactly the users of the grants for their tokens. -/
def Gives (lookup : Lookup) (grants : List Grant) : Prop :=
  ∀ token user, lookup token = .ok (some user) ↔ ⟨token, user⟩ ∈ grants

namespace TokenMap

theorem lookup_eq_ok_iff (m : TokenMap) (token : String) (user : User) :
    m.lookup token = .ok (some user) ↔ m.find? token = some user := by
  rw [lookup, Except.ok.injEq]

/-- A token that is given away is nobody's but the new user's; others stay with theirs. -/
theorem find?_withUser (m : TokenMap) (token : String) (user : User) (other : String) :
    (m.withUser token user).find? other = if other = token then some user else m.find? other := by
  simp only [find?, withUser, List.lookup_cons, Tree.lookup_others]
  by_cases same : other = token
  · simp [same]
  · simp [same, beq_false_of_ne same]

def grantAll (m : TokenMap) (grants : List Grant) : TokenMap :=
  grants.foldl (fun m g => m.withUser g.token g.user) m

/-- A token that is new displaces no other. -/
theorem gives_withUser {m : TokenMap} {before : List Grant} {g : Grant}
    (gives : Gives m.lookup before) (fresh : ∀ h ∈ before, h.token ≠ g.token) :
    Gives (m.withUser g.token g.user).lookup (before ++ [g]) := by
  intro token user
  rw [lookup_eq_ok_iff, find?_withUser, List.mem_append, List.mem_singleton, ← gives,
    lookup_eq_ok_iff]
  by_cases same : token = g.token
  · subst same
    have unknown : m.find? g.token ≠ some user := fun found =>
      fresh ⟨g.token, user⟩ ((gives _ _).1 ((m.lookup_eq_ok_iff _ _).2 found)) rfl
    rw [if_pos rfl, Option.some_inj, or_iff_right unknown]
    exact ⟨fun given => given ▸ rfl, fun whole => whole ▸ rfl⟩
  · rw [if_neg same, or_iff_left]
    exact fun whole => same (whole ▸ rfl)

theorem gives_grantAll {m : TokenMap} {before grants : List Grant}
    (gives : Gives m.lookup before) (distinct : Distinct (before ++ grants)) :
    Gives (m.grantAll grants).lookup (before ++ grants) := by
  induction grants generalizing m before with
  | nil => simpa [grantAll] using gives
  | cons g later ih =>
    have step := gives_withUser gives fun h member => (distinct.next h member).1
    rw [List.append_cons] at distinct ⊢
    exact ih step distinct

end TokenMap

namespace Table

/-- An insert that meets neither its e-mail nor its token adds its row and touches no other. -/
theorem upsert_new {t : Table} {g : Grant} (noEmail : ∀ r ∈ t.rows, r.user.email ≠ g.user.email)
    (noToken : ∀ r ∈ t.rows, r.token? ≠ some g.token) :
    ∃ u, t.upsert g.user g.token = .ok u ∧ u.rows = t.rows ++ [g.row] := by
  rcases t.upsert_cases g.user g.token with ⟨⟨r, member, -, held⟩, -⟩ | ⟨-, u, stored, rows⟩
  · exact absurd held (noToken r member)
  · have absent : ¬ t.hasEmail g.user.email = true := by
      rw [t.hasEmail_iff]
      exact fun ⟨r, member, same⟩ => noEmail r member same
    rw [inserted, if_neg absent] at rows
    exact ⟨u, stored, rows⟩

/-- The rows behind distinct grants are theirs in the order of insertion, and none was refused. -/
theorem serveAll_grants {t : Table} {before grants : List Grant}
    (rows : t.rows = before.map Grant.row) (distinct : Distinct (before ++ grants)) :
    (t.serveAll (grants.map Grant.request)).1 = grants.map (fun _ => .done (.ok ())) ∧
      (t.serveAll (grants.map Grant.request)).2.rows = (before ++ grants).map Grant.row := by
  induction grants generalizing t before with
  | nil => simpa [serveAll] using rows
  | cons g later ih =>
    have next := distinct.next
    obtain ⟨u, stored, added⟩ : ∃ u, t.upsert g.user g.token = .ok u ∧
        u.rows = t.rows ++ [g.row] := by
      refine upsert_new ?_ ?_
      · rw [rows, List.forall_mem_map]
        exact fun h member => (next h member).2
      · rw [rows, List.forall_mem_map]
        exact fun h member held => (next h member).1 (Option.some_inj.1 held)
    rw [rows, ← List.map_singleton, ← List.map_append] at added
    rw [List.append_cons] at distinct ⊢
    obtain ⟨answers, last⟩ := ih added distinct
    have served : t.serve g.request = (.done (.ok ()), u) := by
      simp only [Grant.request, serve, apply, stored]
    simp only [List.map_cons, serveAll, served]
    exact ⟨congrArg _ answers, last⟩

theorem gives_rows {t : Table} {grants : List Grant} (rows : t.rows = grants.map Grant.row) :
    Gives t.lookup grants := by
  intro token user
  rw [lookup, Except.ok.injEq, t.find?_eq_some_iff, rows, List.mem_map]
  constructor
  · rintro ⟨g, member, same⟩
    cases same
    exact member
  · exact fun member => ⟨_, member, rfl⟩

end Table

/-- Stores that give the same grants, in whatever order they were made, are one to every review. -/
theorem Gives.review_eq {left right : Lookup} {grants others : List Grant}
    (gives : Gives left grants) (alike : Gives right others) (same : grants.Perm others)
    (request : Review.Request) (sink : Review.Sink σ) (s : σ) :
    Review.review left sink request s = Review.review right sink request s := by
  have agree (token : String) (user : User) :
      left token = .ok (some user) ↔ right token = .ok (some user) :=
    (gives token user).trans (same.mem_iff.trans (alike token user).symm)
  rw [Review.review_eq, Review.review_eq, Review.verdict_congr agree]

/-- Tokens for users, no token and no e-mail twice, are put into a map in one order and into a
database that was empty in any other. The database takes every one of them. From then on every
review has one outcome over both, and leaves any destination of audit actions in one state. -/
theorem granted_stores_agree {p : FilePath} {start : Tree} {s : Database.Opened}
    (opening : Database.openAt p start = (.ok s.1, s.2)) (fresh : s.1.table s.2 = .ok .empty)
    {mapped stored : List Grant} (same : mapped.Perm stored) (distinct : Distinct mapped) :
    let m := TokenMap.empty.grantAll mapped
    let (answers, d, t) := Database.serveAll p (stored.map Grant.request) s
    answers = stored.map (fun _ => .done (.ok ())) ∧
      ∀ (request : Review.Request) (σ : Type) (sink : Review.Sink σ) (state : σ),
        Review.review m.lookup sink request state =
          Review.review (d.lookup t) sink request state := by
  obtain ⟨table, keeps⟩ := Database.openAt_keeps opening
  cases Except.ok.inj (keeps.table_eq.symm.trans fresh)
  obtain ⟨⟨d, t⟩, served, kept⟩ := keeps.serveAll (stored.map Grant.request) fun reopened => by
    simp [Grant.request] at reopened
  obtain ⟨answers, rows⟩ := @Table.serveAll_grants .empty [] stored rfl (distinct.perm same)
  have none : Gives TokenMap.empty.lookup [] := by
    intro token user
    simp [TokenMap.lookup, TokenMap.find?, TokenMap.empty]
  have fromTable : Gives (d.lookup t) stored := by
    intro token user
    rw [show d.lookup t token = Database.resolve (d, t) token from rfl, kept.resolve_eq]
    exact Table.gives_rows rows token user
  rw [served]
  exact ⟨answers, fun request σ sink state =>
    (TokenMap.gives_grantAll none distinct).review_eq fromTable same request sink state⟩

/-- Two users in a map, and in a private database in the other order. -/
theorem crossed_orders_agree :
    let alice : Grant := ⟨"abc", ⟨"Alice", "alice@example.org", "lab"⟩⟩
    let bob : Grant := ⟨"", ⟨"Bob", "bob@example.org", ""⟩⟩
    let m := TokenMap.empty.grantAll [alice, bob]
    let start : Database.Opened := (.unnamed .empty, .empty)
    let (answers, d, t) :=
      Database.serveAll ⟨":memory:"⟩ ([bob, alice].map Grant.request) start
    answers = [.done (.ok ()), .done (.ok ())] ∧
      Review.review m.lookup (.discard : Review.Sink Unit) (.forToken "abc") () =
        (⟨200, .authenticated "alice@example.org" []⟩, ()) ∧
      Review.review (d.lookup t) (.discard : Review.Sink Unit) (.forToken "abc") () =
        (⟨200, .authenticated "alice@example.org" []⟩, ()) := by
  intro alice bob m start
  have opening : Database.openAt ⟨":memory:"⟩ .empty = (.ok start.1, start.2) :=
    if_pos (by decide)
  have distinct : Distinct [alice, bob] := ⟨by decide, by decide⟩
  have known : Review.review m.lookup (.discard : Review.Sink Unit) (.forToken "abc") () =
      (⟨200, .authenticated "alice@example.org" []⟩, ()) := by decide +kernel
  obtain ⟨answers, agree⟩ := granted_stores_agree opening rfl (.swap bob alice []) distinct
  exact ⟨answers, known, (agree _ _ _ _).symm.trans known⟩

end CredentialGate.Store
