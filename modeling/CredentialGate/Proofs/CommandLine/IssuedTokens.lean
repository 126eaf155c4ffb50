import CredentialGate.CommandLine.Run
import CredentialGate.Proofs.Audit.Uuid
import CredentialGate.Proofs.Store.Database
import CredentialGate.Proofs.Webhook
import Mathlib.Data.List.TakeWhile

/-! Tokens that are issued at the command line, and what becomes of them. Any commands may change
the users of one database one after the other. A token that has been printed is accepted from then
on as that of its user, until the user gets another or none, and then not before it is printed
again. -/
namespace CredentialGate.CommandLine

open Files Store

/-! Blanks -/

theorem trim_eq_empty (given : String) :
    Text.trim given = "" ↔ ∀ c ∈ given.toList, Text.isBlank c = true := by
  have ending (cs : List Char) : Text.trimEnd cs = [] ↔ ∀ c ∈ cs, Text.isBlank c = true := by
    simp [Text.trimEnd, List.dropWhile_eq_nil_iff]
  rw [Text.trim, ← String.toList_inj, String.toList_ofList, String.toList_empty, ending,
    Text.trimStart]
  constructor
  · intro blank
    by_contra visible
    -- What the blanks in front leave starts with a character that is none.
    obtain ⟨c, rest, left⟩ := List.exists_cons_of_ne_nil
      (mt List.dropWhile_eq_nil_iff.1 visible)
    have first := List.head?_dropWhile_not Text.isBlank given.toList
    simp only [left, List.head?_cons] at first
    simp [blank c (by simp [left])] at first
  · exact fun blank c member => blank c ((List.dropWhile_sublist _).subset member)

/-! Commands that change the users -/

/-- A command that changes the users. A user who is added without a token gets the one that is
generated. -/
inductive UserChange
  | add (user : User) (token? : Option String) (generated : Audit.Uuid)
  | revoke (email : String)

/-- A change with what has been reported of it. -/
abbrev Told := UserChange × Report

/-- The report of a change that prints a line if it succeeds. -/
def Report.of (line : String) : Except Store.Failure Unit → Report
  | .ok () => .print line
  | .error e => .fail (.store e)

namespace UserChange

def run (around : Surroundings σ) (s : Config.Settings) (env : Config.Environment) (w : World σ) :
    UserChange → Report × World σ
  | add user token? generated =>
    execute { around with freshToken := generated } s env (.addUser user token?) w
  | revoke email => execute around s env (.revokeUser email) w

def runAll (around : Surroundings σ) (s : Config.Settings) (env : Config.Environment) :
    List UserChange → World σ → List Told × World σ
  | [], w => ([], w)
  | change :: changes, w =>
    let (report, w) := change.run around s env w
    let (told, w) := runAll around s env changes w
    ((change, report) :: told, w)

def step : UserChange → Database → Tree → Except Failure String × Tree
  | add user token? generated => addUser user (tokenToIssue generated token?)
  | revoke email => revokeUser email

/-- The change of a table, and what is reported of it. -/
def onTable (table : Table) : UserChange → Report × Table
  | add user token? generated =>
    match tokenToIssue generated token? with
    | .error e => (.fail e, table)
    | .ok token =>
      (.of token (table.apply (·.upsert user token)).1, (table.apply (·.upsert user token)).2)
  | revoke email =>
    (.of ("Revoked token for " ++ email) (table.apply (·.revoke email)).1,
      (table.apply (·.revoke email)).2)

end UserChange

/-- The token has been issued once more, to whomever. -/
def Issues (token : String) : Told → Prop
  | (.add _ _ _, report) => report = .print token
  | (.revoke _, _) => False

/-- The user of the e-mail has got another token, or none. -/
def Withdraws (email token : String) : Told → Prop
  | (.add user _ _, report) => user.email = email ∧ ∃ other, report = .print other ∧ other ≠ token
  | (.revoke revoked, _) => revoked = email

/-! Tables -/

/-- The token belongs to the user of the e-mail. -/
def HeldBy (email token : String) (table : Table) : Prop :=
  ∃ user, table.find? token = some user ∧ user.email = email

theorem heldBy_iff {email token : String} {table : Table} :
    HeldBy email token table ↔ ∃ r ∈ table.rows, r.user.email = email ∧ r.token? = some token := by
  simp only [HeldBy, Table.find?_eq_some_iff]
  constructor
  · rintro ⟨user, member, rfl⟩
    exact ⟨_, member, rfl, rfl⟩
  · rintro ⟨⟨user, _⟩, member, rfl, rfl⟩
    exact ⟨user, member, rfl⟩

theorem Report.of_eq_print {line printed : String} {result : Except Store.Failure Unit} :
    Report.of line result = .print printed ↔ result = .ok () ∧ line = printed := by
  cases result <;> simp [Report.of, Report.print, Report.fail]

section

variable {email token : String} {table : Table} {change : UserChange}

/-- A token is issued unless another user holds it. -/
theorem onTable_add (table : Table) (user : User) {token? : Option String}
    {generated : Audit.Uuid} (issued : tokenToIssue generated token? = .ok token) :
    (∃ other, table.find? token = some other ∧ other.email ≠ user.email) ∧
        (UserChange.add user token? generated).onTable table =
          (.fail (.store Table.tokenTaken), table) ∨
      (¬ ∃ other, table.find? token = some other ∧ other.email ≠ user.email) ∧
        ∃ u, (UserChange.add user token? generated).onTable table = (.print token, u) ∧
          HeldBy user.email token u := by
  simp only [UserChange.onTable, issued, Table.apply, Table.find?_eq_some_iff]
  rcases table.upsert_cases user token with
    ⟨⟨⟨other, _⟩, member, apart, rfl⟩, failed⟩ | ⟨free, u, stored, rows⟩
  · rw [failed]
    exact .inl ⟨⟨other, member, apart⟩, rfl⟩
  · rw [stored]
    refine .inr ⟨?_, u, rfl, ?_⟩
    · rintro ⟨other, member, apart⟩
      exact apart (free _ member rfl)
    · rw [heldBy_iff, rows]
      exact ⟨_, (table.mem_inserted user token _).2 (.inl rfl), rfl, rfl⟩

/-- A change that does not withdraw a token leaves it with its user. -/
theorem HeldBy.onTable (held : HeldBy email token table)
    (kept : ¬ Withdraws email token (change, (change.onTable table).1)) :
    HeldBy email token (change.onTable table).2 := by
  obtain ⟨r, member, same, has⟩ := heldBy_iff.1 held
  cases change with
  | add user token? generated =>
    simp only [UserChange.onTable] at kept ⊢
    cases issued : tokenToIssue generated token? with
    | error e => exact held
    | ok other =>
      simp only [issued] at kept ⊢
      rcases table.upsert_cases user other with ⟨-, failed⟩ | ⟨-, u, stored, rows⟩
      · simpa only [Table.apply, failed] using held
      · simp only [Table.apply, stored] at kept ⊢
        rw [heldBy_iff]
        simp only [rows, Table.mem_inserted]
        by_cases own : user.email = email
        · have again : other = token := by
            by_contra differs
            exact kept ⟨own, other, rfl, differs⟩
          exact ⟨_, .inl rfl, own, congrArg some again⟩
        · exact ⟨r, .inr ⟨member, fun taken => own (taken.symm.trans same)⟩, same, has⟩
  | revoke revoked =>
    simp only [UserChange.onTable]
    rcases table.revoke_cases revoked with ⟨-, failed⟩ | ⟨-, u, cleared, rows⟩
    · simpa only [Table.apply, failed] using held
    · simp only [Table.apply, cleared]
      rw [heldBy_iff]
      simp only [rows, Table.mem_changed]
      exact ⟨r, .inr ⟨member, fun revokes => kept (revokes.symm.trans same)⟩, same, has⟩

/-- A token that has been withdrawn belongs to nobody. -/
theorem HeldBy.withdrawn (held : HeldBy email token table)
    (withdraws : Withdraws email token (change, (change.onTable table).1)) :
    (change.onTable table).2.find? token = none := by
  obtain ⟨holder, resolves, rfl⟩ := held
  cases change with
  | add user token? generated =>
    obtain ⟨own, other, printed, differs⟩ := withdraws
    simp only [UserChange.onTable] at printed ⊢
    cases issued : tokenToIssue generated token? with
    | error e => simp [issued, Report.fail, Report.print] at printed
    | ok given =>
      simp only [issued, Report.of_eq_print] at printed
      obtain ⟨succeeds, rfl⟩ := printed
      have retires : (Request.upsert user given).Retires holder token := ⟨own, differs⟩
      exact Table.serve_retired resolves retires (congrArg Answer.done succeeds)
  | revoke revoked =>
    obtain rfl : revoked = holder.email := withdraws
    have known : ∃ r ∈ table.rows, r.user.email = holder.email :=
      ⟨_, (table.find?_eq_some_iff token holder).1 resolves, rfl⟩
    have succeeds : (table.apply (·.revoke holder.email)).1 = .ok () := by
      rcases table.revoke_cases holder.email with ⟨absent, -⟩ | ⟨-, u, cleared, -⟩
      · obtain ⟨r, member, same⟩ := known
        exact absurd same (absent r member)
      · simp only [Table.apply, cleared]
    have retires : (Request.revoke holder.email).Retires holder token := rfl
    exact Table.serve_retired resolves retires (congrArg Answer.done succeeds)

/-- A token that belongs to nobody has no user before it is issued. -/
theorem unheld_onTable (unheld : table.find? token = none)
    (unissued : ¬ Issues token (change, (change.onTable table).1)) :
    (change.onTable table).2.find? token = none := by
  by_contra held
  cases change with
  | add user token? generated =>
    simp only [UserChange.onTable] at held unissued
    cases issued : tokenToIssue generated token? with
    | error e =>
      rw [issued] at held
      exact held unheld
    | ok given =>
      simp only [issued] at held unissued
      replace held : (table.serve (.upsert user given)).2.find? token ≠ none := held
      obtain ⟨_, same, succeeds⟩ := Table.serve_unheld unheld held
      cases same
      exact unissued (Report.of_eq_print.2 ⟨Answer.done.inj succeeds, rfl⟩)
  | revoke revoked =>
    replace held : (table.serve (.revoke revoked)).2.find? token ≠ none := held
    obtain ⟨_, same, -⟩ := Table.serve_unheld unheld held
    cases same

end

/-! The database -/

/-- What opening the database at a path finds in it. -/
def usersAt (path : FilePath) (t : Tree) : Except Store.Failure Table :=
  let (opened, t) := Database.openAt path t
  opened.bind (·.table t)

/-- The path leads to the database, which keeps the table. -/
def Leads (path : FilePath) (d : Database) (t : Tree) (table : Table) : Prop :=
  ∃ opened, Database.openAt path t = (.ok d, opened) ∧ Database.Keeps path (d, opened) table

section

variable {path : FilePath} {d : Database} {t : Tree} {table : Table}

theorem Leads.usersAt_eq (leads : Leads path d t table) : usersAt path t = .ok table := by
  obtain ⟨opened, opening, keeps⟩ := leads
  simp only [usersAt, opening, Except.bind]
  exact keeps.table_eq

variable (named : Database.unnamedPath path = false)

include named

theorem leads_of_keeps (keeps : Database.Keeps path (d, t) table) : Leads path d t table :=
  ⟨t, keeps.openAt named, keeps⟩

omit named in
theorem update_stored (place : Place) (change : Table → Except Store.Failure Table) (t : Tree) :
    (Database.update change (.stored place) t).2.1 = .stored place := by
  unfold Database.update
  split
  · dsimp only [Database.setTable]
    split <;> rfl
  · rfl

/-- The database of a path with a name stays the same one. -/
theorem keeps_update (keeps : Database.Keeps path (d, t) table)
    (change : Table → Except Store.Failure Table) :
    ∃ u, Database.update change d t = ((table.apply change).1, d, u) ∧
      Database.Keeps path (d, u) (table.apply change).2 := by
  obtain ⟨⟨d', u⟩, updated, kept⟩ := keeps.update change
  have same : d' = d := by
    cases keeps with
    | unnamed nameless => simp [named] at nameless
    | stored => exact (congrArg (·.2.1) updated).symm.trans (update_stored _ change t)
  subst same
  exact ⟨u, updated, kept⟩

theorem changeUsers_update (leads : Leads path d t table) (line : String)
    (change : Table → Except Store.Failure Table) :
    let result := changeUsers path t fun d t =>
      let (result, _, t) := d.update change t
      ((result.mapError Failure.store).map fun _ => line, t)
    result.1 = .of line (table.apply change).1 ∧
      Leads path d result.2 (table.apply change).2 := by
  obtain ⟨opened, opening, keeps⟩ := leads
  obtain ⟨u, updated, kept⟩ := keeps_update named keeps change
  simp only [changeUsers, opening, updated]
  cases (table.apply change).1 with
  | ok _ => exact ⟨rfl, leads_of_keeps named kept⟩
  | error e => exact ⟨rfl, leads_of_keeps named kept⟩

/-- A change of the users is the change of the table. -/
theorem changeUsers_step (leads : Leads path d t table) (change : UserChange) :
    (changeUsers path t change.step).1 = (change.onTable table).1 ∧
      Leads path d (changeUsers path t change.step).2 (change.onTable table).2 := by
  cases change with
  | add user token? generated =>
    simp only [UserChange.step, UserChange.onTable]
    cases tokenToIssue generated token? with
    | error e =>
      obtain ⟨opened, opening, keeps⟩ := leads
      have ran : changeUsers path t (addUser user (.error e)) = (.fail e, opened) := by
        simp only [changeUsers, opening, addUser]
      rw [ran]
      exact ⟨rfl, leads_of_keeps named keeps⟩
    | ok token => exact changeUsers_update named leads token (·.upsert user token)
  | revoke email =>
    exact changeUsers_update named leads ("Revoked token for " ++ email) (·.revoke email)

end

/-! The run -/

section

variable {around : Surroundings σ} {s : Config.Settings} {env : Config.Environment} {w : World σ}
  {d : Database} {table : Table}

theorem run_eq (change : UserChange) (w : World σ) : change.run around s env w =
    onTree (fun t => changeUsers s.server.dbPath t change.step) w := by
  cases change <;> rfl

variable (named : Database.unnamedPath s.server.dbPath = false)

include named

theorem run_step (leads : Leads s.server.dbPath d w.tree table) (change : UserChange) :
    (change.run around s env w).1 = (change.onTable table).1 ∧
      Leads s.server.dbPath d (change.run around s env w).2.tree (change.onTable table).2 := by
  rw [run_eq]
  exact changeUsers_step named leads change

/-- What every change keeps of the table, as long as the report of none speaks against it, is kept
by all of them. -/
theorem runAll_keeps (Kept : Table → Prop) (Against : Told → Prop)
    (step : ∀ table change, Kept table → ¬ Against (change, (change.onTable table).1) →
      Kept (change.onTable table).2)
    (leads : Leads s.server.dbPath d w.tree table) (kept : Kept table) (changes : List UserChange)
    (none : ∀ told ∈ (UserChange.runAll around s env changes w).1, ¬ Against told) :
    ∃ after, Leads s.server.dbPath d (UserChange.runAll around s env changes w).2.tree after ∧
      Kept after := by
  induction changes generalizing w table with
  | nil => exact ⟨table, leads, kept⟩
  | cons change changes ih =>
    obtain ⟨reported, next⟩ := run_step named leads change
    simp only [UserChange.runAll, List.mem_cons, forall_eq_or_imp] at none ⊢
    rw [reported] at none
    exact ih next (step table change kept none.1) none.2

end

/-! Reviews -/

/-- A review of the token comes to the outcome, at the command line, where what is printed holds the
response, as well as over the wire. -/
structure Reviewed (around : Surroundings σ) (s : Config.Settings) (env : Config.Environment)
    (d : Database) (w : World σ) (token : String) (outcome : Review.Outcome) : Prop where
  told : (execute around s env (.review token) w).1 =
    ⟨[outcome.body.document.displayOver],
      ["HTTP " ++ toString outcome.status ++ " " ++ Webhook.phraseOf outcome.status], none, none⟩
  shown : Json.Holds (Text.utf8 outcome.body.document.displayOver) outcome.body.document.datum
  posted (τ : Type) (sink : Review.Sink τ) (x : τ) (request : Webhook.Request) :
    request.method = "POST" → Webhook.pathOf request.target = Webhook.reviewPath →
    request.body.length ≤ Webhook.bodyLimit → (Webhook.requestOf request.body).check = .ok token →
    let reply := (Webhook.answer (d.lookup w.tree) sink request x).1
    reply.status = outcome.status ∧ Review.Response.read reply.body = .ok outcome.body

section

variable {around : Surroundings σ} {s : Config.Settings} {env : Config.Environment} {w : World σ}
  {d : Database} {table : Table} {token : String}

/-- A review comes to what the table says of the token. -/
theorem Leads.reviewed (leads : Leads s.server.dbPath d w.tree table) (present : token ≠ "") :
    Reviewed around s env d w token
      (.of (Review.judge (.ok (table.find? token)))) := by
  obtain ⟨opened, opening, keeps⟩ := leads
  have decided {request : Review.Request} (asks : request.check = .ok token) :
      Review.verdict (d.lookup opened) request = Review.judge (.ok (table.find? token)) := by
    have resolved : d.lookup opened token = .ok (table.find? token) := keeps.resolve_eq token
    simp only [Review.verdict, asks, resolved]
  constructor
  · have asks : (Review.Request.forToken token).check = .ok token :=
      Review.check_eq_ok_iff.2 ⟨rfl, Review.token_eq_some_iff.2 ⟨rfl, present⟩⟩
    have outcome := Review.review_outcome (d.lookup opened) .discard (.forToken token) ()
    rw [decided asks] at outcome
    change (reviewToken s.server.dbPath token w.tree).1 = _
    simp only [reviewToken, opening, outcome]
  · exact Review.Response.displayed _
  · intro τ sink x request posted routed fits asks
    have same := Review.verdict_congr (Database.openAt_lookup opening)
      (Webhook.requestOf request.body)
    rw [decided asks] at same
    dsimp only
    rw [Webhook.answer_posted posted routed fits, same]
    exact ⟨rfl, Review.Response.read_document _⟩

theorem Leads.accepted {email : String} (leads : Leads s.server.dbPath d w.tree table)
    (present : token ≠ "") (held : HeldBy email token table) :
    Reviewed around s env d w token ⟨200, .authenticated email []⟩ := by
  obtain ⟨user, found, rfl⟩ := held
  have reviewed : Reviewed around s env d w token _ := leads.reviewed present
  rwa [found] at reviewed

theorem Leads.rejected (leads : Leads s.server.dbPath d w.tree table) (present : token ≠ "")
    (unheld : table.find? token = none) :
    Reviewed around s env d w token ⟨401, .unauthenticated⟩ := by
  have reviewed : Reviewed around s env d w token _ := leads.reviewed present
  rwa [unheld] at reviewed

end

/-- From now on the token is accepted as that of the e-mail, until its user gets another one or
none. It is rejected then, until it is issued again. -/
structure ValidUntilWithdrawn (around : Surroundings σ) (s : Config.Settings)
    (env : Config.Environment) (d : Database) (email token : String) (w : World σ) : Prop where
  accepted (changes : List UserChange) :
    let later := UserChange.runAll around s env changes w
    (∀ told ∈ later.1, ¬ Withdraws email token told) →
      Reviewed around s env d later.2 token ⟨200, .authenticated email []⟩
  rejected (before : List UserChange) (change : UserChange) (changes : List UserChange) :
    let earlier := UserChange.runAll around s env before w
    let result := change.run around s env earlier.2
    let later := UserChange.runAll around s env changes result.2
    (∀ told ∈ earlier.1, ¬ Withdraws email token told) →
      Withdraws email token (change, result.1) → (∀ told ∈ later.1, ¬ Issues token told) →
        Reviewed around s env d later.2 token ⟨401, .unauthenticated⟩

section

variable {around : Surroundings σ} {s : Config.Settings} {env : Config.Environment} {w : World σ}
  {d : Database} {table : Table} (named : Database.unnamedPath s.server.dbPath = false)

include named

theorem valid_of_held {email token : String} (leads : Leads s.server.dbPath d w.tree table)
    (present : token ≠ "") (held : HeldBy email token table) :
    ValidUntilWithdrawn around s env d email token w where
  accepted := by
    intro changes later kept
    obtain ⟨_, leads, held⟩ := runAll_keeps named (HeldBy email token) (Withdraws email token)
      (fun _ _ => HeldBy.onTable) leads held changes kept
    exact leads.accepted present held
  rejected := by
    intro before change changes earlier result later kept withdraws unissued
    obtain ⟨now, leads, held⟩ := runAll_keeps named (HeldBy email token) (Withdraws email token)
      (fun _ _ => HeldBy.onTable) leads held before kept
    obtain ⟨reported, next⟩ := run_step named leads change
    have gone : (change.onTable now).2.find? token = none := held.withdrawn (reported ▸ withdraws)
    obtain ⟨_, last, unheld⟩ := runAll_keeps named (·.find? token = none) (Issues token)
      (fun _ _ => unheld_onTable) next gone changes unissued
    exact last.rejected present unheld

end

/-! The token to issue -/

theorem simple_ne_empty (id : Audit.Uuid) : id.simple ≠ "" := by
  intro none
  have digits := congrArg (·.toList.length) none
  simp [Audit.Uuid.simple, Audit.Uuid.length_hexDigits] at digits

/-- A text that is not blank leaves a token to issue, and so does the lack of one. -/
theorem tokenToIssue_visible {token? : Option String} (generated : Audit.Uuid)
    (visible : ∀ given ∈ token?, ∃ c ∈ given.toList, Text.isBlank c = false) :
    let token := (token?.map Text.trim).getD generated.simple
    token ≠ "" ∧ tokenToIssue generated token? = .ok token := by
  cases token? with
  | none => exact ⟨simple_ne_empty generated, rfl⟩
  | some given =>
    have present : Text.trim given ≠ "" := by
      rw [Ne, trim_eq_empty]
      simpa using visible
    exact ⟨present, by simp [tokenToIssue, present]⟩

/-- Whatever has been done to the users of a database that can be opened and is not private to a
run, the next user who is added gets the token that is given, without blanks around it, or the one
that is generated. It is printed, and valid until it is withdrawn. Blanks are refused as a token,
and so is the token of another user; nothing changes then. -/
theorem issued_tokens_accepted (around : Surroundings σ) (s : Config.Settings)
    (env : Config.Environment) {w : World σ} {d : Database} {opened : Tree}
    (named : Database.unnamedPath s.server.dbPath = false)
    (available : Database.openAt s.server.dbPath w.tree = (.ok d, opened))
    (history : List UserChange) :
    let now := (UserChange.runAll around s env history w).2
    ∃ table, usersAt s.server.dbPath now.tree = .ok table ∧ ∀ user token? generated,
      let token := (token?.map Text.trim).getD generated.simple
      let result := (UserChange.add user token? generated).run around s env now
      let unchanged := usersAt s.server.dbPath result.2.tree = .ok table
      let taken := ∃ other, table.find? token = some other ∧ other.email ≠ user.email
      ((∃ given ∈ token?, ∀ c ∈ given.toList, Text.isBlank c = true) →
        result.1 = .fail .emptyToken ∧ unchanged) ∧
      ((∀ given ∈ token?, ∃ c ∈ given.toList, Text.isBlank c = false) →
        token ≠ "" ∧
        (taken → result.1 = .fail (.store Table.tokenTaken) ∧ unchanged) ∧
        (¬ taken → result.1 = .print token ∧
          ValidUntilWithdrawn around s env d user.email token result.2)) := by
  intro now
  obtain ⟨first, keeps⟩ := Database.openAt_keeps available
  obtain ⟨table, leads, -⟩ : ∃ table, Leads s.server.dbPath d now.tree table ∧ True :=
    runAll_keeps named (fun _ => True) (fun _ => False) (fun _ _ _ _ => trivial)
      ⟨opened, available, keeps⟩ trivial history (fun _ _ => id)
  refine ⟨table, leads.usersAt_eq, fun user token? generated => ?_⟩
  intro token result unchanged taken
  obtain ⟨reported, next⟩ := run_step named leads (.add user token? generated)
  constructor
  · rintro ⟨given, rfl, blank⟩
    have refused : tokenToIssue generated (some given) = .error .emptyToken := by
      simp [tokenToIssue, (trim_eq_empty given).2 blank]
    simp only [UserChange.onTable, refused] at reported next
    exact ⟨reported, next.usersAt_eq⟩
  · intro visible
    obtain ⟨present, issued⟩ := tokenToIssue_visible generated visible
    rcases onTable_add table user issued with ⟨held, refused⟩ | ⟨free, u, printed, held⟩
    · rw [refused] at reported next
      exact ⟨present, fun _ => ⟨reported, next.usersAt_eq⟩, fun untaken => absurd held untaken⟩
    · rw [printed] at reported next
      exact ⟨present, fun already => absurd already free,
        fun _ => ⟨reported, valid_of_held named next present held⟩⟩

/-- Surroundings without a network. -/
def alone : Surroundings Unit :=
  ⟨Http.Network.down, fun _ _ => true, ⟨0⟩, ⟨2024, 1, 1⟩, none, none⟩

/-- Settings with the database at a relative path. -/
def relativeUsers : Config.Settings := { Config.Settings.standard with
  server := { Config.Server.standard with dbPath := ⟨"users"⟩ } }

def addNamed (name token : String) : UserChange :=
  .add ⟨name, name ++ "@example.org", "lab"⟩ (some token) ⟨0⟩

/-- A token with blanks around it is issued without them. Another user cannot get it while it is
valid, and it is rejected once it is revoked. -/
theorem spaced_token_issued :
    let env : Config.Environment := ⟨[], none⟩
    let d : Database := .stored ["users"]
    let added := (addNamed "alice" " abc\n").run alone relativeUsers env ⟨.empty, ()⟩
    let tried := UserChange.runAll alone relativeUsers env [addNamed "bob" "abc"] added.2
    let revoked := (UserChange.revoke "alice@example.org").run alone relativeUsers env tried.2
    added.1 = .print "abc" ∧
      Reviewed alone relativeUsers env d tried.2 "abc"
        ⟨200, .authenticated "alice@example.org" []⟩ ∧
      Reviewed alone relativeUsers env d revoked.2 "abc" ⟨401, .unauthenticated⟩ := by
  intro env d added tried revoked
  have named : Database.unnamedPath relativeUsers.server.dbPath = false := by decide
  have opening : (Database.openAt relativeUsers.server.dbPath .empty).1 = .ok d := by
    decide +kernel
  have empty : usersAt relativeUsers.server.dbPath .empty = .ok .empty := by decide +kernel
  obtain ⟨table, users, issued⟩ := issued_tokens_accepted alone relativeUsers env
    (w := ⟨.empty, ()⟩) named (Prod.ext opening rfl) []
  cases Except.ok.inj (users.symm.trans empty)
  have visible : ∃ c ∈ " abc\n".toList, Text.isBlank c = false := ⟨'a', by decide, by decide⟩
  have trimmed : Text.trim " abc\n" = "abc" := by decide
  have free := ((issued ⟨"alice", "alice@example.org", "lab"⟩ (some " abc\n") ⟨0⟩).2
    (by simpa using visible)).2.2
  simp only [Option.map_some, Option.getD_some, trimmed] at free
  obtain ⟨printed, valid⟩ := free (by simp [Table.find?, Table.empty])
  have other : ∀ told ∈ tried.1, ¬ Withdraws "alice@example.org" "abc" told := by
    intro told listed
    obtain ⟨report, rfl⟩ : ∃ report, told = (addNamed "bob" "abc", report) :=
      ⟨_, List.mem_singleton.1 listed⟩
    rintro ⟨same, -⟩
    exact absurd same (by decide)
  exact ⟨printed, valid.accepted [addNamed "bob" "abc"] other,
    valid.rejected [addNamed "bob" "abc"] (.revoke "alice@example.org") [] other rfl
      fun _ listed => absurd listed List.not_mem_nil⟩

end CredentialGate.CommandLine
