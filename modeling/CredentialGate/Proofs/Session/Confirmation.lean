import CredentialGate.Proofs.Session.History
import Mathlib.Data.List.Basic

/-! When a session counts as authenticated: both sources have vouched for the user. The primary
backend has issued the identity that was adopted last, and the directory has confirmed it since,
asked with the credential of that identity. -/
namespace CredentialGate.Session

/-- The operations that begin or end the session of an identity. -/
def Operation.settles : Operation → Bool
  | start | login _ _ | accept _ | logout => true
  | refresh | sendResetLink _ | resetPassword _ => false

/-- The operation adopts this identity, and is answered `own` from then on. -/
def Adopts (identity : LocalIdentity) (e : Episode) (own : List Reply) : Prop :=
  match e.op with
  | .start => ∃ before bearer, e.replies = before ++ .whoami bearer (.ok identity) :: own
  | .login _ _ =>
    ∃ before email password, e.replies = before ++ .login email password (.ok identity) :: own
  | .accept given => given = identity ∧ own = e.replies
  | _ => False

/-- The identity that the primary backend issues with an answer. -/
def Reply.issued? : Reply → Option LocalIdentity
  | whoami _ (.ok identity) | login _ _ (.ok identity) => some identity
  | _ => none

/-- What the directory says of the identity when it is asked with the credential. -/
def Reply.confirmation? (identity : LocalIdentity) (credential : Credential) :
    Reply → Option RemoteIdentity
  | fetchUser authority name bearer? (.ok remote) =>
    if authority = identity.authority ∧ name = identity.name ∧ bearer? = some credential then
      some remote
    else none
  | _ => none

def latestConfirmation? (identity : LocalIdentity) (credential : Credential)
    (replies : List Reply) : Option RemoteIdentity :=
  (replies.filterMap (Reply.confirmation? identity credential)).getLast?

/-- The identity was adopted last, with a credential that is not empty. Since then the answers have
been `since`. -/
structure Standing (identity : LocalIdentity) (credential : Credential) (past : List Episode)
    (since : List Reply) : Prop where
  held : identity.credential? = some credential
  filled : credential.token ≠ ""
  adopted : ∃ before last after own, past = before ++ last :: after ∧ Adopts identity last own ∧
    (∀ e ∈ after, e.op.settles = false) ∧ since = own ++ after.flatMap (·.replies)

/-- The state of an identity that has been adopted, by what the directory has said of it. -/
def State.ofConfirmation (identity : LocalIdentity) : Option RemoteIdentity → State
  | none => .localOnly identity
  | some remote => .authenticated identity remote

theorem usableCredential?_eq_some_iff (identity : LocalIdentity) (credential : Credential) :
    identity.usableCredential? = some credential ↔
      identity.credential? = some credential ∧ credential.token ≠ "" := by
  simp [LocalIdentity.usableCredential?, Option.filter_eq_some_iff, Credential.isEmpty]

theorem latestConfirmation?_append (identity : LocalIdentity) (credential : Credential)
    (first later : List Reply) :
    latestConfirmation? identity credential (first ++ later) =
      (latestConfirmation? identity credential later).or
        (latestConfirmation? identity credential first) := by
  simp [latestConfirmation?, List.getLast?_append]

section

variable {identity : LocalIdentity} {credential : Credential} {c after : Controller}
  {op : Operation} {exchanges : List Exchange} {since : List Reply} {past : List Episode}

/-- What the session knows of an identity that it has adopted. -/
def Knows (c : Controller) (identity : LocalIdentity) (credential : Credential)
    (remote? : Option RemoteIdentity) : Prop :=
  c.state = .ofConfirmation identity remote? ∧ c.bearer? = some credential

theorem Knows.local_eq {remote? : Option RemoteIdentity}
    (knows : Knows c identity credential remote?) : c.state.local? = some identity := by
  rw [knows.1]
  cases remote? <;> rfl

theorem Refreshing.knows {remote? : Option RemoteIdentity}
    (refreshing : Refreshing c exchanges after) (knows : Knows c identity credential remote?) :
    Knows after identity credential
      ((latestConfirmation? identity credential (exchanges.map (·.reply))).or remote?) := by
  cases refreshing with
  | unheld nobody => simp [knows.local_eq] at nobody
  | unconfirmed somebody =>
    simpa [latestConfirmation?, Reply.confirmation?] using knows
  | confirmed somebody =>
    rw [knows.local_eq, Option.some_inj] at somebody
    subst somebody
    simp [latestConfirmation?, Reply.confirmation?, knows.2, Knows, State.ofConfirmation,
      Controller.transition, Controller.publish]

theorem Refreshing.local_eq (refreshing : Refreshing c exchanges after) :
    after.state.local? = c.state.local? := by
  cases refreshing with
  | unheld | unconfirmed => rfl
  | confirmed somebody => exact somebody.symm

theorem Accepting.knows (accepting : Accepting identity c exchanges after)
    (usable : identity.usableCredential? = some credential) :
    Knows after identity credential
      (latestConfirmation? identity credential (exchanges.map (·.reply))) := by
  cases accepting with
  | refused unusable => simp [usable] at unusable
  | adopted held refreshing =>
    rw [usable, Option.some_inj] at held
    subst held
    have opened : Knows ({ c with bearer? := some credential }.transition (.localOnly identity))
        identity credential none := ⟨rfl, rfl⟩
    have knows := refreshing.knows opened
    rw [Option.or_none] at knows
    exact knows

theorem Accepting.local_eq {known : LocalIdentity}
    (accepting : Accepting identity c exchanges after)
    (somebody : after.state.local? = some known) :
    known = identity ∧ ∃ credential, identity.usableCredential? = some credential := by
  cases accepting with
  | refused => simp [Controller.transition, Controller.publish, State.local?] at somebody
  | adopted usable refreshing =>
    rw [refreshing.local_eq] at somebody
    exact ⟨(Option.some_inj.1 somebody).symm, _, usable⟩

/-- No identity is issued while one is being adopted. -/
theorem Accepting.none_issued (accepting : Accepting identity c exchanges after) :
    ∀ reply ∈ exchanges.map (·.reply), reply.issued? = none := by
  cases accepting with
  | refused => simp
  | adopted usable refreshing => cases refreshing <;> simp [Reply.issued?]

/-- An answer that issues an identity is the only one of its operation. -/
theorem issued_once {front before replies own : List Reply} {issuing reply : Reply}
    (split : front ++ issuing :: replies = before ++ reply :: own)
    (issues : reply.issued? = some identity) (none_before : ∀ r ∈ front, r.issued? = none)
    (none_after : ∀ r ∈ replies, r.issued? = none) :
    issuing.issued? = some identity ∧ replies = own := by
  have not_before : reply ∉ front := fun member => by simp [none_before reply member] at issues
  have not_after : reply ∉ replies := fun member => by simp [none_after reply member] at issues
  obtain ⟨-, rfl, rfl⟩ := (List.append_cons_inj_of_notMem not_before not_after).1 split
  exact ⟨issues, rfl⟩

theorem none_issued_split {before replies own : List Reply} {reply : Reply}
    (split : replies = before ++ reply :: own) (issues : reply.issued? = some identity) :
    ∃ r ∈ replies, r.issued? ≠ none :=
  ⟨reply, by simp [split], by simp [issues]⟩

theorem Step.accepting {own : List Reply} (step : Step c op exchanges after)
    (adopts : Adopts identity ⟨op, exchanges.map (·.reply)⟩ own)
    (usable : identity.usableCredential? = some credential) :
    ∃ ready asked, own = asked.map (·.reply) ∧ Accepting identity ready asked after := by
  cases step with
  -- The backend issues nothing in these, so nothing can have been adopted.
  | fresh | expired =>
    obtain ⟨before, bearer, split⟩ := adopts
    simpa [Reply.issued?] using none_issued_split split rfl
  | denied =>
    obtain ⟨before, email, password, split⟩ := adopts
    simpa [Reply.issued?] using none_issued_split split rfl
  | @dismissed _ loaded _ _ _ stored accepting =>
    obtain ⟨before, bearer, split⟩ := adopts
    have unsplit : [.load loaded] ++ _ :: _ = before ++ _ :: own := split
    obtain ⟨same, -⟩ := issued_once unsplit rfl (by simp [Reply.issued?]) (by simp [Reply.issued?])
    cases Option.some_inj.1 same
    cases accepting with
    | refused unusable => simp [usable] at unusable
  | @resumed _ loaded _ _ _ stored taken accepting =>
    obtain ⟨before, bearer, split⟩ := adopts
    have unsplit : [.load loaded] ++ _ :: _ = before ++ _ :: own := split
    obtain ⟨same, rfl⟩ := issued_once unsplit rfl (by simp [Reply.issued?]) accepting.none_issued
    cases Option.some_inj.1 same
    exact ⟨_, _, rfl, accepting⟩
  | issued accepting =>
    obtain ⟨before, email, password, split⟩ := adopts
    have unsplit : [] ++ _ :: _ = before ++ _ :: own := split
    obtain ⟨same, rfl⟩ := issued_once unsplit rfl (by simp) accepting.none_issued
    cases Option.some_inj.1 same
    exact ⟨_, _, rfl, accepting⟩
  | accepted accepting =>
    obtain ⟨rfl, rfl⟩ := adopts
    exact ⟨c, exchanges, rfl, accepting⟩
  | refreshed | ended | dropped | linkAsked | passwordReset => exact adopts.elim

theorem Step.adopts_of_local (step : Step c op exchanges after) (settles : op.settles = true)
    (somebody : after.state.local? = some identity) :
    ∃ own, Adopts identity ⟨op, exchanges.map (·.reply)⟩ own ∧
      ∃ credential, identity.usableCredential? = some credential := by
  cases step with
  | fresh | expired | denied | ended | dropped =>
    simp [Controller.transition, Controller.publish, State.local?] at somebody
  | dismissed stored accepting =>
    obtain ⟨rfl, usable⟩ := accepting.local_eq somebody
    exact ⟨_, ⟨[_], _, rfl⟩, usable⟩
  | resumed stored taken accepting =>
    obtain ⟨rfl, usable⟩ := accepting.local_eq somebody
    exact ⟨_, ⟨[_], _, rfl⟩, usable⟩
  | issued accepting =>
    obtain ⟨rfl, usable⟩ := accepting.local_eq somebody
    exact ⟨_, ⟨[], _, _, rfl⟩, usable⟩
  | accepted accepting =>
    obtain ⟨rfl, usable⟩ := accepting.local_eq somebody
    exact ⟨_, ⟨rfl, rfl⟩, usable⟩
  | refreshed | linkAsked | passwordReset => simp [Operation.settles] at settles

theorem Controller.told_state (c : Controller) (success : String)
    (answer : Except BackendFailure Unit) :
    (c.told success answer).state = c.state ∧ (c.told success answer).bearer? = c.bearer? := by
  cases answer <;> exact ⟨rfl, rfl⟩

theorem Step.knows {remote? : Option RemoteIdentity} (step : Step c op exchanges after)
    (quiet : op.settles = false) (knows : Knows c identity credential remote?) :
    Knows after identity credential
      ((latestConfirmation? identity credential (exchanges.map (·.reply))).or remote?) := by
  cases step with
  | refreshed refreshing => exact refreshing.knows knows
  | linkAsked | passwordReset =>
    simpa [latestConfirmation?, Reply.confirmation?, Knows, Controller.told_state] using knows
  | _ => simp [Operation.settles] at quiet

theorem Step.local_eq (step : Step c op exchanges after) (quiet : op.settles = false) :
    after.state.local? = c.state.local? := by
  cases step with
  | refreshed refreshing => exact refreshing.local_eq
  | linkAsked | passwordReset => rw [(Controller.told_state ..).1]
  | _ => simp [Operation.settles] at quiet

theorem Adopts.settles {e : Episode} {own : List Reply} (adopts : Adopts identity e own) :
    e.op.settles = true := by
  obtain ⟨op, replies⟩ := e
  cases op with
  | start | login | accept => rfl
  | refresh | logout | sendResetLink | resetPassword => exact adopts.elim

/-- An operation that settles nothing only adds its answers. -/
theorem standing_quiet {e : Episode} (quiet : e.op.settles = false) :
    Standing identity credential (past ++ [e]) since ↔
      ∃ earlier, Standing identity credential past earlier ∧ since = earlier ++ e.replies := by
  constructor
  · rintro ⟨held, filled, before, last, later, own, split, adopts, unsettled, rfl⟩
    rcases List.eq_nil_or_concat later with rfl | ⟨later, final, rfl⟩
    · obtain ⟨-, rfl⟩ := List.append_singleton_inj.1 split
      simp [adopts.settles] at quiet
    · rw [List.concat_eq_append, ← List.cons_append, ← List.append_assoc] at split
      obtain ⟨rfl, rfl⟩ := List.append_singleton_inj.1 split
      refine ⟨own ++ later.flatMap (·.replies), ⟨held, filled, before, last, later, own, rfl,
        adopts, fun e member => unsettled e (by simp [member]), rfl⟩, by simp⟩
  · rintro ⟨earlier, ⟨held, filled, before, last, later, own, rfl, adopts, unsettled, rfl⟩, rfl⟩
    refine ⟨held, filled, before, last, later ++ [e], own, by simp, adopts, ?_, by simp⟩
    intro other member
    rcases List.mem_append.1 member with member | member
    · exact unsettled other member
    · exact List.mem_singleton.1 member ▸ quiet

/-- One that settles leaves only what it adopts itself. -/
theorem standing_settled {e : Episode} (settles : e.op.settles = true) :
    Standing identity credential (past ++ [e]) since ↔
      identity.usableCredential? = some credential ∧ Adopts identity e since := by
  rw [usableCredential?_eq_some_iff]
  constructor
  · rintro ⟨held, filled, before, last, later, own, split, adopts, unsettled, rfl⟩
    rcases List.eq_nil_or_concat later with rfl | ⟨later, final, rfl⟩
    · obtain ⟨-, rfl⟩ := List.append_singleton_inj.1 split
      exact ⟨⟨held, filled⟩, by simpa using adopts⟩
    · rw [List.concat_eq_append, ← List.cons_append, ← List.append_assoc] at split
      obtain ⟨-, rfl⟩ := List.append_singleton_inj.1 split
      simp [unsettled e (by simp)] at settles
  · rintro ⟨⟨held, filled⟩, adopts⟩
    exact ⟨held, filled, past, e, [], since, rfl, adopts, by simp, by simp⟩

end

/-- The session agrees with its history. -/
structure Tracks (past : List Episode) (c : Controller) : Prop where
  knows : ∀ {identity credential since}, Standing identity credential past since →
    Knows c identity credential (latestConfirmation? identity credential since)
  stands : ∀ {identity}, c.state.local? = some identity →
    ∃ credential since, Standing identity credential past since

theorem Tracks.opening (policy : LogoutPolicy) : Tracks [] (.initial policy) where
  knows standing := by
    obtain ⟨before, last, after, own, split, -⟩ := standing.adopted
    simp at split
  stands somebody := by simp [Controller.initial, State.local?] at somebody

theorem Tracks.step (past : List Episode) (c : Controller) (op : Operation)
    (exchanges : List Exchange) (after : Controller) (tracks : Tracks past c)
    (step : Step c op exchanges after) :
    Tracks (past ++ [⟨op, exchanges.map (·.reply)⟩]) after := by
  -- An operation that settles starts afresh; any other only adds to the answers since the adoption.
  by_cases settles : op.settles = true
  · constructor
    · intro identity credential since standing
      obtain ⟨usable, adopts⟩ := (standing_settled settles).1 standing
      obtain ⟨ready, asked, rfl, accepting⟩ := step.accepting adopts usable
      exact accepting.knows usable
    · intro identity somebody
      obtain ⟨own, adopts, credential, usable⟩ := step.adopts_of_local settles somebody
      exact ⟨credential, own, (standing_settled settles).2 ⟨usable, adopts⟩⟩
  · have quiet := Bool.eq_false_iff.2 settles
    constructor
    · intro identity credential since standing
      obtain ⟨earlier, stood, rfl⟩ := (standing_quiet quiet).1 standing
      rw [latestConfirmation?_append]
      exact step.knows quiet (tracks.knows stood)
    · intro identity somebody
      rw [step.local_eq quiet] at somebody
      obtain ⟨credential, earlier, standing⟩ := tracks.stands somebody
      exact ⟨credential, _, (standing_quiet quiet).2 ⟨earlier, standing, rfl⟩⟩

theorem tracks_run (others : Collaborators σ) (ops : List Operation) (policy : LogoutPolicy)
    (world : σ) : Tracks (history others ops (opening policy world))
      (run others ops (opening policy world)).controller :=
  history_invariant others Tracks.step ops [] (opening policy world) (.opening policy)

/-- However the others answer and whatever came before, a session is authenticated exactly if the
identity that was adopted last has been confirmed by the directory since, and the latest such answer
is the remote identity that it holds. -/
theorem authenticated_iff_confirmed (others : Collaborators σ) (ops : List Operation)
    (policy : LogoutPolicy) (world : σ) (identity : LocalIdentity) (remote : RemoteIdentity) :
    (run others ops (opening policy world)).controller.state = .authenticated identity remote ↔
      ∃ credential since,
        Standing identity credential (history others ops (opening policy world)) since ∧
          latestConfirmation? identity credential since = some remote := by
  have tracks := tracks_run others ops policy world
  constructor
  · intro authenticated
    obtain ⟨credential, since, standing⟩ := tracks.stands (congrArg State.local? authenticated)
    refine ⟨credential, since, standing, ?_⟩
    have known := (tracks.knows standing).1
    rw [authenticated] at known
    cases latest : latestConfirmation? identity credential since with
    | none => simp [latest, State.ofConfirmation] at known
    | some confirmed => simpa [latest, State.ofConfirmation, eq_comm] using known
  · rintro ⟨credential, since, standing, confirmed⟩
    simpa [confirmed, State.ofConfirmation] using (tracks.knows standing).1

end CredentialGate.Session
