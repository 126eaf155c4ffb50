import CredentialGate.Proofs.Session.Confirmation
import Mathlib.Data.List.Induction

/-! The bearer of a session and its local identity live and die together. Between operations, and
while the directory is asked, the bearer is the credential of the identity. It is given up before a
logout is sent, so the invariant does not hold within one. -/
namespace CredentialGate.Session

/-- The bearer is the usable credential of the local identity, if there is an identity. -/
inductive Holding (c : Controller) : Prop
  | nobody : c.state.local? = none → c.bearer? = none → Holding c
  | somebody {identity : LocalIdentity} {credential : Credential} :
      c.state.local? = some identity → identity.usableCredential? = some credential →
      c.bearer? = some credential → Holding c

/-- The call carries no credential but the one of the identity that the session has meanwhile. -/
def Noted.Bears (noted : Noted) : Prop :=
  match noted.call with
  | .fetchUser authority name bearer? =>
    ∃ identity credential, noted.during.state.local? = some identity ∧
      authority = identity.authority ∧ name = identity.name ∧
      identity.credential? = some credential ∧ credential.token ≠ "" ∧ bearer? = some credential
  | .logout bearer? => bearer? = noted.during.state.local?.bind (·.usableCredential?)
  | _ => True

/-- If a credential is presented for a check, it has just been loaded, it is not empty, and no other
one is presented. -/
inductive Episode.PresentsLoaded (e : Episode) : Prop
  | nothing : (∀ reply ∈ e.replies, reply.call.presented? = none) → PresentsLoaded e
  | loaded {bearer : Credential} {answer : Except BackendFailure LocalIdentity}
      {later : List Reply} :
      e.replies = .load (.ok (some bearer)) :: .whoami bearer answer :: later →
      bearer.token ≠ "" → (∀ reply ∈ later, reply.call.presented? = none) → PresentsLoaded e

/-- The operation was to begin or to end the session of an identity, and has left none that has a
credential: a logout, or an operation that no usable identity was issued to. -/
def Episode.LeavesNobody (e : Episode) : Prop :=
  e.op.settles = true ∧
    ∀ identity own, Adopts identity e own → identity.usableCredential? = none

section

variable {c d after : Controller} {op : Operation} {exchanges : List Exchange}
  {identity : LocalIdentity} {credential : Credential}

theorem Holding.bearer_eq (holding : Holding c) :
    c.bearer? = c.state.local?.bind (·.usableCredential?) := by
  cases holding with
  | nobody unheld unborne => simp [unheld, unborne]
  | somebody held usable borne => simp [held, usable, borne]

theorem Holding.isSome_iff (holding : Holding c) :
    c.bearer?.isSome ↔ c.state.kind = .localOnly ∨ c.state.kind = .authenticated := by
  rw [← State.isSome_local?_iff]
  cases holding with
  | nobody unheld unborne => simp [unheld, unborne]
  | somebody held usable borne => simp [held, borne]

theorem Holding.filled (holding : Holding c) (borne : c.bearer? = some credential) :
    credential.token ≠ "" := by
  cases holding with
  | nobody unheld unborne => simp [unborne] at borne
  | somebody held usable bearer =>
    rw [bearer, Option.some_inj] at borne
    subst borne
    exact ((usableCredential?_eq_some_iff _ _).1 usable).2

/-- What counts for the bearer is the local identity, whether it has been confirmed or not. -/
theorem Holding.congr (holding : Holding c) (same : d.state.local? = c.state.local?)
    (kept : d.bearer? = c.bearer?) : Holding d := by
  cases holding with
  | nobody unheld unborne => exact .nobody (same.trans unheld) (kept.trans unborne)
  | somebody held usable borne => exact .somebody (same.trans held) usable (kept.trans borne)

theorem Refreshing.bearer_eq (refreshing : Refreshing c exchanges after) :
    after.bearer? = c.bearer? := by
  cases refreshing with
  | unheld | confirmed | unconfirmed => rfl

theorem Refreshing.bears (refreshing : Refreshing c exchanges after) (holding : Holding c) :
    ∀ e ∈ exchanges, e.noted.Bears := by
  have asked {known : LocalIdentity} (held : c.state.local? = some known)
      (answer : Except BackendFailure RemoteIdentity) :
      Noted.Bears (Exchange.noted ⟨.fetchUser known.authority known.name c.bearer? answer, c⟩) := by
    cases holding with
    | nobody unheld => simp [held] at unheld
    | somebody present usable borne =>
      rw [held, Option.some_inj] at present
      subst present
      obtain ⟨owned, filled⟩ := (usableCredential?_eq_some_iff _ _).1 usable
      exact ⟨known, _, held, rfl, rfl, owned, filled, borne⟩
  intro e member
  cases refreshing with
  | unheld => simp at member
  | confirmed held | unconfirmed held =>
    rw [List.mem_singleton] at member
    subst member
    exact asked held _

/-- Whatever the session was before, an identity that is issued leaves it with its bearer or with
none. -/
theorem Accepting.holding (accepting : Accepting identity c exchanges after) :
    Holding after ∧ ∀ e ∈ exchanges, e.noted.Bears := by
  cases accepting with
  | refused => exact ⟨.nobody rfl rfl, by simp⟩
  | adopted usable refreshing =>
    have opened : Holding ({ c with bearer? := some _ }.transition (.localOnly identity)) :=
      .somebody rfl usable rfl
    refine ⟨opened.congr refreshing.local_eq refreshing.bearer_eq, ?_⟩
    intro e member
    rcases List.mem_cons.1 member with rfl | member
    · trivial
    · exact refreshing.bears opened e member

theorem Step.holding (step : Step c op exchanges after) (holding : Holding c) :
    Holding after ∧ ∀ e ∈ exchanges, e.noted.Bears := by
  -- A logout is sent while the identity is still there, so it must carry what the bearer was.
  have departing (answer : Except BackendFailure Unit) :
      Noted.Bears (Exchange.noted ⟨.logout c.bearer? answer, c.leaving⟩) := holding.bearer_eq
  cases step with
  | fresh => exact ⟨.nobody rfl rfl, List.forall_mem_singleton.2 trivial⟩
  | expired => exact ⟨.nobody rfl rfl, by simp [Noted.Bears, Exchange.noted, Reply.call]⟩
  | denied => exact ⟨.nobody rfl rfl, List.forall_mem_singleton.2 trivial⟩
  | dismissed stored accepting =>
    exact ⟨accepting.holding.1, by simp [Noted.Bears, Exchange.noted, Reply.call]⟩
  | resumed stored taken accepting =>
    obtain ⟨held, bear⟩ := accepting.holding
    exact ⟨held, List.forall_mem_cons.2 ⟨trivial, List.forall_mem_cons.2 ⟨trivial, bear⟩⟩⟩
  | issued accepting =>
    obtain ⟨held, bear⟩ := accepting.holding
    exact ⟨held, List.forall_mem_cons.2 ⟨trivial, bear⟩⟩
  | accepted accepting => exact accepting.holding
  | refreshed refreshing =>
    exact ⟨holding.congr refreshing.local_eq refreshing.bearer_eq, refreshing.bears holding⟩
  | ended =>
    refine ⟨.nobody rfl rfl, List.forall_mem_cons.2 ⟨departing _, ?_⟩⟩
    exact List.forall_mem_singleton.2 trivial
  | dropped quiet =>
    refine ⟨.nobody rfl rfl, List.forall_mem_cons.2 ⟨departing _, fun e member => ?_⟩⟩
    obtain ⟨cleared, rfl⟩ := only_clears quiet e member
    trivial
  | linkAsked | passwordReset =>
    obtain ⟨state, bearer⟩ := c.told_state _ _
    exact ⟨holding.congr (congrArg State.local? state) bearer, List.forall_mem_singleton.2 trivial⟩

theorem Refreshing.none_presented (refreshing : Refreshing c exchanges after) :
    ∀ reply ∈ exchanges.map (·.reply), reply.call.presented? = none := by
  cases refreshing <;> simp [Reply.call, Call.presented?]

/-- No credential is presented for a check while an identity is being adopted. -/
theorem Accepting.none_presented (accepting : Accepting identity c exchanges after) :
    ∀ reply ∈ exchanges.map (·.reply), reply.call.presented? = none := by
  cases accepting with
  | refused => simp
  | adopted usable refreshing => exact List.forall_mem_cons.2 ⟨rfl, refreshing.none_presented⟩

theorem storedCredential?_eq_some_iff (loaded : Except SlotFailure (Option Credential)) :
    storedCredential? loaded = some credential ↔
      loaded = .ok (some credential) ∧ credential.token ≠ "" := by
  cases loaded with
  | error e => simp [storedCredential?, Except.toOption]
  | ok held? =>
    simp [storedCredential?, Except.toOption, Option.filter_eq_some_iff, Credential.isEmpty]

theorem Step.presents (step : Step c op exchanges after) :
    Episode.PresentsLoaded ⟨op, exchanges.map (·.reply)⟩ := by
  cases step with
  | fresh => exact .nothing (List.forall_mem_singleton.2 rfl)
  | expired stored =>
    obtain ⟨rfl, filled⟩ := (storedCredential?_eq_some_iff _).1 stored
    exact .loaded rfl filled (List.forall_mem_singleton.2 rfl)
  | dismissed stored accepting =>
    obtain ⟨rfl, filled⟩ := (storedCredential?_eq_some_iff _).1 stored
    exact .loaded rfl filled (List.forall_mem_singleton.2 rfl)
  | resumed stored taken accepting =>
    obtain ⟨rfl, filled⟩ := (storedCredential?_eq_some_iff _).1 stored
    exact .loaded rfl filled accepting.none_presented
  | denied => exact .nothing (List.forall_mem_singleton.2 rfl)
  | issued accepting => exact .nothing (List.forall_mem_cons.2 ⟨rfl, accepting.none_presented⟩)
  | accepted accepting => exact .nothing accepting.none_presented
  | refreshed refreshing => exact .nothing refreshing.none_presented
  | ended => exact .nothing (by simp [Reply.call, Call.presented?])
  | dropped quiet =>
    refine .nothing (List.forall_mem_cons.2 ⟨rfl, List.forall_mem_map.2 fun e member => ?_⟩)
    obtain ⟨cleared, rfl⟩ := only_clears quiet e member
    rfl
  | linkAsked | passwordReset => exact .nothing (List.forall_mem_singleton.2 rfl)

/-- A logout begins with the call that takes the bearer away. -/
theorem Step.logout_call (step : Step c .logout exchanges after) :
    ∃ answer rest, exchanges = ⟨.logout c.bearer? answer, c.leaving⟩ :: rest := by
  cases step with
  | ended | dropped => exact ⟨_, _, rfl⟩

/-- Operations that settle nothing leave the one before them the last that did. -/
theorem standing_since {past quiet : List Episode} {last : Episode} {since : List Reply}
    (unsettled : ∀ e ∈ quiet, e.op.settles = false)
    (standing : Standing identity credential (past ++ last :: quiet) since) :
    ∃ own, Standing identity credential (past ++ [last]) own := by
  induction quiet using List.reverseRecOn generalizing since with
  | nil => exact ⟨since, standing⟩
  | append_singleton quiet e ih =>
    rw [← List.cons_append, ← List.append_assoc] at standing
    obtain ⟨earlier, stood, -⟩ := (standing_quiet (unsettled e (by simp))).1 standing
    exact ih (fun other member => unsettled other (by simp [member])) stood

theorem Tracks.nobody_left {past quiet : List Episode} {last : Episode}
    (tracks : Tracks (past ++ last :: quiet) c) (leaves : last.LeavesNobody)
    (unsettled : ∀ e ∈ quiet, e.op.settles = false) : c.state.local? = none := by
  cases held : c.state.local? with
  | none => rfl
  | some identity =>
    obtain ⟨credential, since, standing⟩ := tracks.stands held
    obtain ⟨own, stood⟩ := standing_since unsettled standing
    obtain ⟨usable, adopts⟩ := (standing_settled leaves.1).1 stood
    simp [leaves.2 identity own adopts] at usable

end

theorem holding_run (others : Collaborators σ) (ops : List Operation) (policy : LogoutPolicy)
    (world : σ) :
    Holding (run others ops (opening policy world)).controller ∧
      ∀ noted ∈ (run others ops (opening policy world)).calls, noted.Bears :=
  run_invariant others (P := fun _ c => Holding c)
    (fun _ _ _ _ _ holding step => step.holding holding) ops [] (opening policy world)
    (.nobody rfl rfl) (by simp [opening])

theorem presents_history (others : Collaborators σ) (ops : List Operation) (s : Situation σ) :
    ∀ episode ∈ history others ops s, episode.PresentsLoaded := by
  have all := history_invariant others (P := fun past _ => ∀ e ∈ past, e.PresentsLoaded)
    (fun past c op exchanges after holds step => by
      intro e member
      rcases List.mem_append.1 member with before | last
      · exact holds e before
      · exact List.mem_singleton.1 last ▸ step.presents)
    ops [] s (by simp)
  simpa using all

/-- However the others answer: after every run the bearer is the credential of the local identity,
if there is one; the directory is asked about the identity at hand and with its credential; what is
presented for a check has just been loaded; and a logout carries the credential of the identity that
it ends, which is none once nobody has been left. -/
theorem bearer_follows_identity (others : Collaborators σ) (ops : List Operation)
    (policy : LogoutPolicy) (world : σ) :
    let final := run others ops (opening policy world)
    let c := final.controller
    let past := history others ops (opening policy world)
    c.bearer? = c.state.local?.bind (·.usableCredential?) ∧
    (c.bearer?.isSome ↔ c.state.kind = .localOnly ∨ c.state.kind = .authenticated) ∧
    (∀ credential, c.bearer? = some credential → credential.token ≠ "") ∧
    (∀ noted ∈ final.calls, noted.Bears) ∧
    (∀ episode ∈ past, episode.PresentsLoaded) ∧
    ∃ answer rest, replies others .logout final = .logout c.bearer? answer :: rest ∧
      ∀ before last quiet, past = before ++ last :: quiet → last.LeavesNobody →
        (∀ e ∈ quiet, e.op.settles = false) → c.bearer? = none := by
  intro final c past
  obtain ⟨holding, bear⟩ := holding_run others ops policy world
  obtain ⟨exchanges, put, -, step⟩ := perform_step others .logout final
  obtain ⟨answer, rest, rfl⟩ := step.logout_call
  refine ⟨holding.bearer_eq, holding.isSome_iff, fun _ => holding.filled, bear,
    presents_history others ops _, answer, rest.map Exchange.reply, put, ?_⟩
  intro before last quiet split leaves unsettled
  have tracks : Tracks (before ++ last :: quiet) c := split ▸ tracks_run others ops policy world
  rw [holding.bearer_eq, tracks.nobody_left leaves unsettled]
  rfl

end CredentialGate.Session
