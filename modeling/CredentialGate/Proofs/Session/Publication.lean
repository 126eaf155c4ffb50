import CredentialGate.Proofs.Session.Confirmation

/-! What the watchers of a session see. Fields change without being published, in the middle of an
operation; but whenever a backend is being asked, and when an operation is over, the snapshot that
was published last is the one that the fields give. -/
namespace CredentialGate.Session

/-- The channel shows the session as it is. -/
def Controller.Shown (c : Controller) : Prop := c.channel.latest = c.snapshot

/-- Nothing is under way, and the channel shows it. -/
structure AtRest (c : Controller) : Prop where
  shown : c.Shown
  idle : c.loading = false
  done : c.resuming = false
  checked : c.state.kind ≠ .validating

/-- A backend is asked while the channel shows the session as it is. A stored credential is checked
behind a session that is loading and not to be rendered. -/
structure Noted.Visible (noted : Noted) : Prop where
  shown : noted.call.isOutgoing = true → noted.during.Shown
  guarded : ∀ bearer, noted.call = .whoami bearer →
    noted.during.channel.latest = ⟨.validating, false, true, noted.during.message, false⟩

section

variable {c after : Controller} {op : Operation} {exchanges : List Exchange}
  {identity : LocalIdentity}

theorem shown_publish (c : Controller) : c.publish.Shown := rfl

theorem shown_transition (next : State) (c : Controller) : (c.transition next).Shown := rfl

theorem AtRest.transition {next : State} (idle : c.loading = false) (done : c.resuming = false)
    (checked : next.kind ≠ .validating) : AtRest (c.transition next) :=
  ⟨shown_transition next c, idle, done, checked⟩

/-- A call that is not of a check is seen if the session is shown meanwhile. -/
theorem visible_of_shown {reply : Reply} {during : Controller}
    (unchecked : reply.call.presented? = none) (shown : during.Shown) :
    (Exchange.noted ⟨reply, during⟩).Visible where
  shown _ := shown
  guarded bearer called := by
    have same : reply.call = .whoami bearer := called
    simp [same, Call.presented?] at unchecked

/-- Watchers are told nothing of a call to the slot. -/
theorem visible_of_local {reply : Reply} {during : Controller}
    (inside : reply.call.isOutgoing = false) : (Exchange.noted ⟨reply, during⟩).Visible where
  shown outgoing := by
    have leaves : reply.call.isOutgoing = true := outgoing
    simp [inside] at leaves
  guarded bearer called := by
    have same : reply.call = .whoami bearer := called
    simp [same, Call.isOutgoing] at inside

theorem visible_checking {credential : Credential}
    {answer : Except BackendFailure LocalIdentity} :
    (Exchange.noted ⟨.whoami credential answer, c.checking⟩).Visible :=
  ⟨fun _ => rfl, fun _ _ => rfl⟩

/-- A check that ends with the slot being cleared. -/
theorem visible_dismissal {d : Controller} {loaded : Except SlotFailure (Option Credential)}
    {credential : Credential} {answer : Except BackendFailure LocalIdentity}
    {cleared : Except SlotFailure Unit} :
    ∀ e ∈ [⟨.load loaded, c⟩, ⟨.whoami credential answer, c.checking⟩, ⟨.clear cleared, d⟩],
      (Exchange.noted e).Visible := by
  rw [List.forall_mem_cons, List.forall_mem_cons, List.forall_mem_singleton]
  exact ⟨visible_of_local rfl, visible_checking, visible_of_local rfl⟩

/-- Asking the directory shows what it does to the session, which begins nothing. -/
theorem Refreshing.atRest (refreshing : Refreshing c exchanges after) (rest : AtRest c) :
    AtRest after ∧ (after.state.kind = .unresolved ↔ c.state.kind = .unresolved) ∧
      ∀ e ∈ exchanges, e.noted.Visible := by
  cases refreshing with
  | unheld => exact ⟨rest, Iff.rfl, by simp⟩
  | unconfirmed =>
    exact ⟨rest, Iff.rfl, List.forall_mem_singleton.2 (visible_of_shown rfl rest.shown)⟩
  | confirmed held =>
    have begun : c.state.kind ≠ .unresolved := by
      rcases (State.isSome_local?_iff _).1 (Option.isSome_of_eq_some held) with kind | kind <;>
        simp [kind]
    refine ⟨.transition rest.idle rest.done (by simp [State.kind]), ?_,
      List.forall_mem_singleton.2 (visible_of_shown rfl rest.shown)⟩
    rw [Controller.transition_state, iff_false_right begun]
    simp [State.kind]

/-- An identity that is issued to a session with nothing else under way leaves it at rest, even if
its fields have not been published yet. -/
theorem Accepting.atRest (accepting : Accepting identity c exchanges after)
    (idle : c.loading = false) (done : c.resuming = false) :
    AtRest after ∧ after.state.kind ≠ .unresolved ∧ ∀ e ∈ exchanges, e.noted.Visible := by
  cases accepting with
  | refused =>
    refine ⟨.transition idle done (by simp [State.kind]), ?_, by simp⟩
    simp [State.kind]
  | adopted usable refreshing =>
    obtain ⟨rest, begun, visible⟩ :=
      refreshing.atRest (.transition idle done (by simp [State.kind]))
    refine ⟨rest, ?_, List.forall_mem_cons.2 ⟨visible_of_local rfl, visible⟩⟩
    rw [Ne, begun]
    simp [State.kind]

theorem told_atRest (success : String) (answer : Except BackendFailure Unit) (rest : AtRest c) :
    AtRest (c.told success answer) := by
  cases answer with
  | ok | error => exact ⟨shown_publish _, rfl, rest.done, rest.checked⟩

/-- Leaving for good is the last thing that an operation does. -/
theorem left_atRest (idle : c.loading = false) (done : c.resuming = false) :
    AtRest (c.transition .unauthenticated) ∧
      (c.transition .unauthenticated).state.kind ≠ .unresolved := by
  refine ⟨.transition idle done (by simp [State.kind]), ?_⟩
  simp [State.kind]

/-- What an operation makes of a session at rest: it is at rest again, it has begun if the operation
settles or it had begun before, and every call on the way can be watched. -/
structure Settling (c : Controller) (op : Operation) (exchanges : List Exchange)
    (after : Controller) : Prop where
  rest : AtRest after
  begun : after.state.kind = .unresolved ↔ c.state.kind = .unresolved ∧ op.settles = false
  visible : ∀ e ∈ exchanges, e.noted.Visible

theorem Settling.of_settles (settles : op.settles = true)
    (settled : AtRest after ∧ after.state.kind ≠ .unresolved)
    (visible : ∀ e ∈ exchanges, e.noted.Visible) : Settling c op exchanges after :=
  ⟨settled.1, by simp [settles, settled.2], visible⟩

theorem Settling.of_quiet (quiet : op.settles = false) (rest : AtRest after)
    (same : after.state.kind = .unresolved ↔ c.state.kind = .unresolved)
    (visible : ∀ e ∈ exchanges, e.noted.Visible) : Settling c op exchanges after :=
  ⟨rest, by simp [quiet, same], visible⟩

theorem Step.settling (step : Step c op exchanges after) (rest : AtRest c) :
    Settling c op exchanges after := by
  -- After a check or a login the session is at rest but for what the next transition publishes.
  cases step with
  | fresh =>
    exact .of_settles rfl (left_atRest rfl rest.done)
      (List.forall_mem_singleton.2 (visible_of_local rfl))
  | expired => exact .of_settles rfl (left_atRest rfl rfl) visible_dismissal
  | dismissed stored accepting =>
    obtain ⟨rested, begun, -⟩ := accepting.atRest rfl rfl
    exact .of_settles rfl ⟨rested, begun⟩ visible_dismissal
  | resumed stored taken accepting =>
    obtain ⟨rested, begun, visible⟩ := accepting.atRest rfl rfl
    refine .of_settles rfl ⟨rested, begun⟩ (List.forall_mem_cons.2 ⟨visible_of_local rfl, ?_⟩)
    exact List.forall_mem_cons.2 ⟨visible_checking, visible⟩
  | denied =>
    exact .of_settles rfl (left_atRest rfl rest.done)
      (List.forall_mem_singleton.2 (visible_of_shown rfl (shown_transition _ _)))
  | issued accepting =>
    obtain ⟨rested, begun, visible⟩ := accepting.atRest rfl rest.done
    refine .of_settles rfl ⟨rested, begun⟩ (List.forall_mem_cons.2 ⟨?_, visible⟩)
    exact visible_of_shown rfl (shown_transition _ _)
  | accepted accepting =>
    obtain ⟨rested, begun, visible⟩ := accepting.atRest rest.idle rest.done
    exact .of_settles rfl ⟨rested, begun⟩ visible
  | refreshed refreshing =>
    obtain ⟨rested, same, visible⟩ := refreshing.atRest rest
    exact .of_quiet rfl rested same visible
  | ended =>
    refine .of_settles rfl (left_atRest rest.idle rest.done) (List.forall_mem_cons.2 ⟨?_, ?_⟩)
    · exact visible_of_shown rfl rest.shown
    · exact List.forall_mem_singleton.2 (visible_of_local rfl)
  | dropped quiet =>
    refine .of_settles rfl (left_atRest rest.idle rest.done) (List.forall_mem_cons.2 ⟨?_, ?_⟩)
    · exact visible_of_shown rfl rest.shown
    · intro e member
      obtain ⟨cleared, rfl⟩ := only_clears quiet e member
      exact visible_of_local rfl
  | linkAsked | passwordReset =>
    refine .of_quiet rfl (told_atRest _ _ rest) (by rw [(c.told_state _ _).1]) ?_
    exact List.forall_mem_singleton.2 (visible_of_shown rfl (shown_publish _))

/-- A session at rest that has begun if one of its operations was to begin or to end one. -/
structure Begun (past : List Operation) (c : Controller) : Prop where
  rest : AtRest c
  begun : c.state.kind = .unresolved ↔ ∀ op ∈ past, op.settles = false

theorem Begun.opening (policy : LogoutPolicy) : Begun [] (.initial policy) where
  rest := ⟨rfl, rfl, rfl, by simp [Controller.initial, State.kind]⟩
  begun := by simp [Controller.initial, State.kind]

theorem Begun.step {past : List Operation} (held : Begun past c)
    (step : Step c op exchanges after) :
    Begun (past ++ [op]) after ∧ ∀ e ∈ exchanges, e.noted.Visible := by
  have settling := step.settling held.rest
  refine ⟨⟨settling.rest, ?_⟩, settling.visible⟩
  rw [settling.begun, held.begun]
  simp [or_imp, forall_and]

end

/-- However the others answer: after every run the channel shows the session as it is, nothing is
under way, and the session has begun exactly if an operation has that begins or ends one. Whenever a
backend is asked the channel shows the session as it then is, and a stored credential is checked
behind a session that is loading and not to be rendered. -/
theorem snapshots_never_lag (others : Collaborators σ) (ops : List Operation)
    (policy : LogoutPolicy) (world : σ) :
    let final := run others ops (opening policy world)
    let c := final.controller
    c.channel.latest = c.snapshot ∧ c.loading = false ∧ c.state.kind ≠ .validating ∧
    (c.state.kind = .unresolved ↔ ∀ op ∈ ops, op.settles = false) ∧
    (c.snapshot.renderReady = true ↔ ∃ op ∈ ops, op.settles = true) ∧
    ∀ noted ∈ final.calls,
      (noted.call.isOutgoing = true → noted.during.channel.latest = noted.during.snapshot) ∧
      ∀ bearer, noted.call = .whoami bearer →
        noted.during.channel.latest = ⟨.validating, false, true, noted.during.message, false⟩ := by
  intro final c
  obtain ⟨⟨rest, begun⟩, visible⟩ := run_invariant others
    (fun _ _ _ _ _ held step => Begun.step held step) ops [] (opening policy world)
    (.opening policy) (by simp [opening])
  have ready : c.snapshot.renderReady = true ↔ ¬ c.state.kind = .unresolved := by
    simp [Controller.snapshot, Controller.shouldRender, show c.resuming = false from rest.done]
  refine ⟨rest.shown, rest.idle, rest.checked, begun, ?_, ?_⟩
  · rw [ready, begun]
    simp
  · exact fun noted member => ⟨(visible noted member).shown, (visible noted member).guarded⟩

end CredentialGate.Session
