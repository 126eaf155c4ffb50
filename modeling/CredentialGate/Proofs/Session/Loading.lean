import CredentialGate.Proofs.Session.Publication
import CredentialGate.Session.Script

/-! The loading flag. A session raises it before it asks the primary backend for anything, shows it
to its watchers until the answer has come, and takes it down again. Only the end of a session is
asked for with the flag down. -/
namespace CredentialGate.Session

/-- The call goes to the primary backend. -/
def Call.isPrimary : Call → Bool
  | .login _ _ | .whoami _ | .logout _ | .sendResetLink _ | .resetPassword _ => true
  | _ => false

/-- While the primary backend is asked the flag is up, unless it is asked to end the session. -/
structure Noted.Flagged (noted : Noted) : Prop where
  raised : noted.call.isPrimary = true → (∀ bearer?, noted.call ≠ .logout bearer?) →
    noted.during.loading = true
  lowered : ∀ bearer?, noted.call = .logout bearer? → noted.during.loading = false

section

variable {c after : Controller} {op : Operation} {exchanges : List Exchange} {reply : Reply}
  {during : Controller}

theorem Call.isPrimary_isOutgoing {call : Call} (primary : call.isPrimary = true) :
    call.isOutgoing = true := by
  cases call <;> simp_all [Call.isPrimary, Call.isOutgoing]

/-- Whether the flag is up while others are asked is of no account. -/
theorem flagged_of_secondary (secondary : reply.call.isPrimary = false) :
    (Exchange.noted ⟨reply, during⟩).Flagged where
  raised primary _ := by
    have asked : reply.call.isPrimary = true := primary
    simp [secondary] at asked
  lowered bearer? called := by
    have same : reply.call = .logout bearer? := called
    simp [same, Call.isPrimary] at secondary

theorem flagged_of_loading (staying : ∀ bearer?, reply.call ≠ .logout bearer?)
    (loading : during.loading = true) : (Exchange.noted ⟨reply, during⟩).Flagged where
  raised _ _ := loading
  lowered bearer? called := absurd called (staying bearer?)

theorem flagged_of_leaving {bearer? : Option Credential} (leaving : reply.call = .logout bearer?)
    (idle : during.loading = false) : (Exchange.noted ⟨reply, during⟩).Flagged where
  raised _ staying := absurd leaving (staying bearer?)
  lowered _ _ := idle

theorem Refreshing.flagged (refreshing : Refreshing c exchanges after) :
    ∀ e ∈ exchanges, e.noted.Flagged := by
  cases refreshing with
  | unheld => simp
  | confirmed | unconfirmed => exact List.forall_mem_singleton.2 (flagged_of_secondary rfl)

/-- Nothing is asked of the primary backend about an identity that it has issued. -/
theorem Accepting.flagged {identity : LocalIdentity}
    (accepting : Accepting identity c exchanges after) : ∀ e ∈ exchanges, e.noted.Flagged := by
  cases accepting with
  | refused => simp
  | adopted usable refreshing =>
    exact List.forall_mem_cons.2 ⟨flagged_of_secondary rfl, refreshing.flagged⟩

/-- A session that is not loading raises the flag for every call to the primary backend but for
the one that ends it. -/
theorem Step.flagged (step : Step c op exchanges after) (idle : c.loading = false) :
    ∀ e ∈ exchanges, e.noted.Flagged := by
  cases step with
  | fresh => exact List.forall_mem_singleton.2 (flagged_of_secondary rfl)
  | expired | dismissed =>
    rw [List.forall_mem_cons, List.forall_mem_cons, List.forall_mem_singleton]
    exact ⟨flagged_of_secondary rfl, flagged_of_loading (fun _ => Call.noConfusion) rfl,
      flagged_of_secondary rfl⟩
  | resumed stored taken accepting =>
    rw [List.forall_mem_cons, List.forall_mem_cons]
    exact ⟨flagged_of_secondary rfl, flagged_of_loading (fun _ => Call.noConfusion) rfl,
      accepting.flagged⟩
  | denied =>
    exact List.forall_mem_singleton.2 (flagged_of_loading (fun _ => Call.noConfusion) rfl)
  | issued accepting =>
    exact List.forall_mem_cons.2
      ⟨flagged_of_loading (fun _ => Call.noConfusion) rfl, accepting.flagged⟩
  | accepted accepting => exact accepting.flagged
  | refreshed refreshing => exact refreshing.flagged
  | ended =>
    exact List.forall_mem_cons.2 ⟨flagged_of_leaving rfl idle,
      List.forall_mem_singleton.2 (flagged_of_secondary rfl)⟩
  | dropped quiet =>
    refine List.forall_mem_cons.2 ⟨flagged_of_leaving rfl idle, fun e member => ?_⟩
    obtain ⟨cleared, rfl⟩ := only_clears quiet e member
    exact flagged_of_secondary rfl
  | linkAsked | passwordReset =>
    exact List.forall_mem_singleton.2 (flagged_of_loading (fun _ => Call.noConfusion) rfl)

/-- The channel shows the flag as it is whenever the primary backend is asked. -/
theorem Noted.Visible.loading_eq {noted : Noted} (visible : noted.Visible)
    (primary : noted.call.isPrimary = true) :
    noted.during.channel.latest.loading = noted.during.loading :=
  congrArg Snapshot.loading (visible.shown (Call.isPrimary_isOutgoing primary))

end

/-- However the others answer: whenever the primary backend is asked to log a user in, to check a
credential, to send a link or to set a password, the session is loading and its watchers are shown
that it is. While it is asked to end a session neither is so. After every operation nothing is
loading, and nothing is shown to be. -/
theorem loading_covers_calls (others : Collaborators σ) (ops : List Operation)
    (policy : LogoutPolicy) (world : σ) :
    let final := run others ops (opening policy world)
    (∀ noted ∈ final.calls, noted.call.isPrimary = true →
      (∀ bearer?, noted.call ≠ .logout bearer?) →
      noted.during.loading = true ∧ noted.during.channel.latest.loading = true) ∧
    (∀ noted ∈ final.calls, ∀ bearer?, noted.call = .logout bearer? →
      noted.during.loading = false ∧ noted.during.channel.latest.loading = false) ∧
    final.controller.loading = false ∧ final.controller.channel.latest.loading = false := by
  intro final
  have kept (past : List Operation) (c : Controller) (op : Operation) (exchanges : List Exchange)
      (after : Controller) (held : Begun past c) (step : Step c op exchanges after) :
      Begun (past ++ [op]) after ∧ ∀ e ∈ exchanges, e.noted.Visible ∧ e.noted.Flagged := by
    obtain ⟨begun, visible⟩ := held.step step
    exact ⟨begun, fun e member => ⟨visible e member, step.flagged held.rest.idle e member⟩⟩
  obtain ⟨held, noted⟩ := run_invariant others (P := Begun)
    (Q := fun noted => noted.Visible ∧ noted.Flagged) kept ops [] (opening policy world)
    (.opening policy) (by simp [opening])
  refine ⟨fun one member primary staying => ?_, fun one member bearer? called => ?_,
    held.rest.idle, ?_⟩
  · obtain ⟨visible, flagged⟩ := noted one member
    have raised := flagged.raised primary staying
    exact ⟨raised, (visible.loading_eq primary).trans raised⟩
  · obtain ⟨visible, flagged⟩ := noted one member
    have lowered := flagged.lowered bearer? called
    exact ⟨lowered, (visible.loading_eq (by rw [called]; rfl)).trans lowered⟩
  · exact (congrArg Snapshot.loading held.rest.shown).trans held.rest.idle

/-- A session that has been opened is ended while nobody is told that it is loading. -/
theorem logout_under_way_unshown :
    let identity : LocalIdentity := ⟨"alice", "alice@example.org", "lab", some ⟨"abc"⟩, []⟩
    let script : Script := { Script.silent with login := .ok identity }
    let final := run Stage.collaborators [.login "alice@example.org" "secret", .logout]
      (opening .retain ⟨script, .memory none, .empty⟩)
    (∃ noted ∈ final.calls, noted.call = .logout (some ⟨"abc"⟩) ∧
      noted.during.loading = false ∧ noted.during.channel.latest.loading = false) ∧
    ¬ ∀ noted ∈ final.calls, noted.call.isPrimary = true → noted.during.loading = true := by
  intro identity script final
  have asked : ∃ noted ∈ final.calls, noted.call = .logout (some ⟨"abc"⟩) ∧
      noted.during.loading = false ∧ noted.during.channel.latest.loading = false :=
    ⟨_, List.mem_of_getElem? (i := 3) rfl, rfl, rfl, rfl⟩
  refine ⟨asked, fun raised => ?_⟩
  obtain ⟨noted, member, called, idle, -⟩ := asked
  have loading := raised noted member (by rw [called]; rfl)
  rw [idle] at loading
  cases loading

end CredentialGate.Session
