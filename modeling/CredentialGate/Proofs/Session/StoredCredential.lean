import CredentialGate.Http.Collaborators
import CredentialGate.Proofs.Session.Answers
import CredentialGate.Proofs.Session.Bearer

/-! The credential that is stored, beside the session. A bearer is always the stored credential; a
stored credential may outlive its bearer, by a login that fails or a logout that is not confirmed.
So the relation goes one way only, except right after a start. The slot is one in memory. -/
namespace CredentialGate.Session

open Http Setting

/-- The same backends, with the credential in the slot of the setting. -/
def Collaborators.inSetting (others : Collaborators σ) : Collaborators (Setting σ) where
  login email password := overNetwork (others.login email password)
  whoami bearer := overNetwork (others.whoami bearer)
  logout bearer? := overNetwork (others.logout bearer?)
  sendResetLink email := overNetwork (others.sendResetLink email)
  resetPassword reset := overNetwork (others.resetPassword reset)
  fetchUser authority name bearer? := overNetwork (others.fetchUser authority name bearer?)
  load s := (s.slot.load s.tree, s)
  save credential := overSlot (·.save credential)
  clear := overSlot (·.clear)

/-- The credential that the slot of a setting holds. -/
def stored? (world : Setting σ) : Option Credential := (world.slot.load world.tree).toOption.join

/-- What an operation leaves in the slot, by what the primary backend answers. -/
def storedAfter (others : Collaborators σ) (policy : LogoutPolicy) (op : Operation)
    (s : Situation (Setting σ)) : Option Credential :=
  let held? := stored? s.world
  match op with
  | .start =>
    match held?.filter (!·.isEmpty) with
    | none => held?
    | some credential =>
      match (others.whoami credential s.world.network).1 with
      | .ok identity => identity.usableCredential?
      | .error _ => none
  | .login email password =>
    match (others.login email password s.world.network).1 with
    | .ok identity => identity.usableCredential?.or held?
    | .error _ => held?
  | .accept identity => identity.usableCredential?.or held?
  | .logout =>
    match (others.logout s.controller.bearer? s.world.network).1, policy with
    | .ok (), _ => none
    | .error _, .retain => held?
    | .error _, .clearOnFailure => none
  | .refresh | .sendResetLink _ | .resetPassword _ => held?

section

variable {others : Collaborators σ} {world final : Setting σ} {held? : Option Credential}
  {replies : List Reply}

theorem stored?_memory (memory : world.slot = .memory held?) : stored? world = held? := by
  simp [stored?, memory, Slot.load, Except.toOption]

theorem Told.outgoing {reply : Reply} (outgoing : reply.call.isOutgoing = true)
    (told : Told others.inSetting world (reply :: replies) final) :
    (others.answer reply.call world.network).1 = reply ∧
      ∃ next, next.slot = world.slot ∧ Told others.inSetting next replies final := by
  have passed : (others.answer reply.call world.network).1 =
        (others.inSetting.answer reply.call world).1 ∧
      (others.inSetting.answer reply.call world).2.slot = world.slot := by
    cases called : reply.call with
    | load | save | clear => simp [called, Call.isOutgoing] at outgoing
    | login | whoami | logout | sendResetLink | resetPassword | fetchUser => exact ⟨rfl, rfl⟩
  exact ⟨passed.1.trans told.1, _, passed.2, told.2⟩

theorem Told.loaded {answer : Except SlotFailure (Option Credential)}
    (memory : world.slot = .memory held?)
    (told : Told others.inSetting world (.load answer :: replies) final) :
    answer = .ok held? ∧ Told others.inSetting world replies final := by
  obtain ⟨given, later⟩ := told
  have same : Reply.load (world.slot.load world.tree) = .load answer := given
  rw [memory, Reply.load.injEq] at same
  exact ⟨same.symm, later⟩

theorem Told.saves {c : Credential} {answer : Except SlotFailure Unit} {world final : Setting σ}
    {replies : List Reply}
    (told : Told others.inSetting world (.save c answer :: replies) final) :
    let kept := (world.slot.save c world.tree).2
    Told others.inSetting { world with slot := kept.1, tree := kept.2 } replies final :=
  told.2

theorem Told.saved {credential : Credential} {answer : Except SlotFailure Unit}
    (memory : world.slot = .memory held?)
    (told : Told others.inSetting world (.save credential answer :: replies) final) :
    ∃ next, next.slot = .memory (some credential) ∧ Told others.inSetting next replies final := by
  refine ⟨_, ?_, told.saves⟩
  simp [memory, Slot.save]

/-- Nothing is asked once the slot has been cleared. -/
theorem Told.cleared {answer : Except SlotFailure Unit} (memory : world.slot = .memory held?)
    (told : Told others.inSetting world [.clear answer] final) : final.slot = .memory none := by
  rw [told.2.done]
  simp [Reply.call, Collaborators.answer, Collaborators.inSetting, overSlot, memory, Slot.clear]

theorem Told.alone {reply : Reply} (outgoing : reply.call.isOutgoing = true)
    (told : Told others.inSetting world [reply] final) :
    (others.answer reply.call world.network).1 = reply ∧ final.slot = world.slot := by
  obtain ⟨answered, next, kept, same⟩ := Told.outgoing outgoing told
  exact ⟨answered, by rw [same.done, kept]⟩

variable {c after : Controller} {identity : LocalIdentity} {exchanges : List Exchange}

theorem Refreshing.slot_eq (refreshing : Refreshing c exchanges after)
    (told : Told others.inSetting world (exchanges.map (·.reply)) final) :
    final.slot = world.slot := by
  cases refreshing with
  | unheld => rw [Told.done told]
  | confirmed | unconfirmed => exact (Told.alone rfl told).2

theorem Accepting.stores (accepting : Accepting identity c exchanges after)
    (memory : world.slot = .memory held?)
    (told : Told others.inSetting world (exchanges.map (·.reply)) final) :
    final.slot = .memory (identity.usableCredential?.or held?) ∧
      after.bearer? = identity.usableCredential? := by
  cases accepting with
  | refused unusable =>
    simp [Told.done told, memory, unusable]
  | adopted usable refreshing =>
    obtain ⟨next, saved, later⟩ := Told.saved memory told
    rw [refreshing.slot_eq later, saved, refreshing.bearer_eq, usable]
    exact ⟨rfl, rfl⟩

theorem Controller.told_policy (c : Controller) (success : String)
    (answer : Except BackendFailure Unit) : (c.told success answer).policy = c.policy := by
  cases answer <;> rfl

theorem Accepting.policy_eq (accepting : Accepting identity c exchanges after) :
    after.policy = c.policy := by
  cases accepting with
  | refused => rfl
  | adopted usable refreshing => cases refreshing <;> rfl

theorem Step.policy_eq {op : Operation} (step : Step c op exchanges after) :
    after.policy = c.policy := by
  cases step with
  | fresh | expired | denied | ended | dropped => rfl
  | dismissed stored accepting | resumed stored taken accepting | issued accepting
  | accepted accepting => exact accepting.policy_eq
  | refreshed refreshing => cases refreshing <;> rfl
  | linkAsked | passwordReset => exact c.told_policy _ _

end

section

variable {others : Collaborators σ} {s : Situation (Setting σ)} {final : Setting σ}
  {held? : Option Credential} {after : Controller} {exchanges : List Exchange}

/-- A stored credential that is presented is the one that the slot holds. -/
theorem Told.presented {world : Setting σ} {loaded : Except SlotFailure (Option Credential)}
    {credential : Credential} {answer : Except BackendFailure LocalIdentity}
    {replies : List Reply} (memory : world.slot = .memory held?)
    (stored : storedCredential? loaded = some credential)
    (told : Told others.inSetting world (.load loaded :: .whoami credential answer :: replies)
      final) :
    held?.filter (!·.isEmpty) = some credential ∧
      (others.whoami credential world.network).1 = answer ∧
      ∃ next, next.slot = .memory held? ∧ Told others.inSetting next replies final := by
  obtain ⟨rfl, checked⟩ := Told.loaded memory told
  obtain ⟨answered, next, kept, later⟩ := Told.outgoing rfl checked
  exact ⟨stored, (Reply.whoami.inj answered).2, next, kept.trans memory, later⟩

theorem usable_filter (identity : LocalIdentity) :
    identity.usableCredential?.filter (!·.isEmpty) = identity.usableCredential? := by
  simp [LocalIdentity.usableCredential?, Option.filter_filter]

/-- A start settles both: what it leaves in the slot is the bearer, unless that is empty. -/
theorem Step.start_stores (step : Step s.controller .start exchanges after)
    (memory : s.world.slot = .memory held?)
    (told : Told others.inSetting s.world (exchanges.map (·.reply)) final)
    (policy : LogoutPolicy) :
    final.slot = .memory (storedAfter others policy .start s) ∧
      after.bearer? = (storedAfter others policy .start s).filter (!·.isEmpty) := by
  simp only [storedAfter, stored?_memory memory]
  -- An adoption that takes place saves after the check; in the other branches the clearing is last.
  cases step with
  | fresh stored =>
    obtain ⟨rfl, same⟩ := Told.loaded memory told
    have empty : held?.filter (!·.isEmpty) = none := stored
    simp only [empty, Told.done same]
    exact ⟨memory, rfl⟩
  | expired stored =>
    obtain ⟨filled, refused, next, kept, later⟩ := Told.presented memory stored told
    simp only [filled, refused]
    exact ⟨Told.cleared kept later, rfl⟩
  | dismissed stored accepting =>
    obtain ⟨filled, issued, next, kept, later⟩ := Told.presented memory stored told
    simp only [filled, issued]
    cases accepting with
    | refused unusable =>
      rw [Told.cleared kept later, unusable]
      exact ⟨rfl, rfl⟩
  | resumed stored taken accepting =>
    obtain ⟨filled, issued, next, kept, later⟩ := Told.presented memory stored told
    obtain ⟨saved, borne⟩ := accepting.stores kept later
    simp only [filled, issued, usable_filter]
    obtain ⟨credential, usable⟩ := Option.isSome_iff_exists.1 taken
    refine ⟨?_, borne⟩
    rw [saved, usable]
    rfl

theorem Step.login_stores {email password : String}
    (step : Step s.controller (.login email password) exchanges after)
    (memory : s.world.slot = .memory held?)
    (told : Told others.inSetting s.world (exchanges.map (·.reply)) final)
    (policy : LogoutPolicy) :
    final.slot = .memory (storedAfter others policy (.login email password) s) ∧
      ∀ credential, after.bearer? = some credential →
        storedAfter others policy (.login email password) s = some credential := by
  simp only [storedAfter, stored?_memory memory]
  cases step with
  | denied =>
    obtain ⟨answered, kept⟩ := Told.alone rfl told
    simp only [(Reply.login.inj answered).2.2]
    exact ⟨kept.trans memory, by simp⟩
  | issued accepting =>
    obtain ⟨answered, next, kept, later⟩ := Told.outgoing rfl told
    obtain ⟨saved, borne⟩ := accepting.stores (kept.trans memory) later
    simp only [(Reply.login.inj answered).2.2]
    refine ⟨saved, fun credential bearer => ?_⟩
    simp [← borne, bearer]

theorem Step.logout_stores (step : Step s.controller .logout exchanges after)
    (memory : s.world.slot = .memory held?)
    (told : Told others.inSetting s.world (exchanges.map (·.reply)) final) :
    final.slot = .memory (storedAfter others s.controller.policy .logout s) ∧
      after.bearer? = none := by
  simp only [storedAfter, stored?_memory memory]
  cases step with
  | ended =>
    obtain ⟨answered, next, kept, later⟩ := Told.outgoing rfl told
    simp only [(Reply.logout.inj answered).2]
    exact ⟨Told.cleared (kept.trans memory) later, rfl⟩
  | dropped quiet =>
    obtain ⟨answered, next, kept, later⟩ := Told.outgoing rfl told
    simp only [(Reply.logout.inj answered).2]
    cases policy : s.controller.policy with
    | retain =>
      rw [if_neg (by simp [policy])] at quiet
      subst quiet
      exact ⟨by rw [Told.done later, kept, memory], rfl⟩
    | clearOnFailure =>
      rw [if_pos policy] at quiet
      obtain ⟨cleared, rfl⟩ := quiet
      exact ⟨Told.cleared (kept.trans memory) later, rfl⟩

/-- A call that only leaves a message leaves the slot and the bearer alone. -/
theorem told_stores {reply : Reply} {success : String} {answer : Except BackendFailure Unit}
    (outgoing : reply.call.isOutgoing = true) (memory : s.world.slot = .memory held?)
    (told : Told others.inSetting s.world [reply] final)
    (stored : ∀ credential, s.controller.bearer? = some credential → held? = some credential) :
    final.slot = .memory held? ∧
      ∀ credential, (s.controller.told success answer).bearer? = some credential →
        held? = some credential := by
  obtain ⟨-, kept⟩ := Told.alone outgoing told
  exact ⟨kept.trans memory, (s.controller.told_state _ _).2 ▸ stored⟩

/-- What the slot holds after an operation; and a bearer that has been stored stays so. -/
theorem Step.stores {op : Operation} (step : Step s.controller op exchanges after)
    (memory : s.world.slot = .memory held?)
    (told : Told others.inSetting s.world (exchanges.map (·.reply)) final)
    (stored : ∀ credential, s.controller.bearer? = some credential → held? = some credential) :
    final.slot = .memory (storedAfter others s.controller.policy op s) ∧
      ∀ credential, after.bearer? = some credential →
        storedAfter others s.controller.policy op s = some credential := by
  cases op with
  | start =>
    obtain ⟨slot, bearer⟩ := step.start_stores memory told s.controller.policy
    refine ⟨slot, fun credential borne => ?_⟩
    rw [bearer, Option.filter_eq_some_iff] at borne
    exact borne.1
  | login email password => exact step.login_stores memory told _
  | logout =>
    obtain ⟨slot, bearer⟩ := step.logout_stores memory told
    exact ⟨slot, by simp [bearer]⟩
  | accept identity =>
    simp only [storedAfter, stored?_memory memory]
    cases step with
    | accepted accepting =>
      obtain ⟨saved, borne⟩ := accepting.stores memory told
      refine ⟨saved, fun credential bearer => ?_⟩
      simp [← borne, bearer]
  | refresh =>
    simp only [storedAfter, stored?_memory memory]
    cases step with
    | refreshed refreshing =>
      exact ⟨(refreshing.slot_eq told).trans memory, refreshing.bearer_eq ▸ stored⟩
  | sendResetLink email =>
    simp only [storedAfter, stored?_memory memory]
    cases step with
    | linkAsked => exact told_stores rfl memory told stored
  | resetPassword reset =>
    simp only [storedAfter, stored?_memory memory]
    cases step with
    | passwordReset => exact told_stores rfl memory told stored

/-- A start presents the stored credential once, and calls nobody if there is none to present. -/
theorem Step.start_calls (step : Step s.controller .start exchanges after)
    (memory : s.world.slot = .memory held?)
    (told : Told others.inSetting s.world (exchanges.map (·.reply)) final) :
    match held?.filter (!·.isEmpty) with
    | some credential => exchanges.filterMap (·.reply.call.presented?) = [credential]
    | none => ∀ e ∈ exchanges, e.reply.call.isOutgoing = false := by
  cases step with
  | fresh stored =>
    obtain ⟨rfl, -⟩ := Told.loaded memory told
    have empty : held?.filter (!·.isEmpty) = none := stored
    rw [empty]
    exact List.forall_mem_singleton.2 rfl
  | expired stored | dismissed stored =>
    obtain ⟨filled, -⟩ := Told.presented memory stored told
    rw [filled]
    rfl
  | resumed stored taken accepting =>
    obtain ⟨filled, -⟩ := Told.presented memory stored told
    have none_later := accepting.none_presented
    rw [List.forall_mem_map, ← List.filterMap_eq_nil_iff] at none_later
    rw [filled]
    exact congrArg (_ :: ·) none_later

end

/-- The session and the slot, where a slot in memory holds every bearer. -/
structure Backed (policy : LogoutPolicy) (s : Situation (Setting σ)) : Prop where
  policy_eq : s.controller.policy = policy
  memory : ∃ held?, s.world.slot = .memory held?
  stored : ∀ credential, s.controller.bearer? = some credential →
    stored? s.world = some credential

section

variable (others : Collaborators σ) {policy : LogoutPolicy} {s : Situation (Setting σ)}

theorem Backed.perform (backed : Backed policy s) (op : Operation) :
    Backed policy (perform others.inSetting op s).2 ∧
      stored? (perform others.inSetting op s).2.world = storedAfter others policy op s := by
  obtain ⟨held?, memory⟩ := backed.memory
  obtain ⟨exchanges, told, -, step⟩ := perform_answered others.inSetting op s
  have stored := backed.stored
  rw [stored?_memory memory] at stored
  obtain ⟨slot, bearer⟩ := step.stores memory told stored
  rw [backed.policy_eq] at slot bearer
  refine ⟨⟨step.policy_eq.trans backed.policy_eq, ⟨_, slot⟩, ?_⟩, stored?_memory slot⟩
  rwa [stored?_memory slot]

theorem Backed.run (backed : Backed policy s) (ops : List Operation) :
    Backed policy (run others.inSetting ops s) := by
  induction ops generalizing s with
  | nil => exact backed
  | cons op ops ih => exact ih (backed.perform others op).1

theorem Backed.start (backed : Backed policy s) (credential : Credential) :
    let started := (Session.perform others.inSetting .start s).2
    started.controller.bearer? = some credential ↔
      stored? started.world = some credential ∧ credential.token ≠ "" := by
  obtain ⟨held?, memory⟩ := backed.memory
  obtain ⟨exchanges, told, -, step⟩ := perform_answered others.inSetting .start s
  obtain ⟨slot, bearer⟩ := step.start_stores memory told policy
  simp [stored?_memory slot, bearer, Option.filter_eq_some_iff, Credential.isEmpty]

theorem Backed.start_calls (backed : Backed policy s) :
    ∃ calls, (Session.perform others.inSetting .start s).2.calls = s.calls ++ calls ∧
      match (stored? s.world).filter (!·.isEmpty) with
      | some credential => calls.filterMap (·.call.presented?) = [credential]
      | none => ∀ noted ∈ calls, noted.call.isOutgoing = false := by
  obtain ⟨held?, memory⟩ := backed.memory
  obtain ⟨exchanges, told, noted, step⟩ := perform_answered others.inSetting .start s
  have asked := step.start_calls memory told
  refine ⟨_, noted, ?_⟩
  rw [stored?_memory memory]
  cases filled : held?.filter (!·.isEmpty) with
  | none =>
    rw [filled] at asked
    exact List.forall_mem_map.2 asked
  | some credential =>
    rw [filled] at asked
    exact List.filterMap_map.trans asked

end

/-- However the backends answer, over a slot in memory with any content: after every run the bearer
is the stored credential; after a start the two are the same, an empty credential apart; each
operation leaves in the slot what the answers say; and a session that is opened on what a run has
left presents the stored credential once, or calls nobody. -/
theorem stored_credential_follows (others : Collaborators σ) (policy : LogoutPolicy) (backends : σ)
    (held? : Option Credential) (tree : Files.Tree) (ops : List Operation) :
    let s := run others.inSetting ops (opening policy ⟨backends, .memory held?, tree⟩)
    (∀ credential, s.controller.bearer? = some credential →
      stored? s.world = some credential) ∧
    (∀ op, stored? (perform others.inSetting op s).2.world = storedAfter others policy op s) ∧
    (∀ credential, (perform others.inSetting .start s).2.controller.bearer? = some credential ↔
      stored? (perform others.inSetting .start s).2.world = some credential ∧
        credential.token ≠ "") ∧
    ∀ (τ : Type) (next : Collaborators τ) (rule : LogoutPolicy) (servers : τ),
      let fresh := opening rule ⟨servers, s.world.slot, s.world.tree⟩
      let calls := (perform next.inSetting .start fresh).2.calls
      match (stored? s.world).filter (!·.isEmpty) with
      | some credential => calls.filterMap (·.call.presented?) = [credential]
      | none => ∀ noted ∈ calls, noted.call.isOutgoing = false := by
  intro s
  have opened : Backed policy (opening policy ⟨backends, .memory held?, tree⟩) :=
    ⟨rfl, ⟨held?, rfl⟩, by simp [opening, Controller.initial]⟩
  have backed : Backed policy s := opened.run others ops
  refine ⟨backed.stored, fun op => (backed.perform others op).2, backed.start others, ?_⟩
  intro τ next rule servers fresh calls
  have reopened : Backed rule fresh :=
    ⟨rfl, backed.memory, by simp [fresh, opening, Controller.initial]⟩
  obtain ⟨asked, noted, presented⟩ := reopened.start_calls next
  have all : calls = asked := noted
  rw [all]
  exact presented

end CredentialGate.Session
