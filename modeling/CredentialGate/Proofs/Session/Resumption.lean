import CredentialGate.Proofs.Session.WireLogin

/-! A session that is resumed from a file, and then ended. The start replaces the stored credential
by the one that the primary backend has issued anew, or clears it. -/
namespace CredentialGate.Session

open Http Setting

section

variable {others : Collaborators σ} {s : Situation (Setting σ)} {stored : FileSlot}
  {c : Credential} {checked : Except BackendFailure LocalIdentity} {reached : σ}

theorem Told.checks {given : Except BackendFailure LocalIdentity} {world final : Setting σ}
    {replies : List Reply} (answered : others.whoami c world.network = (checked, reached))
    (told : Told others.inSetting world (.whoami c given :: replies) final) :
    given = checked ∧ Told others.inSetting { world with network := reached } replies final := by
  have said : others.inSetting.answer (.whoami c) world =
      (.whoami c checked, { world with network := reached }) := by
    simp [Collaborators.answer, Collaborators.inSetting, overNetwork, answered]
  obtain ⟨same, later⟩ := told
  simp only [Reply.call, said] at same later
  exact ⟨(Reply.whoami.inj same).2.symm, later⟩

theorem Told.reads {loaded : Except SlotFailure (Option Credential)} {world final : Setting σ}
    {replies : List Reply} (told : Told others.inSetting world (.load loaded :: replies) final)
    (slot : world.slot = .file stored) (held : stored.load world.tree = .ok (some c)) :
    storedCredential? loaded = some c ∧ Told others.inSetting world replies final := by
  obtain ⟨given, later⟩ := told
  have same : Reply.load (world.slot.load world.tree) = .load loaded := given
  have filled := (FileSlot.load_found held).1
  rw [slot, Slot.load, held, Reply.load.injEq] at same
  subst same
  exact ⟨by simp [storedCredential?, Except.toOption, filled], later⟩

/-- Nothing is stored once a slot that held a credential has been cleared. -/
theorem Told.empties {answer : Except SlotFailure Unit} {world final : Setting σ}
    (told : Told others.inSetting world [.clear answer] final)
    (slot : world.slot = .file stored) (held : stored.load world.tree = .ok (some c)) :
    final.slot = .file stored ∧ stored.load final.tree = .ok none := by
  rw [told.2.done]
  simp only [Reply.call, Collaborators.answer, Collaborators.inSetting, overSlot, Function.comp,
    slot, Slot.clear]
  exact ⟨rfl, FileSlot.clear_held held⟩

/-- A credential that is saved over another is stored, without the blanks around it. -/
theorem Told.replaces {next : Credential} {answer : Except SlotFailure Unit}
    {world final : Setting σ} {replies : List Reply}
    (told : Told others.inSetting world (.save next answer :: replies) final)
    (slot : world.slot = .file stored) (held : stored.load world.tree = .ok (some c)) :
    ∃ saved : Setting σ, saved.slot = .file stored ∧
      stored.load saved.tree = .ok (withoutBlanks? next) ∧
      Told others.inSetting saved replies final := by
  refine ⟨_, ?_, ?_, told.saves⟩
  · simp [slot, Slot.save]
  · have kept : (Slot.file stored).Keeps (stored.save next world.tree).2 next :=
      @Slot.save_keeps (.file stored) next world.tree (FileSlot.save_held held next)
    simp only [slot, Slot.save]
    exact FileSlot.load_kept kept

/-- Asking the directory leaves what is stored alone. -/
theorem Refreshing.stored_eq {d after : Controller} {exchanges : List Exchange}
    {world final : Setting σ} (refreshing : Refreshing d exchanges after)
    (told : Told others.inSetting world (exchanges.map (·.reply)) final) :
    final.slot = world.slot ∧ final.tree = world.tree := by
  cases refreshing with
  | unheld =>
    rw [Told.done told]
    exact ⟨rfl, rfl⟩
  | confirmed | unconfirmed => exact (Told.confirms told).2

/-- The credential that the primary backend has issued anew. -/
def issued? (checked : Except BackendFailure LocalIdentity) : Option Credential :=
  checked.toOption.bind (·.usableCredential?)

/-- What a start leaves of a stored credential: the one that has been issued anew, or none. -/
theorem start_leaves (others : Collaborators σ) (slot : s.world.slot = .file stored)
    (held : stored.load s.world.tree = .ok (some c))
    (answered : others.whoami c s.world.network = (checked, reached)) :
    let t := start others.inSetting s
    t.controller.policy = s.controller.policy ∧ t.world.slot = .file stored ∧
      stored.load t.world.tree = .ok ((issued? checked).bind withoutBlanks?) := by
  obtain ⟨exchanges, told, -, step⟩ := perform_answered others.inSetting .start s
  have ran : (perform others.inSetting .start s).2 = start others.inSetting s := rfl
  rw [ran] at told step
  refine ⟨step.policy_eq, ?_⟩
  generalize start others.inSetting s = t at told step ⊢
  obtain ⟨after, world, calls⟩ := t
  cases step with
  | fresh vacant =>
    obtain ⟨found, -⟩ := Told.reads told slot held
    simp [vacant] at found
  | expired presented =>
    obtain ⟨found, later⟩ := Told.reads told slot held
    cases found.symm.trans presented
    obtain ⟨rfl, later⟩ := Told.checks answered later
    exact Told.empties later slot held
  | dismissed presented accepting =>
    obtain ⟨found, later⟩ := Told.reads told slot held
    cases found.symm.trans presented
    obtain ⟨rfl, later⟩ := Told.checks answered later
    cases accepting with
    | refused unusable =>
      obtain ⟨kept, empty⟩ := Told.empties later slot held
      exact ⟨kept, by rw [empty, issued?]; simp [Except.toOption, unusable]⟩
  | resumed presented taken accepting =>
    obtain ⟨found, later⟩ := Told.reads told slot held
    cases found.symm.trans presented
    obtain ⟨rfl, later⟩ := Told.checks answered later
    cases accepting with
    | refused unusable => simp [unusable] at taken
    | adopted usable refreshing =>
      obtain ⟨saved, kept, stores, last⟩ := Told.replaces later slot held
      obtain ⟨same, tree⟩ := refreshing.stored_eq last
      refine ⟨same.trans kept, ?_⟩
      rw [tree, stores, issued?]
      simp [Except.toOption, usable]

/-- A logout that fails leaves what is stored alone, if it is to be retained. -/
theorem logout_retains (others : Collaborators σ) {e : BackendFailure}
    (retaining : s.controller.policy = .retain)
    (failed : (others.logout s.controller.bearer? s.world.network).1 = .error e) :
    (logout others.inSetting s).world.tree = s.world.tree := by
  rcases answered : others.logout s.controller.bearer? s.world.network with ⟨answer, reached⟩
  rw [answered] at failed
  cases failed
  simp [logout, Situation.ask, Situation.change, Collaborators.inSetting, overNetwork, answered,
    retaining]

end

end CredentialGate.Session
