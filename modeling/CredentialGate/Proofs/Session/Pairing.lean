import CredentialGate.Proofs.Session.Step

/-! Two sets of collaborators that answer a session alike. -/
namespace CredentialGate.Session

open Situation

/-- Both calls are answered alike, and leave states that are alike. -/
def Agree (R : σ → τ → Prop) (f : σ → α × σ) (g : τ → α × τ) : Prop :=
  ∀ s t, R s t → (f s).1 = (g t).1 ∧ R (f s).2 (g t).2

/-- Backends whose states correspond answer alike. What comes of writing to the slot does not count:
a session does not look at it. What a slot is found to hold is left open. -/
structure Steady (R : σ → τ → Prop) (a : Collaborators σ) (b : Collaborators τ) : Prop where
  login : ∀ email password, Agree R (a.login email password) (b.login email password)
  whoami : ∀ bearer, Agree R (a.whoami bearer) (b.whoami bearer)
  logout : ∀ bearer?, Agree R (a.logout bearer?) (b.logout bearer?)
  sendResetLink : ∀ email, Agree R (a.sendResetLink email) (b.sendResetLink email)
  resetPassword : ∀ reset, Agree R (a.resetPassword reset) (b.resetPassword reset)
  fetchUser : ∀ authority name bearer?,
    Agree R (a.fetchUser authority name bearer?) (b.fetchUser authority name bearer?)
  load : ∀ s t, R s t → R (a.load s).2 (b.load t).2
  save : ∀ credential s t, R s t → R (a.save credential s).2 (b.save credential t).2
  clear : ∀ s t, R s t → R (a.clear s).2 (b.clear t).2

/-- Collaborators whose states correspond answer alike, and a start finds the same credential. -/
structure Alike (R : σ → τ → Prop) (a : Collaborators σ) (b : Collaborators τ) : Prop extends
    Steady R a b where
  found : ∀ s t, R s t → storedCredential? (a.load s).1 = storedCredential? (b.load t).1

/-- Situations that differ in the states of the collaborators only. -/
structure Paired (R : σ → τ → Prop) (s : Situation σ) (t : Situation τ) : Prop where
  controller : s.controller = t.controller
  world : R s.world t.world
  calls : s.calls = t.calls

variable {R : σ → τ → Prop} {a : Collaborators σ} {b : Collaborators τ}
  {s : Situation σ} {t : Situation τ}

theorem Paired.change (paired : Paired R s t) (f : Controller → Controller) :
    Paired R (s.change f) (t.change f) :=
  ⟨congrArg f paired.controller, paired.world, paired.calls⟩

theorem Paired.told (paired : Paired R s t) (call : Call) {f : σ → α × σ} {g : τ → α × τ}
    (kept : R (f s.world).2 (g t.world).2) : Paired R (s.ask call f).2 (t.ask call g).2 :=
  ⟨paired.controller, kept, by simp [ask, paired.controller, paired.calls]⟩

theorem Paired.asked (paired : Paired R s t) (call : Call) {f : σ → α × σ} {g : τ → α × τ}
    (agree : Agree R f g) :
    ∃ answer s' t', s.ask call f = (answer, s') ∧ t.ask call g = (answer, t') ∧ Paired R s' t' := by
  have answered := agree _ _ paired.world
  refine ⟨(s.ask call f).1, (s.ask call f).2, (t.ask call g).2, rfl, ?_,
    paired.told call answered.2⟩
  exact Prod.ext answered.1.symm rfl

theorem Paired.clearSlot (steady : Steady R a b) (paired : Paired R s t) :
    Paired R (clearSlot a s) (clearSlot b t) :=
  paired.told .clear (steady.clear _ _ paired.world)

/-- What two runs of one operation have in common. -/
def Together (R : σ → τ → Prop) (x : β × Situation σ) (y : β × Situation τ) : Prop :=
  x.1 = y.1 ∧ Paired R x.2 y.2

theorem Paired.returning (paired : Paired R s t) (result : β) (f : Controller → Controller) :
    Together R (result, s.change f) (result, t.change f) :=
  ⟨rfl, paired.change f⟩

theorem Paired.refresh (steady : Steady R a b) (paired : Paired R s t) :
    Together R (refresh a s) (refresh b t) := by
  unfold Session.refresh
  rw [← paired.controller]
  cases s.controller.state.local? with
  | none => exact ⟨rfl, paired⟩
  | some identity =>
    obtain ⟨answer, s', t', left, right, paired⟩ :=
      paired.asked (.fetchUser identity.authority identity.name s.controller.bearer?)
        (steady.fetchUser identity.authority identity.name s.controller.bearer?)
    simp only [left, right]
    cases answer with
    | ok remote => exact paired.returning _ _
    | error e => exact ⟨congrArg Controller.isAuthenticated paired.controller, paired⟩

theorem Paired.accept (steady : Steady R a b) (paired : Paired R s t) (identity : LocalIdentity) :
    Together R (accept a identity s) (accept b identity t) := by
  unfold Session.accept
  cases identity.usableCredential? with
  | none =>
    exact paired.returning _ _
  | some credential =>
    have saved := paired.told (.save credential) (steady.save credential _ _ paired.world)
    exact ⟨rfl, ((saved.change _).refresh steady).2⟩

/-- The slot is cleared when the identity has been refused. -/
theorem Together.clearRefused (steady : Steady R a b) {x : Bool × Situation σ}
    {y : Bool × Situation τ} : Together R x y →
    Paired R (match x with | (true, s) => s | (false, s) => clearSlot a s)
      (match y with | (true, t) => t | (false, t) => clearSlot b t) := by
  obtain ⟨taken, s⟩ := x
  obtain ⟨also, t⟩ := y
  rintro ⟨same, paired⟩
  cases (show taken = also from same)
  cases taken with
  | true => exact paired
  | false => exact paired.clearSlot steady

/-- A start asks no more of a slot than which credential it holds. -/
theorem Paired.start_found (steady : Steady R a b) (paired : Paired R s t)
    (found : storedCredential? (a.load s.world).1 = storedCredential? (b.load t.world).1) :
    Paired R (start a s) (start b t) := by
  have opened := paired.told .load (steady.load _ _ paired.world)
  have loaded : (s.ask .load a.load).1.toOption.join.filter (!·.isEmpty) =
      (t.ask .load b.load).1.toOption.join.filter (!·.isEmpty) := found
  unfold Session.start
  generalize s.ask .load a.load = x at opened loaded
  generalize t.ask .load b.load = y at opened loaded
  obtain ⟨_, s⟩ := x
  obtain ⟨_, t⟩ := y
  simp only [loaded]
  split
  · exact opened.change _
  · rename_i credential _
    obtain ⟨answer, s, t, left, right, paired⟩ :=
      (opened.change fun c => { c with loading := true, resuming := true }.transition
        .validating).asked (.whoami credential) (steady.whoami credential)
    simp only [left, right]
    cases answer with
    | error e => exact ((paired.change _).clearSlot steady).change _
    | ok identity =>
      exact Together.clearRefused steady ((paired.change _).accept steady identity)

theorem Paired.login (steady : Steady R a b) (paired : Paired R s t) (email password : String) :
    Paired R (login a email password s) (login b email password t) := by
  unfold Session.login
  obtain ⟨answer, s, t, left, right, paired⟩ :=
    (paired.change fun c => { c with message := "", loading := true }.transition
      .validating).asked (.login email password) (steady.login email password)
  simp only [left, right]
  cases answer with
  | ok identity => exact ((paired.change _).accept steady identity).2
  | error e => exact (paired.change _).change _

theorem Paired.logout (steady : Steady R a b) (paired : Paired R s t) :
    Paired R (logout a s) (logout b t) := by
  unfold Session.logout
  rw [← paired.controller]
  obtain ⟨answer, s', t', left, right, paired⟩ :=
    (paired.change fun c => { c with bearer? := none }).asked (.logout s.controller.bearer?)
      (steady.logout s.controller.bearer?)
  simp only [left, right]
  cases answer with
  | ok _ => exact ((paired.change _).clearSlot steady).change _
  | error e =>
    have kept := paired.change fun c => { c with message := e.userMessage }
    simp only [← kept.controller]
    split
    · exact (kept.clearSlot steady).change _
    · exact kept.change _

theorem Paired.passThrough (paired : Paired R s t) (call : Call) (success : String)
    {f : σ → Except BackendFailure Unit × σ} {g : τ → Except BackendFailure Unit × τ}
    (agree : Agree R f g) :
    Together R (passThrough call f success s) (passThrough call g success t) := by
  unfold Session.passThrough
  obtain ⟨answer, s, t, left, right, paired⟩ :=
    (paired.change fun c => { c with loading := true }.publish).asked call agree
  simp only [left, right]
  cases answer with
  | ok _ =>
    exact paired.returning _ _
  | error e =>
    exact paired.returning _ _

/-- An operation goes the same way if a start finds the same credential. -/
theorem Paired.perform_found (steady : Steady R a b) (paired : Paired R s t) (op : Operation)
    (found : op = .start →
      storedCredential? (a.load s.world).1 = storedCredential? (b.load t.world).1) :
    Together R (perform a op s) (perform b op t) := by
  cases op with
  | start => exact ⟨rfl, paired.start_found steady (found rfl)⟩
  | login email password => exact ⟨rfl, paired.login steady email password⟩
  | accept identity =>
    have accepted := paired.accept steady identity
    exact ⟨congrArg some accepted.1, accepted.2⟩
  | refresh =>
    have refreshed := paired.refresh steady
    exact ⟨congrArg some refreshed.1, refreshed.2⟩
  | logout => exact ⟨rfl, paired.logout steady⟩
  | sendResetLink email =>
    have sent := paired.passThrough (.sendResetLink email) linkSentMessage
      (steady.sendResetLink email)
    exact ⟨congrArg some sent.1, sent.2⟩
  | resetPassword reset =>
    have done := paired.passThrough (.resetPassword reset) passwordUpdatedMessage
      (steady.resetPassword reset)
    exact ⟨congrArg some done.1, done.2⟩

theorem Paired.perform (alike : Alike R a b) (paired : Paired R s t) (op : Operation) :
    Together R (perform a op s) (perform b op t) :=
  paired.perform_found alike.toSteady op fun _ => alike.found _ _ paired.world

/-- Collaborators that answer alike lead a session through the same run. -/
theorem Paired.run (alike : Alike R a b) (paired : Paired R s t) (ops : List Operation) :
    Paired R (run a ops s) (run b ops t) := by
  induction ops generalizing s t with
  | nil => exact paired
  | cons op ops ih => exact ih (paired.perform alike op).2

end CredentialGate.Session
