import CredentialGate.Proofs.Session.History

/-! What an operation is answered is what its collaborators say: each answer is theirs, in the state
that the calls before have left them in. -/
namespace CredentialGate.Session

/-- What the collaborators say to a call, and what the call makes of them. -/
def Collaborators.answer (others : Collaborators σ) : Call → σ → Reply × σ
  | .login email password => Prod.map (.login email password) id ∘ others.login email password
  | .whoami bearer => Prod.map (.whoami bearer) id ∘ others.whoami bearer
  | .logout bearer? => Prod.map (.logout bearer?) id ∘ others.logout bearer?
  | .sendResetLink email => Prod.map (.sendResetLink email) id ∘ others.sendResetLink email
  | .resetPassword reset => Prod.map (.resetPassword reset) id ∘ others.resetPassword reset
  | .fetchUser authority name bearer? =>
    Prod.map (.fetchUser authority name bearer?) id ∘ others.fetchUser authority name bearer?
  | .load => Prod.map .load id ∘ others.load
  | .save credential => Prod.map (.save credential) id ∘ others.save credential
  | .clear => Prod.map .clear id ∘ others.clear

/-- The replies are what the collaborators say from one state of theirs to another. -/
def Told (others : Collaborators σ) : σ → List Reply → σ → Prop
  | world, [], after => after = world
  | world, reply :: replies, after =>
    (others.answer reply.call world).1 = reply ∧
      Told others (others.answer reply.call world).2 replies after

section

variable {others : Collaborators σ} {world after : σ} {replies : List Reply}

theorem answer_call (call : Call) : (others.answer call world).1.call = call := by
  cases call <;> rfl

theorem Told.done (told : Told others world [] after) : after = world := told

/-- One call more is answered as the state before it has it. -/
theorem Told.snoc (told : Told others world replies after) (call : Call) :
    Told others world (replies ++ [(others.answer call after).1]) (others.answer call after).2 := by
  induction replies generalizing world with
  | nil =>
    rw [told.done]
    simp only [List.nil_append, Told, answer_call, and_self]
  | cons reply replies ih => exact ⟨told.1, ih told.2⟩

theorem noting_told {reply : α → Reply} {answer : σ → α × σ} (call : Call)
    (given : others.answer call = Prod.map reply id ∘ answer) :
    Agree (fun x y : σ × List Reply => x = y ∧ Told others world x.2 x.1)
      (noting reply answer) (noting reply answer) := by
  rintro ⟨now, noted⟩ _ ⟨rfl, told⟩
  have next := told.snoc call
  rw [given] at next
  exact ⟨rfl, rfl, next⟩

end

variable (others : Collaborators σ)

/-- Answers that are put down stay true to the collaborators. -/
theorem recorded_told (world : σ) :
    Alike (fun x y : σ × List Reply => x = y ∧ Told others world x.2 x.1) others.recorded
      others.recorded where
  login email password := noting_told (.login email password) rfl
  whoami bearer := noting_told (.whoami bearer) rfl
  logout bearer? := noting_told (.logout bearer?) rfl
  sendResetLink email := noting_told (.sendResetLink email) rfl
  resetPassword reset := noting_told (.resetPassword reset) rfl
  fetchUser authority name bearer? := noting_told (.fetchUser authority name bearer?) rfl
  load x y same := (noting_told .load rfl x y same).2
  save credential x y same := (noting_told (.save credential) rfl x y same).2
  clear x y same := (noting_told .clear rfl x y same).2
  found x y same := congrArg storedCredential? (noting_told .load rfl x y same).1

theorem perform_told (op : Operation) (s : Situation σ) :
    Told others s.world (replies others op s) (perform others op s).2.world := by
  have start : Paired (fun x y : σ × List Reply => x = y ∧ Told others s.world x.2 x.1)
      s.recording s.recording := ⟨rfl, ⟨rfl, rfl⟩, rfl⟩
  have told := (start.perform (recorded_told others s.world) op).2.world.2
  rw [(perform_recording others op s).world]
  exact told

/-- An operation does what its step says, by exchanges whose replies are the collaborators'. -/
theorem perform_answered (op : Operation) (s : Situation σ) : ∃ exchanges : List Exchange,
    Told others s.world (exchanges.map (·.reply)) (perform others op s).2.world ∧
      (perform others op s).2.calls = s.calls ++ exchanges.map (·.noted) ∧
      Step s.controller op exchanges (perform others op s).2.controller := by
  obtain ⟨exchanges, put, noted, step⟩ := perform_step others op s
  exact ⟨exchanges, put ▸ perform_told others op s, noted, step⟩

end CredentialGate.Session
