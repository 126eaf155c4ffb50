import CredentialGate.Proofs.Session.Pairing

/-! The history of a session: its operations, each with what it was answered. -/
namespace CredentialGate.Session

structure Episode where
  op : Operation
  replies : List Reply

/-- The situation with nothing put down yet. -/
def Situation.recording (s : Situation σ) : Situation (σ × List Reply) :=
  ⟨s.controller, (s.world, []), s.calls⟩

/-- What an operation is answered on the way, in order. -/
def replies (others : Collaborators σ) (op : Operation) (s : Situation σ) : List Reply :=
  (perform others.recorded op s.recording).2.world.2

def history (others : Collaborators σ) : List Operation → Situation σ → List Episode
  | [], _ => []
  | op :: ops, s => ⟨op, replies others op s⟩ :: history others ops (perform others op s).2

theorem noting_agrees (reply : α → Reply) (answer : σ → α × σ) :
    Agree (fun world noted => world = noted.1) answer (noting reply answer) := by
  rintro world noted rfl
  exact ⟨rfl, rfl⟩

variable (others : Collaborators σ)

/-- Putting the answers down does not change them. -/
theorem recorded_alike : Alike (fun world noted => world = noted.1) others others.recorded where
  login email password := noting_agrees (.login email password) _
  whoami bearer := noting_agrees (.whoami bearer) _
  logout bearer? := noting_agrees (.logout bearer?) _
  sendResetLink email := noting_agrees (.sendResetLink email) _
  resetPassword reset := noting_agrees (.resetPassword reset) _
  fetchUser authority name bearer? := noting_agrees (.fetchUser authority name bearer?) _
  load world noted same := (noting_agrees .load _ world noted same).2
  save credential world noted same := (noting_agrees (.save credential) _ world noted same).2
  clear world noted same := (noting_agrees .clear _ world noted same).2
  found world noted same :=
    congrArg storedCredential? (noting_agrees .load _ world noted same).1

/-- An operation goes the same way whether or not the answers are put down. -/
theorem perform_recording (op : Operation) (s : Situation σ) :
    Paired (fun world (noted : σ × List Reply) => world = noted.1) (perform others op s).2
      (perform others.recorded op s.recording).2 := by
  have start : Paired (fun world (noted : σ × List Reply) => world = noted.1) s s.recording :=
    ⟨rfl, rfl, rfl⟩
  exact (start.perform (recorded_alike others) op).2

theorem perform_step (op : Operation) (s : Situation σ) : ∃ exchanges : List Exchange,
    replies others op s = exchanges.map (·.reply) ∧
      (perform others op s).2.calls = s.calls ++ exchanges.map (·.noted) ∧
      Step s.controller op exchanges (perform others op s).2.controller := by
  obtain ⟨exchanges, put, noted, step⟩ := perform_recorded others s.recording op
  have same := perform_recording others op s
  exact ⟨exchanges, put, same.calls.trans noted, same.controller ▸ step⟩

/-- What every step keeps holds of the whole history. -/
theorem history_invariant {P : List Episode → Controller → Prop}
    (kept : ∀ past c op exchanges after, P past c → Step c op exchanges after →
      P (past ++ [⟨op, exchanges.map (·.reply)⟩]) after)
    (ops : List Operation) (past : List Episode) (s : Situation σ) (holds : P past s.controller) :
    P (past ++ history others ops s) (run others ops s).controller := by
  induction ops generalizing past s with
  | nil => simpa [history, run] using holds
  | cons op ops ih =>
    obtain ⟨exchanges, put, -, step⟩ := perform_step others op s
    have first := kept past _ op _ _ holds step
    simpa [history, run, put] using ih _ _ first

/-- What every step keeps holds after a run, and what it grants to each of its calls holds of all
calls of the run. -/
theorem run_invariant {P : List Operation → Controller → Prop} {Q : Noted → Prop}
    (kept : ∀ past c op exchanges after, P past c → Step c op exchanges after →
      P (past ++ [op]) after ∧ ∀ e ∈ exchanges, Q e.noted)
    (ops past : List Operation) (s : Situation σ) (holds : P past s.controller)
    (granted : ∀ noted ∈ s.calls, Q noted) :
    P (past ++ ops) (run others ops s).controller ∧
      ∀ noted ∈ (run others ops s).calls, Q noted := by
  induction ops generalizing past s with
  | nil => exact ⟨by simpa [run] using holds, granted⟩
  | cons op ops ih =>
    obtain ⟨exchanges, -, noted, step⟩ := perform_step others op s
    obtain ⟨first, fresh⟩ := kept past _ op _ _ holds step
    have all : ∀ noted ∈ (perform others op s).2.calls, Q noted := by
      intro one member
      rw [noted, List.mem_append, List.mem_map] at member
      rcases member with before | ⟨e, asked, rfl⟩
      · exact granted one before
      · exact fresh e asked
    simpa [run] using ih _ _ first all

end CredentialGate.Session
