import CredentialGate.Proofs.Session.Answers
import CredentialGate.Proofs.Session.Confirmation

/-! Where the same answers lead. A step says what an operation may do to a session; here it is what
the operation does, once the collaborators give the answers of the step. All that counts of the
session is its state, its bearer and its policy: what it shows to others leads nowhere. -/
namespace CredentialGate.Session

open Situation

/-- What a session goes by is the same. -/
structure SameCourse (c d : Controller) : Prop where
  state : d.state = c.state
  bearer : d.bearer? = c.bearer?
  policy : d.policy = c.policy

/-- A session goes by what this one goes by, and the collaborators have come to this state. -/
structure Reaches (after : Controller) (world : σ) (t : Situation σ) : Prop where
  course : SameCourse after t.controller
  world : t.world = world

section

variable {others : Collaborators σ} {world final : σ} {reply : Reply} {replies : List Reply}

/-- A reply tells what the collaborators have answered to its call. -/
theorem Told.given {kind : α → Reply} {answer : σ → α × σ} {a : α} {during : Controller}
    {exchanges : List Exchange}
    (told : Told others world ((⟨kind a, during⟩ :: exchanges).map (·.reply)) final)
    (injective : Function.Injective kind)
    (asks : others.answer (kind a).call = Prod.map kind id ∘ answer) :
    ∃ later, answer world = (a, later) ∧ Told others later (exchanges.map (·.reply)) final := by
  obtain ⟨said, rest⟩ := told
  rw [asks] at said rest
  exact ⟨_, Prod.ext (injective said) rfl, rest⟩

/-- Answers are told the same when they are put down. -/
theorem Told.recorded (told : Told others world replies final) (noted : List Reply) :
    Told others.recorded (world, noted) replies (final, noted ++ replies) := by
  induction replies generalizing world noted with
  | nil =>
    cases told.done
    exact congrArg (final, ·) (List.append_nil noted)
  | cons reply replies ih =>
    have put : others.recorded.answer reply.call (world, noted) =
        ((others.answer reply.call world).1,
          ((others.answer reply.call world).2, noted ++ [(others.answer reply.call world).1])) := by
      cases reply <;> rfl
    obtain ⟨said, rest⟩ := told
    have further := ih rest (noted ++ [reply])
    rw [List.append_assoc, List.singleton_append] at further
    rw [said] at put
    exact ⟨congrArg Prod.fst put, by rw [put]; exact further⟩

end

section

variable {others : Collaborators σ} {t : Situation σ} {final : σ} {c after : Controller}
  {exchanges : List Exchange} {identity : LocalIdentity}

theorem Refreshing.performed (refreshing : Refreshing c exchanges after)
    (course : SameCourse c t.controller)
    (told : Told others t.world (exchanges.map (·.reply)) final) :
    Reaches after final (refresh others t).2 := by
  have held : t.controller.state.local? = c.state.local? := congrArg State.local? course.state
  cases refreshing with
  | unheld nobody =>
    simp only [refresh, held, nobody]
    exact ⟨course, told.done.symm⟩
  | confirmed somebody =>
    obtain ⟨later, given, rest⟩ := told.given (fun _ _ same => by injection same) rfl
    simp only [refresh, held, somebody, course.bearer, ask, given, change]
    exact ⟨⟨rfl, course.bearer, course.policy⟩, rest.done.symm⟩
  | unconfirmed somebody =>
    obtain ⟨later, given, rest⟩ := told.given (fun _ _ same => by injection same) rfl
    simp only [refresh, held, somebody, course.bearer, ask, given]
    exact ⟨course, rest.done.symm⟩

theorem Accepting.performed (accepting : Accepting identity c exchanges after)
    (course : SameCourse c t.controller)
    (told : Told others t.world (exchanges.map (·.reply)) final) :
    Reaches after final (accept others identity t).2 := by
  cases accepting with
  | refused unusable =>
    simp only [accept, unusable, change]
    exact ⟨⟨rfl, rfl, course.policy⟩, told.done.symm⟩
  | adopted usable refreshing =>
    obtain ⟨later, given, rest⟩ := told.given (fun _ _ same => by injection same) rfl
    simp only [accept, usable, ask, given, change]
    exact refreshing.performed ⟨rfl, rfl, course.policy⟩ rest

/-- A start that has its credential accepted adopts the identity, and clears the slot if that is
refused. -/
theorem start_accepted {loaded : Except SlotFailure (Option Credential)} {credential : Credential}
    {opened asked : Controller} (stored : storedCredential? loaded = some credential)
    (told : Told others t.world ((⟨.load loaded, opened⟩ ::
      ⟨.whoami credential (.ok identity), asked⟩ :: exchanges).map (·.reply)) final) :
    ∃ u : Situation σ, u.controller = t.controller.checked ∧
      Told others u.world (exchanges.map (·.reply)) final ∧
      start others t =
        if identity.usableCredential?.isSome then (accept others identity u).2
        else clearSlot others (accept others identity u).2 := by
  obtain ⟨opened, read, told⟩ := told.given (fun _ _ same => by injection same) rfl
  obtain ⟨asked, answered, told⟩ := told.given (fun _ _ same => by injection same) rfl
  rw [start_resuming read stored answered]
  refine ⟨⟨t.controller.checked, asked,
    t.calls ++ [⟨.load, t.controller⟩] ++ [⟨.whoami credential, t.controller.checking⟩]⟩, rfl,
    told, ?_⟩
  unfold accept
  cases identity.usableCredential? <;> rfl

theorem Step.start_performed (step : Step c .start exchanges after)
    (course : SameCourse c t.controller)
    (told : Told others t.world (exchanges.map (·.reply)) final) :
    Reaches after final (start others t) := by
  cases step with
  | fresh empty =>
    obtain ⟨later, given, rest⟩ := told.given (fun _ _ same => by injection same) rfl
    simp only [storedCredential?] at empty
    simp only [start, ask, given, empty, change]
    exact ⟨⟨rfl, rfl, course.policy⟩, rest.done.symm⟩
  | expired stored =>
    obtain ⟨opened, read, told⟩ := told.given (fun _ _ same => by injection same) rfl
    obtain ⟨asked, answered, told⟩ := told.given (fun _ _ same => by injection same) rfl
    obtain ⟨later, given, rest⟩ := told.given (fun _ _ same => by injection same) rfl
    simp only [storedCredential?] at stored
    simp only [start, ask, read, stored, answered, clearSlot, given, change]
    exact ⟨⟨rfl, rfl, course.policy⟩, rest.done.symm⟩
  | dismissed stored accepting =>
    obtain ⟨u, checked, told, started⟩ := start_accepted stored told
    cases accepting with
    | refused unusable =>
      obtain ⟨later, given, rest⟩ := told.given (fun _ _ same => by injection same) rfl
      simp only [started, unusable, accept, clearSlot, ask, given, change, checked]
      exact ⟨⟨rfl, rfl, course.policy⟩, rest.done.symm⟩
  | resumed stored taken accepting =>
    obtain ⟨u, checked, told, started⟩ := start_accepted stored told
    rw [started, if_pos taken]
    have course : SameCourse c.checked u.controller := by
      rw [checked]
      exact ⟨rfl, course.bearer, course.policy⟩
    exact accepting.performed course told

theorem Step.login_performed {email password : String}
    (step : Step c (.login email password) exchanges after) (course : SameCourse c t.controller)
    (told : Told others t.world (exchanges.map (·.reply)) final) :
    Reaches after final (login others email password t) := by
  cases step with
  | denied =>
    obtain ⟨later, given, rest⟩ := told.given (fun _ _ same => by injection same) rfl
    simp only [login, ask, given, change]
    exact ⟨⟨rfl, rfl, course.policy⟩, rest.done.symm⟩
  | issued accepting =>
    obtain ⟨later, given, rest⟩ := told.given (fun _ _ same => by injection same) rfl
    simp only [login, ask, given, change]
    exact accepting.performed ⟨rfl, course.bearer, course.policy⟩ rest

theorem Step.logout_performed (step : Step c .logout exchanges after)
    (course : SameCourse c t.controller)
    (told : Told others t.world (exchanges.map (·.reply)) final) :
    Reaches after final (logout others t) := by
  cases step with
  | ended =>
    obtain ⟨left, answered, told⟩ := told.given (fun _ _ same => by injection same) rfl
    obtain ⟨later, given, rest⟩ := told.given (fun _ _ same => by injection same) rfl
    simp only [logout, ask, course.bearer, answered, clearSlot, given, change]
    exact ⟨⟨rfl, rfl, course.policy⟩, rest.done.symm⟩
  | dropped quiet =>
    obtain ⟨left, answered, told⟩ := told.given (fun _ _ same => by injection same) rfl
    simp only [logout, ask, course.bearer, course.policy, answered, clearSlot, change]
    by_cases clears : c.policy = .clearOnFailure
    · rw [if_pos clears] at quiet
      obtain ⟨cleared, rfl⟩ := quiet
      obtain ⟨later, given, rest⟩ := told.given (fun _ _ same => by injection same) rfl
      simp only [if_pos clears, given]
      exact ⟨⟨rfl, rfl, rfl⟩, rest.done.symm⟩
    · rw [if_neg clears] at quiet
      subst quiet
      rw [if_neg clears]
      exact ⟨⟨rfl, rfl, rfl⟩, told.done.symm⟩

/-- A call that only leaves a message leads a session nowhere. -/
theorem passThrough_performed {call : Call} {answer : σ → Except BackendFailure Unit × σ}
    {success : String} {said : Except BackendFailure Unit} (course : SameCourse c t.controller)
    (given : answer t.world = (said, final)) :
    Reaches (c.told success said) final (passThrough call answer success t).2 := by
  cases said with
  | ok _ | error e =>
    simp only [passThrough, ask, change, given]
    exact ⟨⟨course.state, course.bearer, course.policy⟩, rfl⟩

/-- A step whose answers are given is what the operation does. -/
theorem Step.performed {op : Operation} (step : Step c op exchanges after)
    (course : SameCourse c t.controller)
    (told : Told others t.world (exchanges.map (·.reply)) final) :
    Reaches after final (perform others op t).2 := by
  cases op with
  | start => exact step.start_performed course told
  | login email password => exact step.login_performed course told
  | logout => exact step.logout_performed course told
  | accept identity =>
    cases step with
    | accepted accepting => exact accepting.performed course told
  | refresh =>
    cases step with
    | refreshed refreshing => exact refreshing.performed course told
  | sendResetLink email =>
    cases step with
    | linkAsked =>
      obtain ⟨later, given, rest⟩ := told.given (fun _ _ same => by injection same) rfl
      cases rest.done
      exact passThrough_performed course given
  | resetPassword reset =>
    cases step with
    | passwordReset =>
      obtain ⟨later, given, rest⟩ := told.given (fun _ _ same => by injection same) rfl
      cases rest.done
      exact passThrough_performed course given

/-- The operation is then answered as the step is. -/
theorem Step.replies_eq {op : Operation} (step : Step c op exchanges after)
    (course : SameCourse c t.controller)
    (told : Told others t.world (exchanges.map (·.reply)) final) :
    replies others op t = exchanges.map (·.reply) := by
  have put : Told others.recorded t.recording.world (exchanges.map (·.reply))
      (final, [] ++ exchanges.map (·.reply)) := told.recorded []
  exact congrArg Prod.snd (step.performed (t := t.recording) course put).world

end

end CredentialGate.Session
