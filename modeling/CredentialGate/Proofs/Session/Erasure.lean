import CredentialGate.Proofs.Session.Replay
import CredentialGate.Proofs.Session.Storage

/-! What may be struck from a run without a trace. A call that only leaves a message, and a question
to the directory that confirms nobody, are not seen by the operations after them: with the same
answers these go the same way, over the same storage, in a run without them. -/
namespace CredentialGate.Session

open Situation

/-- An operation with what it was answered, what the session goes by after it, and what the storage
then holds. -/
structure Entry (σ : Type) where
  episode : Episode
  state : State
  bearer? : Option Credential
  stored : σ

def entries (others : Collaborators (ρ × σ)) :
    List Operation → Situation (ρ × σ) → List (Entry σ)
  | [], _ => []
  | op :: ops, s =>
    let after := (perform others op s).2
    ⟨⟨op, replies others op s⟩, after.controller.state, after.controller.bearer?, after.world.2⟩ ::
      entries others ops after

/-- The operation only leaves a message, or it is a question to the directory that confirms nobody:
there is nobody to be confirmed, or the answer is a failure. -/
def Episode.Unseen (e : Episode) : Prop :=
  match e.op with
  | .sendResetLink _ | .resetPassword _ => True
  | .refresh => ∀ authority name bearer? remote,
      Reply.fetchUser authority name bearer? (.ok remote) ∉ e.replies
  | _ => False

/-- The second list is the first without some of its unseen operations. -/
inductive Erases : List (Entry σ) → List (Entry σ) → Prop
  | nil : Erases [] []
  | kept (e : Entry σ) {all rest : List (Entry σ)} : Erases all rest → Erases (e :: all) (e :: rest)
  | erased (e : Entry σ) {all rest : List (Entry σ)} : e.episode.Unseen → Erases all rest →
      Erases (e :: all) rest

/-- What the backends answer in an operation. -/
def Episode.answers (e : Episode) : List Reply := e.replies.filter (·.call.isOutgoing)

theorem SameCourse.trans {c d e : Controller} (first : SameCourse c d) (second : SameCourse d e) :
    SameCourse c e :=
  ⟨second.state.trans first.state, second.bearer.trans first.bearer,
    second.policy.trans first.policy⟩

theorem SameCourse.symm {c d : Controller} (same : SameCourse c d) : SameCourse d c :=
  ⟨same.state.symm, same.bearer.symm, same.policy.symm⟩

theorem Controller.told_course (c : Controller) (success : String)
    (answer : Except BackendFailure Unit) : SameCourse c (c.told success answer) := by
  cases answer <;> exact ⟨rfl, rfl, rfl⟩

section

variable {c after : Controller} {op : Operation} {exchanges : List Exchange}

/-- An unseen question to the directory leaves the session as it was. -/
theorem Refreshing.unseen (refreshing : Refreshing c exchanges after)
    (unseen : Episode.Unseen ⟨.refresh, exchanges.map (·.reply)⟩) :
    after = c ∧ ∀ e ∈ exchanges, e.reply.call.isOutgoing = true := by
  cases refreshing with
  | unheld => exact ⟨rfl, by simp⟩
  | unconfirmed => exact ⟨rfl, by simp [Reply.call, Call.isOutgoing]⟩
  | confirmed => exact absurd (List.mem_singleton_self _) (unseen _ _ _ _)

/-- An unseen operation leads nowhere, and does not touch the storage. -/
theorem Step.unseen (step : Step c op exchanges after)
    (unseen : Episode.Unseen ⟨op, exchanges.map (·.reply)⟩) :
    SameCourse c after ∧ ∀ e ∈ exchanges, e.reply.call.isOutgoing = true := by
  cases step with
  | refreshed refreshing =>
    obtain ⟨rfl, outgoing⟩ := refreshing.unseen unseen
    exact ⟨⟨rfl, rfl, rfl⟩, outgoing⟩
  | linkAsked | passwordReset =>
    exact ⟨c.told_course _ _, by simp [Reply.call, Call.isOutgoing]⟩
  | _ => exact unseen.elim

end

section

variable {others : Collaborators ρ} {other : Collaborators τ} {storage : Storage σ}

/-- The backends answer as they would alone. -/
theorem answer_outgoing {call : Call} (outgoing : call.isOutgoing = true) (world : ρ) (x : σ) :
    (others.beside storage).answer call (world, x) =
      ((others.answer call world).1, ((others.answer call world).2, x)) := by
  cases call with
  | load | save | clear => simp [Call.isOutgoing] at outgoing
  | _ => rfl

/-- So does the storage, whatever backends it stands beside. -/
theorem answer_local {call : Call} (kept : call.isOutgoing = false) (world : ρ) (y : τ) (x : σ) :
    (other.beside storage).answer call (y, x) =
      (((others.beside storage).answer call (world, x)).1,
        (y, ((others.beside storage).answer call (world, x)).2.2)) := by
  cases call with
  | load | save | clear => rfl
  | _ => simp [Call.isOutgoing] at kept

theorem Told.split {world final : ρ} {first later : List Reply}
    (told : Told others world (first ++ later) final) :
    ∃ between, Told others world first between ∧ Told others between later final := by
  induction first generalizing world with
  | nil => exact ⟨world, rfl, told⟩
  | cons reply first ih =>
    obtain ⟨between, firstTold, laterTold⟩ := ih told.2
    exact ⟨between, ⟨told.1, firstTold⟩, laterTold⟩

/-- Where nothing is asked of the storage, it stays as it is. -/
theorem Told.stored {world final : ρ × σ} {exchanges : List Exchange}
    (told : Told (others.beside storage) world (exchanges.map (·.reply)) final)
    (outgoing : ∀ e ∈ exchanges, e.reply.call.isOutgoing = true) : final.2 = world.2 := by
  induction exchanges generalizing world with
  | nil => exact congrArg Prod.snd told.done
  | cons e exchanges ih =>
    have stored := ih told.2 fun e member => outgoing e (List.mem_cons_of_mem _ member)
    rw [answer_outgoing (outgoing e List.mem_cons_self)] at stored
    exact stored

/-- Beside other backends that give the same answers, the storage does the same. -/
theorem Told.elsewhere {world final : ρ × σ} {y z : τ} {replies : List Reply}
    (told : Told (others.beside storage) world replies final)
    (same : Told other y (replies.filter (·.call.isOutgoing)) z) :
    Told (other.beside storage) (y, world.2) replies (z, final.2) := by
  induction replies generalizing world y with
  | nil =>
    rw [told.done]
    exact congrArg (·, world.2) same.done
  | cons reply replies ih =>
    obtain ⟨said, told⟩ := told
    cases outgoing : reply.call.isOutgoing with
    | true =>
      rw [List.filter_cons, if_pos outgoing] at same
      have later := ih told same.2
      rw [answer_outgoing outgoing] at later
      exact ⟨by rw [answer_outgoing outgoing]; exact same.1, by
        rw [answer_outgoing outgoing]; exact later⟩
    | false =>
      rw [List.filter_cons, if_neg (by simp [outgoing])] at same
      have beside : (other.beside storage).answer reply.call (y, world.2) =
          (((others.beside storage).answer reply.call world).1,
            (y, ((others.beside storage).answer reply.call world).2.2)) :=
        answer_local outgoing world.1 y world.2
      exact ⟨by rw [beside]; exact said, by rw [beside]; exact ih told same⟩

end

/-- The rest of a run goes the same way without its unseen operations. -/
theorem entries_erased {others : Collaborators ρ} {other : Collaborators τ} {storage : Storage σ}
    {ops : List Operation} {s : Situation (ρ × σ)} {t : Situation (τ × σ)} {z : τ}
    {rest : List (Entry σ)} (erases : Erases (entries (others.beside storage) ops s) rest)
    (course : SameCourse s.controller t.controller) (stored : t.world.2 = s.world.2)
    (same : Told other t.world.1 (rest.flatMap (·.episode.answers)) z) :
    entries (other.beside storage) (rest.map (·.episode.op)) t = rest := by
  induction ops generalizing s t rest with
  | nil =>
    cases erases
    rfl
  | cons op ops ih =>
    obtain ⟨exchanges, put, -, step⟩ := perform_step (others.beside storage) op s
    have told := perform_told (others.beside storage) op s
    rw [put] at told
    cases erases with
    | kept _ erases =>
      rw [List.flatMap_cons] at same
      obtain ⟨between, first, later⟩ := same.split
      simp only [Episode.answers, put] at first
      have given : Told (other.beside storage) t.world (exchanges.map (·.reply))
          (between, (perform (others.beside storage) op s).2.world.2) := by
        have elsewhere := told.elsewhere first
        rwa [← stored] at elsewhere
      have reaches := step.performed course given
      have world := reaches.world
      have further := ih erases reaches.course (congrArg Prod.snd world) (by
        rw [world]; exact later)
      simp only [List.map_cons, entries, further, step.replies_eq course given, put,
        reaches.course.state, reaches.course.bearer, world]
    | erased _ unseen erases =>
      rw [put] at unseen
      obtain ⟨nowhere, outgoing⟩ := step.unseen unseen
      exact ih erases (nowhere.symm.trans course) (stored.trans (told.stored outgoing).symm) same

/-- A question to the directory returns whether the session is authenticated after it. -/
theorem refresh_returned (others : Collaborators σ) (s : Situation σ) :
    (perform others .refresh s).1 =
      some (perform others .refresh s).2.controller.isAuthenticated := by
  cases held : s.controller.state.local? with
  | none =>
    have unconfirmed : s.controller.state.kind ≠ .authenticated := by
      intro confirmed
      have somebody := (State.isSome_local?_iff s.controller.state).2 (.inr confirmed)
      rw [held] at somebody
      cases somebody
    simp [perform, refresh, held, Controller.isAuthenticated, unconfirmed]
  | some identity =>
    rcases answered : others.fetchUser identity.authority identity.name s.controller.bearer?
      s.world with ⟨e | remote, world⟩
    · simp only [perform, refresh, held, ask, answered]
    · simp only [perform, refresh, held, ask, answered, change]
      rfl

/-- Operations that are not seen can be struck from a run: whichever of them are left out, if the
backends answer the calls of the others as before, each of the others makes the same calls with the
same answers, and leaves the session in the same state with the same bearer and the storage with
the same content. And a question to the directory returns whether the session is authenticated
after it; one that confirms nobody leaves all of the session as it was. -/
theorem erased_operations_unseen (others : Collaborators ρ) (other : Collaborators τ)
    (storage : Storage σ) (policy : LogoutPolicy) (world : ρ) (y : τ) (x : σ)
    (ops : List Operation) :
    (∀ rest z, Erases (entries (others.beside storage) ops (opening policy (world, x))) rest →
      Told other y (rest.flatMap (·.episode.answers)) z →
      entries (other.beside storage) (rest.map (·.episode.op)) (opening policy (y, x)) = rest) ∧
    ∀ s : Situation ρ, let (returned, after) := perform others .refresh s
      returned = some after.controller.isAuthenticated ∧
      (Episode.Unseen ⟨.refresh, replies others .refresh s⟩ → after.controller = s.controller) := by
  refine ⟨fun rest z erases same => entries_erased erases ⟨rfl, rfl, rfl⟩ rfl same,
    fun s => ⟨refresh_returned others s, fun unseen => ?_⟩⟩
  obtain ⟨exchanges, put, -, step⟩ := perform_step others .refresh s
  rw [put] at unseen
  cases step with
  | refreshed refreshing => exact (refreshing.unseen unseen).1

/-- A mail that is asked for before a login, and a question to a silent directory after it, in a run
whose login goes the same way without them. -/
theorem silent_directory_unseen :
    let memory : Storage (Option Credential) :=
      ⟨fun held? => (.ok held?, held?), fun c _ => (.ok (), some c), fun _ => (.ok (), none)⟩
    let alice : LocalIdentity := ⟨"alice", "alice@example.org", "lab", some ⟨"abc"⟩, []⟩
    let stage : Stage := ⟨{ Script.silent with login := .ok alice }, .memory none, .empty⟩
    let ops : List Operation :=
      [.sendResetLink "alice@example.org", .login "alice@example.org" "secret", .refresh]
    let silence : Reply := .fetchUser "lab" "alice" (some ⟨"abc"⟩) (.error (.unreachable ""))
    let login : Entry (Option Credential) :=
      ⟨⟨.login "alice@example.org" "secret", [.login "alice@example.org" "secret" (.ok alice),
        .save ⟨"abc"⟩ (.ok ()), silence]⟩, .localOnly alice, some ⟨"abc"⟩, some ⟨"abc"⟩⟩
    let backends := Stage.collaborators.beside memory
    let s := opening .retain (stage, none)
    Erases (entries backends ops s) [login] ∧
      Told Stage.collaborators stage login.episode.answers stage ∧
      entries backends [.login "alice@example.org" "secret"] s = [login] := by
  intro memory alice stage ops silence login backends s
  have unanswered : Episode.Unseen ⟨.refresh, [silence]⟩ := fun _ _ _ _ => by simp [silence]
  have erases : Erases (entries backends ops s) [login] :=
    .erased _ trivial (.kept login (.erased _ unanswered .nil))
  have told : Told Stage.collaborators stage login.episode.answers stage := ⟨rfl, rfl, rfl⟩
  exact ⟨erases, told, (erased_operations_unseen Stage.collaborators Stage.collaborators memory
    .retain stage stage none ops).1 [login] stage erases told⟩

end CredentialGate.Session
