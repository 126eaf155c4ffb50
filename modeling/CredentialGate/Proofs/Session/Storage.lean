import CredentialGate.Proofs.Session.Pairing
import CredentialGate.Session.Script

/-! A session beside a storage that may fail, now or later. What a storage does with a credential it
is to keep, or to drop, does not show in the session; only what is found in it does, and only when
the session is started. -/
namespace CredentialGate.Session

/-- A storage of any kind, which may refuse whatever it is asked. -/
structure Storage (σ : Type) where
  load : σ → Except SlotFailure (Option Credential) × σ
  save : Credential → σ → Except SlotFailure Unit × σ
  clear : σ → Except SlotFailure Unit × σ

/-- The same storage, but empty where it cannot be read. -/
def Storage.forgiving (storage : Storage σ) : Storage σ :=
  { storage with load := fun x =>
      let (loaded, kept) := storage.load x
      (.ok loaded.toOption.join, kept) }

/-- A call that concerns the backends only. -/
def remotely (call : ρ → α × ρ) (world : ρ × σ) : α × (ρ × σ) :=
  let (a, reached) := call world.1
  (a, (reached, world.2))

/-- A call that concerns the storage only. -/
def locally (call : σ → α × σ) (world : ρ × σ) : α × (ρ × σ) :=
  let (a, kept) := call world.2
  (a, (world.1, kept))

/-- The same backends beside a storage. -/
def Collaborators.beside (others : Collaborators ρ) (storage : Storage σ) :
    Collaborators (ρ × σ) where
  login email password := remotely (others.login email password)
  whoami bearer := remotely (others.whoami bearer)
  logout bearer? := remotely (others.logout bearer?)
  sendResetLink email := remotely (others.sendResetLink email)
  resetPassword reset := remotely (others.resetPassword reset)
  fetchUser authority name bearer? := remotely (others.fetchUser authority name bearer?)
  load := locally storage.load
  save credential := locally (storage.save credential)
  clear := locally storage.clear

/-- The credential that a start would find. -/
def found? (others : Collaborators σ) (s : Situation σ) : Option Credential :=
  storedCredential? (others.load s.world).1

/-- What is seen of an operation: what it returns, the session that it leaves, and the calls up to
then, each with the session during it. -/
structure Sight where
  returned : Option Bool
  session : Controller
  calls : List Noted

def sights (others : Collaborators σ) : List Operation → Situation σ → List Sight
  | [], _ => []
  | op :: ops, s =>
    let (returned, after) := perform others op s
    ⟨returned, after.controller, after.calls⟩ :: sights others ops after

section

variable {a : Collaborators σ} {b : Collaborators τ} {s : Situation σ} {t : Situation τ}
  {R : σ → τ → Prop}

/-- Two runs look the same if their starts find the same credentials. -/
theorem sights_alike (steady : Steady R a b) (paired : Paired R s t) (ops : List Operation)
    (found : ∀ before after, ops = before ++ .start :: after →
      found? a (run a before s) = found? b (run b before t)) :
    sights a ops s = sights b ops t := by
  induction ops generalizing s t with
  | nil => rfl
  | cons op ops ih =>
    obtain ⟨returned, later⟩ := paired.perform_found steady op fun starts =>
      found [] ops (congrArg (· :: ops) starts)
    have rest := ih later fun before after split =>
      found (op :: before) after (congrArg (op :: ·) split)
    simp only [sights, returned, later.controller, later.calls, rest]

end

section

variable (others : Collaborators ρ) (one : Storage σ) (other : Storage τ)

theorem remotely_agree (call : ρ → α × ρ) :
    Agree (fun (x : ρ × σ) (y : ρ × τ) => x.1 = y.1) (remotely call) (remotely call) := by
  rintro ⟨world, x⟩ ⟨_, y⟩ rfl
  exact ⟨rfl, rfl⟩

/-- The backends do not notice what storage stands beside them. -/
theorem beside_steady : Steady (fun (x : ρ × σ) (y : ρ × τ) => x.1 = y.1) (others.beside one)
    (others.beside other) where
  login _ _ := remotely_agree _
  whoami _ := remotely_agree _
  logout _ := remotely_agree _
  sendResetLink _ := remotely_agree _
  resetPassword _ := remotely_agree _
  fetchUser _ _ _ := remotely_agree _
  load _ _ same := same
  save _ _ _ same := same
  clear _ _ same := same

theorem agree_refl (call : σ → α × σ) : Agree Eq call call := by
  rintro world _ rfl
  exact ⟨rfl, rfl⟩

theorem beside_forgiving : Alike Eq (others.beside one) (others.beside one.forgiving) where
  login _ _ := agree_refl _
  whoami _ := agree_refl _
  logout _ := agree_refl _
  sendResetLink _ := agree_refl _
  resetPassword _ := agree_refl _
  fetchUser _ _ _ := agree_refl _
  load := by
    rintro world _ rfl
    rfl
  save := by
    rintro credential world _ rfl
    rfl
  clear := by
    rintro world _ rfl
    rfl
  found := by
    rintro world _ rfl
    rfl

/-- Two storages that are found to hold the same credential at every start cannot be told apart from
a session: whichever of their other answers are failures, each operation returns the same, leaves
the same session with the same snapshot published, and makes the same calls. And a storage that
cannot be read cannot be told from an empty one. -/
theorem writes_never_show (policy : LogoutPolicy) (world : ρ) (x : σ) (y : τ)
    (ops : List Operation) :
    let s := opening policy (world, x)
    let t := opening policy (world, y)
    ((∀ before after, ops = before ++ .start :: after →
        found? (others.beside one) (run (others.beside one) before s) =
          found? (others.beside other) (run (others.beside other) before t)) →
      sights (others.beside one) ops s = sights (others.beside other) ops t) ∧
    sights (others.beside one) ops s = sights (others.beside one.forgiving) ops s := by
  intro s t
  constructor
  · intro found
    have paired : Paired (fun (x : ρ × σ) (y : ρ × τ) => x.1 = y.1) s t := ⟨rfl, rfl, rfl⟩
    exact sights_alike (beside_steady others one other) paired ops found
  · have alike := beside_forgiving others one
    have paired : Paired Eq s s := ⟨rfl, rfl, rfl⟩
    exact sights_alike alike.toSteady paired ops fun before _ _ =>
      alike.found _ _ (paired.run alike before).world

/-- A storage that can be read once, and refuses all else, in place of one in memory. -/
theorem refusals_unseen :
    let memory : Storage (Option Credential) :=
      ⟨fun held? => (.ok held?, held?), fun c _ => (.ok (), some c), fun _ => (.ok (), none)⟩
    let broken : Storage Bool :=
      ⟨fun first => (if first then .ok (some ⟨"abc"⟩) else .error .refused, false),
        fun _ first => (.error .refused, first), fun first => (.error .refused, first)⟩
    let identity : LocalIdentity := ⟨"alice", "alice@example.org", "lab", some ⟨"xyz"⟩, []⟩
    let stage : Stage := ⟨{ Script.silent with whoami := .ok identity }, .memory none, .empty⟩
    let ops : List Operation := [.start, .logout, .start]
    let kept := Stage.collaborators.beside memory
    let lost := Stage.collaborators.beside broken
    let s := opening .retain (stage, some ⟨"abc"⟩)
    let t := opening .retain (stage, true)
    (∀ before after, ops = before ++ .start :: after →
      found? kept (run kept before s) = found? lost (run lost before t)) ∧
      sights kept ops s = sights lost ops t := by
  intro memory broken identity stage ops kept lost s t
  have found (before after : List Operation) (split : ops = before ++ .start :: after) :
      found? kept (run kept before s) = found? lost (run lost before t) := by
    match before with
    | [] => rfl
    | [_] => simp [ops] at split
    | [first, second] =>
      obtain ⟨rfl, rfl, -⟩ : Operation.start = first ∧ Operation.logout = second ∧ after = [] := by
        simpa [ops] using split
      rfl
    | _ :: _ :: _ :: _ => simp [ops] at split
  exact ⟨found, (writes_never_show Stage.collaborators memory broken .retain stage (some ⟨"abc"⟩)
    true ops).1 found⟩

end

end CredentialGate.Session
