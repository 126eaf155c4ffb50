import CredentialGate.Proofs.Review.Decision
import CredentialGate.Proofs.Store.Database
import Mathlib.Data.List.Induction
import Mathlib.Logic.Function.Basic

/-! Reviews that run side by side, among changes of the store that they ask. Each takes the steps
that it takes alone, and between two of them anything else may happen. It comes to what it comes to
alone, over the store as it is when the review looks up its token. -/
namespace CredentialGate.Review

open Store Audit

namespace Task

/-- The next step of a review. -/
def step (lookup : Lookup) (sink : Sink σ) : Task → σ → Task × σ
  | record action rest, s => (rest, (sink.record action s).2)
  | lookUp token rest, s => (rest (lookup token), s)
  | done outcome, s => (done outcome, s)

/-- Which step is next does not hang on what becomes of the actions. -/
theorem step_fst (lookup : Lookup) (sink : Sink σ) (other : Sink τ) (task : Task) (s : σ) (t : τ) :
    (task.step lookup sink s).1 = (task.step lookup other t).1 := by
  cases task <;> rfl

/-- Nothing is looked up any more. -/
inductive Settled : Task → Prop
  | record {action : Action} {rest : Task} : Settled rest → Settled (record action rest)
  | done {outcome : Outcome} : Settled (done outcome)

/-- The token is going to be looked up, and nothing after it. -/
inductive Pending (token : String) : Task → Prop
  | record {action : Action} {rest : Task} : Pending token rest →
      Pending token (record action rest)
  | lookUp {rest : Except Failure (Option User) → Task} : (∀ answer, (rest answer).Settled) →
      Pending token (lookUp token rest)

/-- The review is done after so many steps. -/
inductive Within : Nat → Task → Prop
  | record {n : Nat} {action : Action} {rest : Task} : Within n rest →
      Within (n + 1) (record action rest)
  | lookUp {n : Nat} {token : String} {rest : Except Failure (Option User) → Task} :
      (∀ answer, Within n (rest answer)) → Within (n + 1) (lookUp token rest)
  | done {n : Nat} {outcome : Outcome} : Within n (done outcome)

theorem Within.step {n : Nat} {task : Task} (within : Within n task) (lookup : Lookup)
    (sink : Sink σ) (s : σ) : Within (n - 1) (task.step lookup sink s).1 := by
  cases within with
  | record rest => exact rest
  | lookUp rest => exact rest _
  | done => exact .done

theorem Within.ended {task : Task} (within : Within 0 task) :
    ∃ outcome, task = Task.done outcome := by
  cases within with
  | done => exact ⟨_, rfl⟩

end Task

namespace Request

variable {request : Request}

end Request

/-- Reviews that share a store and an audit trail. -/
structure System (ι σ : Type) where
  tasks : ι → Task
  store : Database.Opened
  audit : σ

/-- A step of a review, or a change of the store. -/
inductive Move (ι : Type)
  | review (i : ι)
  | upsert (user : User) (token : String)
  | revoke (email : String)
deriving DecidableEq

namespace System

def start (requests : ι → Request) (store : Database.Opened) (audit : σ) : System ι σ :=
  ⟨fun i => (requests i).task, store, audit⟩

variable [DecidableEq ι]

def move (sink : Sink σ) (s : System ι σ) : Move ι → System ι σ
  | .review i =>
    let (task, audit) := (s.tasks i).step (Database.resolve s.store) sink s.audit
    { s with tasks := Function.update s.tasks i task, audit := audit }
  | .upsert user token => { s with store := (Database.upsert user token s.store.1 s.store.2).2 }
  | .revoke email => { s with store := (Database.revoke email s.store.1 s.store.2).2 }

def run (sink : Sink σ) (s : System ι σ) (schedule : List (Move ι)) : System ι σ :=
  schedule.foldl (move sink) s

theorem run_snoc {sink : Sink σ} {s : System ι σ} {schedule : List (Move ι)} (m : Move ι) :
    s.run sink (schedule ++ [m]) = (s.run sink schedule).move sink m :=
  List.foldl_append ..

end System

/-- A record that succeeds puts the action behind what the destination holds. -/
def Sink.Appends (sink : Sink σ) (contents : σ → List Action) : Prop :=
  ∀ action s, (sink.record action s).1 = true →
    contents (sink.record action s).2 = contents s ++ [action]

def Sink.Succeeds (sink : Sink σ) : List Action → σ → Prop
  | [], _ => True
  | action :: actions, s =>
    (sink.record action s).1 = true ∧ sink.Succeeds actions (sink.record action s).2

theorem Sink.Appends.recordAll {sink : Sink σ} {contents : σ → List Action}
    (appends : sink.Appends contents) {actions : List Action} {s : σ}
    (succeeds : sink.Succeeds actions s) :
    contents (sink.recordAll actions s) = contents s ++ actions := by
  induction actions generalizing s with
  | nil => exact (List.append_nil _).symm
  | cons action actions ih =>
    calc contents (sink.recordAll actions (sink.record action s).2)
      _ = contents (sink.record action s).2 ++ actions := ih succeeds.2
      _ = contents s ++ [action] ++ actions := by rw [appends action s succeeds.1]
      _ = contents s ++ action :: actions := List.append_assoc ..

/-- A list made of the lists of some owners, each in its own order, with nothing lost or added. -/
inductive Shuffle [DecidableEq ι] : (ι → List α) → List α → Prop
  | nil : Shuffle (fun _ => []) []
  | snoc {own : ι → List α} {all : List α} (i : ι) (a : α) : Shuffle own all →
      Shuffle (Function.update own i (own i ++ [a])) (all ++ [a])

section

variable [DecidableEq ι] (sink : Sink σ) (s : System ι σ)

/-- How far a review has come: it has yet to look up its token, or was rejected without that, or
has looked it up in a store of before. What is left of it, run alone, comes to the review. -/
inductive Reached (schedule : List (Move ι)) (request : Request) (i : ι) (own : List Action)
    (task : Task) : Prop
  | pending {token : String} : request.check = .ok token → task.Pending token →
      (∀ lookup, task.run lookup .keep own = review lookup .keep request []) → Reached ..
  | rejected {reason : Rejection} : request.check = .error reason → task.Settled →
      (∀ lookup, task.run lookup .keep own = review lookup .keep request []) → Reached ..
  | decided {token : String} {before after : List (Move ι)}
      {rest : Except Failure (Option User) → Task} : request.check = .ok token → task.Settled →
      schedule = before ++ .review i :: after →
      (s.run sink before).tasks i = .lookUp token rest →
      task.run (Database.resolve (s.run sink before).store) .keep own =
        review (Database.resolve (s.run sink before).store) .keep request [] → Reached ..

variable {sink s} {schedule : List (Move ι)} {request : Request} {i : ι} {own : List Action}
  {task : Task}

theorem Reached.later (reached : Reached sink s schedule request i own task) (m : Move ι) :
    Reached sink s (schedule ++ [m]) request i own task := by
  cases reached with
  | pending asks pending comes => exact .pending asks pending comes
  | rejected rejected settled comes => exact .rejected rejected settled comes
  | decided asks settled made looking comes =>
    exact .decided asks settled (by rw [made, List.append_assoc]; rfl) looking comes

/-- A step of the review itself takes it on. -/
theorem Reached.step (reached : Reached sink s schedule request i own task)
    (current : (s.run sink schedule).tasks i = task) :
    let (rest, grown) := task.step (Database.resolve (s.run sink schedule).store) .keep own
    Reached sink s (schedule ++ [.review i]) request i grown rest := by
  cases reached with
  | pending asks pending comes =>
    cases pending with
    | record pending => exact .pending asks pending comes
    | lookUp settled => exact .decided asks (settled _) rfl current (comes _)
  | rejected rejected settled comes =>
    cases settled with
    | record settled => exact .rejected rejected settled comes
    | done => exact .rejected rejected .done comes
  | decided asks settled made looking comes =>
    have longer := congrArg (· ++ [Move.review i]) made
    rw [List.append_assoc] at longer
    cases settled with
    | record settled => exact .decided asks settled longer looking comes
    | done => exact .decided asks .done longer looking comes

end

/-- A review has come to an outcome and has recorded its arrival, with the kind and the version of
the request and the fingerprint of its token, unless that is empty. Behind it stands the user that
was looked up, if the review was a success, and else nothing. -/
structure Concluded (lookup : Lookup) (request : Request) (outcome : Outcome)
    (own : List Action) : Prop where
  reviewed : review lookup .keep request [] = (outcome, own)
  audited : ∃ later, own = .reviewReceived request.kind? request.apiVersion?
      (((request.spec?.bind (·.token?)).filter (· ≠ "")).map fingerprint) :: later ∧
    (outcome.status = 200 ∧ (∃ token user, request.spec?.bind (·.token?) = some token ∧
        lookup token = .ok (some user) ∧ later = [.authenticated user.name user.email]) ∨
      outcome.status ≠ 200 ∧ later = [])

theorem concluded_of_review {lookup : Lookup} {request : Request} {outcome : Outcome}
    {own : List Action} (reviewed : review lookup .keep request [] = (outcome, own)) :
    Concluded lookup request outcome own := by
  refine ⟨reviewed, ?_⟩
  rw [review_keep, Prod.mk.injEq] at reviewed
  obtain ⟨rfl, rfl⟩ := reviewed
  have token : (request.spec?.bind (·.token?)).filter (· ≠ "") = request.token? := by
    refine Option.ext fun token => ?_
    rw [token_eq_some_iff]
    simp [Option.filter_eq_some_iff]
  rw [token]
  refine ⟨_, rfl, ?_⟩
  cases decided : verdict lookup request with
  | ok user =>
    obtain ⟨token, checked, found⟩ := verdict_eq_ok_iff.1 decided
    obtain ⟨-, held⟩ := check_eq_ok_iff.1 checked
    exact .inl ⟨rfl, token, user, (token_eq_some_iff.1 held).1, found, rfl⟩
  | error reason =>
    refine .inr ⟨?_, rfl⟩
    cases reason <;> decide

section

variable [DecidableEq ι] (sink : Sink σ) (s : System ι σ)

/-- A review has ended. If it was rejected before it looked up a token, no store counts for it;
otherwise the store counts as it was when the review looked up its token. -/
def Ended (schedule : List (Move ι)) (request : Request) (i : ι) (outcome : Outcome)
    (own : List Action) : Prop :=
  match request.check with
  | .error _ => ∀ lookup, Concluded lookup request outcome own
  | .ok token => ∃ before after rest, schedule = before ++ .review i :: after ∧
      (s.run sink before).tasks i = .lookUp token rest ∧
      Concluded (Database.resolve (s.run sink before).store) request outcome own

variable {sink s} {schedule : List (Move ι)} {request : Request} {i : ι} {own : List Action}

theorem Reached.ended {outcome : Outcome}
    (reached : Reached sink s schedule request i own (.done outcome)) :
    Ended sink s schedule request i outcome own := by
  unfold Ended
  cases reached with
  | pending _ pending => cases pending
  | rejected rejected _ comes =>
    rw [rejected]
    exact fun lookup => concluded_of_review (comes lookup).symm
  | decided asks _ made looking comes =>
    rw [asks]
    exact ⟨_, _, _, made, looking, concluded_of_review comes.symm⟩

end

/-- What a run has recorded is a shuffle of what its reviews have. -/
structure Traced [DecidableEq ι] (sink : Sink σ) (requests : ι → Request) (s : System ι σ)
    (schedule : List (Move ι)) (own : ι → List Action) (log : List Action) : Prop where
  shuffle : Shuffle own log
  kept : (s.run sink schedule).audit = sink.recordAll log s.audit
  reached : ∀ i, Reached sink s schedule (requests i) i (own i) ((s.run sink schedule).tasks i)

section

variable [DecidableEq ι] {sink : Sink σ} {requests : ι → Request}
  {s : System ι σ} {schedule : List (Move ι)} {own : ι → List Action} {log : List Action}

theorem Traced.elsewhere (traced : Traced sink requests s schedule own log) {m : Move ι}
    (tasks : ((s.run sink schedule).move sink m).tasks = (s.run sink schedule).tasks)
    (audit : ((s.run sink schedule).move sink m).audit = (s.run sink schedule).audit) :
    Traced sink requests s (schedule ++ [m]) own log where
  shuffle := traced.shuffle
  kept := by rw [System.run_snoc, audit, traced.kept]
  reached i := by
    rw [System.run_snoc, tasks]
    exact (traced.reached i).later m

theorem Traced.review (traced : Traced sink requests s schedule own log) (i : ι) :
    ∃ own log, Traced sink requests s (schedule ++ [.review i]) own log := by
  have reached := (traced.reached i).step rfl
  have others : ∀ j, j ≠ i → Reached sink s (schedule ++ [.review i]) (requests j) j (own j)
      ((s.run sink schedule).tasks j) := fun j _ => (traced.reached j).later _
  have tasks (j : ι) : (s.run sink (schedule ++ [.review i])).tasks j =
      if j = i then (((s.run sink schedule).tasks i).step
        (Database.resolve (s.run sink schedule).store) .keep (own i)).1
      else (s.run sink schedule).tasks j := by
    rw [System.run_snoc]
    simp only [System.move, Function.update_apply]
    rw [Task.step_fst _ _ .keep _ _ (own i)]
  have audit : (s.run sink (schedule ++ [.review i])).audit =
      (((s.run sink schedule).tasks i).step (Database.resolve (s.run sink schedule).store) sink
        (s.run sink schedule).audit).2 := by
    rw [System.run_snoc]
    rfl
  -- Only a step that records changes what is recorded, and then for this review alone.
  cases current : (s.run sink schedule).tasks i with
  | record action rest =>
    refine ⟨_, log ++ [action], traced.shuffle.snoc i action, ?_, fun j => ?_⟩
    · rw [audit, current, traced.kept, sink.recordAll_append]
      rfl
    · rw [tasks]
      by_cases same : j = i
      · subst same
        simpa [current, Task.step, Sink.keep] using reached
      · rw [Function.update_of_ne same, if_neg same]
        exact others j same
  | lookUp | done =>
    refine ⟨own, log, traced.shuffle, ?_, fun j => ?_⟩
    · rw [audit, current, traced.kept]
      rfl
    · rw [tasks]
      by_cases same : j = i
      · subst same
        simpa [current, Task.step] using reached
      · rw [if_neg same]
        exact others j same

end

end CredentialGate.Review
