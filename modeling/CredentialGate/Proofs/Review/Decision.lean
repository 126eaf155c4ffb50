import CredentialGate.Review.Decision

/-! When a review comes to which decision, said of the request's fields and of the one answer of
the store that it asks for; and what its steps come to together. -/
namespace CredentialGate.Review

open Store Audit

/-- The decision on a request, with what the store answers for its token. -/
def verdict (lookup : Lookup) (request : Request) : Except Rejection User :=
  match request.check with
  | .ok token => judge (lookup token)
  | .error reason => .error reason

/-- The audit actions of a decision. -/
def confirmed : Except Rejection User → List Action
  | .ok user => [.authenticated user.name user.email]
  | .error _ => []

def Sink.recordAll (sink : Sink σ) (actions : List Action) (s : σ) : σ :=
  actions.foldl (fun s action => (sink.record action s).2) s

theorem token_eq_some_iff {request : Request} {token : String} :
    request.token? = some token ↔ (request.spec?.bind (·.token?)) = some token ∧ token ≠ "" := by
  simp [Request.token?, Option.filter_eq_some_iff]

theorem check_eq_ok_iff {request : Request} {token : String} :
    request.check = .ok token ↔ request.kind? = some reviewKind ∧ request.token? = some token := by
  unfold Request.check
  by_cases kind : request.kind? = some reviewKind
  · cases held : request.token? <;> simp [kind]
  · simp [kind]

theorem check_malformed_iff {request : Request} :
    request.check = .error .malformedRequest ↔ request.kind? ≠ some reviewKind := by
  unfold Request.check
  by_cases kind : request.kind? = some reviewKind
  · cases held : request.token? <;> simp [kind]
  · simp [kind]

theorem judge_eq_ok_iff {answer : Except Failure (Option User)} {user : User} :
    judge answer = .ok user ↔ answer = .ok (some user) := by
  unfold judge
  split <;> simp_all

theorem judge_ne_malformed (answer : Except Failure (Option User)) :
    judge answer ≠ .error .malformedRequest := by
  unfold judge
  split <;> simp

theorem verdict_eq_ok_iff {lookup : Lookup} {request : Request} {user : User} :
    verdict lookup request = .ok user ↔
      ∃ token, request.check = .ok token ∧ lookup token = .ok (some user) := by
  unfold verdict
  cases checked : request.check with
  | error reason => simp
  | ok token => simp [judge_eq_ok_iff]

theorem judge_unknown {answer : Except Failure (Option User)}
    (unknown : ∀ user, answer ≠ .ok (some user)) : judge answer = .error .unknownCredential := by
  unfold judge
  split <;> simp_all

/-- A store that fails and one that does not know a token are as good as each other. -/
theorem verdict_congr {lookup other : Lookup}
    (same : ∀ token user, lookup token = .ok (some user) ↔ other token = .ok (some user))
    (request : Request) : verdict lookup request = verdict other request := by
  unfold verdict
  cases request.check with
  | error reason => rfl
  | ok token =>
    by_cases known : ∃ user, lookup token = .ok (some user)
    · obtain ⟨user, found⟩ := known
      dsimp only
      rw [found, (same token user).1 found]
    · dsimp only
      rw [judge_unknown fun user found => known ⟨user, found⟩,
        judge_unknown fun user found => known ⟨user, (same token user).2 found⟩]

theorem verdict_malformed_iff {lookup : Lookup} {request : Request} :
    verdict lookup request = .error .malformedRequest ↔ request.kind? ≠ some reviewKind := by
  rw [← check_malformed_iff]
  unfold verdict
  cases checked : request.check with
  | error reason => simp
  | ok token => simpa using judge_ne_malformed (lookup token)

theorem Sink.recordAll_append (sink : Sink σ) (first later : List Action) (s : σ) :
    sink.recordAll (first ++ later) s = sink.recordAll later (sink.recordAll first s) :=
  List.foldl_append ..

/-- The destination that keeps every action behind those before it. -/
def Sink.keep : Sink (List Action) := ⟨fun action kept => (true, kept ++ [action])⟩

theorem keep_recordAll (actions kept : List Action) :
    Sink.keep.recordAll actions kept = kept ++ actions := by
  induction actions generalizing kept with
  | nil => exact (List.append_nil _).symm
  | cons action actions ih => exact (ih _).trans (List.append_assoc ..)

theorem run_conclude (lookup : Lookup) (sink : Sink σ) (decision : Except Rejection User) (s : σ) :
    (Task.conclude decision).run lookup sink s =
      (.of decision, sink.recordAll (confirmed decision) s) := by
  cases decision <;> rfl

/-- A review in one go: the arrival is recorded, the request decided, and a success recorded. -/
theorem review_eq (lookup : Lookup) (sink : Sink σ) (request : Request) (s : σ) :
    review lookup sink request s =
      (.of (verdict lookup request),
        sink.recordAll (received request :: confirmed (verdict lookup request)) s) := by
  unfold review Request.task verdict
  cases request.check with
  | ok token => exact run_conclude lookup sink (judge (lookup token)) _
  | error reason => exact run_conclude lookup sink (.error reason) _

/-- What a review gives to be recorded. -/
theorem review_keep (lookup : Lookup) (request : Request) (kept : List Action) :
    review lookup .keep request kept =
      (.of (verdict lookup request),
        kept ++ received request :: confirmed (verdict lookup request)) := by
  rw [review_eq, keep_recordAll]

theorem review_outcome (lookup : Lookup) (sink : Sink σ) (request : Request) (s : σ) :
    (review lookup sink request s).1 = .of (verdict lookup request) := by
  rw [review_eq]

end CredentialGate.Review
