import CredentialGate.Audit.Action
import CredentialGate.Review.Wire
import CredentialGate.Store.Table

/-! Deciding a review, step by step. The decision depends on the request and on what the store
answers for its token; a store that fails counts as one that does not know the token. -/
namespace CredentialGate.Review

open Store Audit

/-- Why a review answers that the token is not authenticated. -/
inductive Rejection
  | malformedRequest
  | missingCredential
  | unknownCredential
deriving DecidableEq, Repr

def Rejection.message : Rejection → String
  | malformedRequest => "request kind is not TokenReview"
  | missingCredential => "no token supplied"
  | unknownCredential => "token is not known"

def Rejection.status : Rejection → Nat
  | malformedRequest => 400
  | missingCredential | unknownCredential => 401

/-- The token to look up, if the request is a review of one. -/
def Request.check (request : Request) : Except Rejection String :=
  if request.kind? = some reviewKind then
    match request.token? with
    | some token => .ok token
    | none => .error .missingCredential
  else .error .malformedRequest

/-- What an answer of the store means for the review. -/
def judge : Except Failure (Option User) → Except Rejection User
  | .ok (some user) => .ok user
  | .ok none => .error .unknownCredential
  | .error _ => .error .unknownCredential

structure Outcome where
  status : Nat
  body : Response
deriving DecidableEq, Repr

def Outcome.isAuthenticated (o : Outcome) : Bool := o.body.status.authenticated

/-- A user is known by the e-mail and belongs to no group. -/
def Outcome.of : Except Rejection User → Outcome
  | .ok user => ⟨200, .authenticated user.email []⟩
  | .error reason => ⟨reason.status, .unauthenticated⟩

/-- The audit action of a request that has arrived. -/
def received (request : Request) : Action :=
  .reviewReceived request.kind? request.apiVersion? (request.token?.map fingerprint)

/-- A destination of audit actions with its state. Recording may fail. -/
structure Sink (σ : Type) where
  record : Action → σ → Bool × σ

/-- The destination that keeps nothing. -/
def Sink.discard : Sink σ := ⟨fun _ s => (true, s)⟩

/-- A review under way: the step that is next, and how it goes on from there. Each step is done at
once, and anything else may happen between two of them. -/
inductive Task
  | record (action : Action) (rest : Task)
  | lookUp (token : String) (rest : Except Failure (Option User) → Task)
  | done (outcome : Outcome)

namespace Task

/-- A decision ends the review. A success is recorded first. -/
def conclude : Except Rejection User → Task
  | .ok user => record (.authenticated user.name user.email) (done (.of (.ok user)))
  | .error reason => done (.of (.error reason))

/-- What is left of a review, in one go. That an action could not be recorded changes nothing. -/
def run (lookup : Lookup) (sink : Sink σ) : Task → σ → Outcome × σ
  | record action rest, s => rest.run lookup sink (sink.record action s).2
  | lookUp token rest, s => (rest (lookup token)).run lookup sink s
  | done outcome, s => (outcome, s)

end Task

/-- The arrival of a request is recorded before anything is checked. -/
def Request.task (request : Request) : Task :=
  .record (received request) <|
    match request.check with
    | .ok token => .lookUp token fun answer => .conclude (judge answer)
    | .error reason => .conclude (.error reason)

/-- One review, with the state that it leaves the destination in. -/
def review (lookup : Lookup) (sink : Sink σ) (request : Request) (s : σ) : Outcome × σ :=
  request.task.run lookup sink s

end CredentialGate.Review
