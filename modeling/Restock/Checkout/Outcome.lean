import Restock.Checkout.Step
import Restock.Duration

/-! Outcomes of one attempt at a step.

An attempt succeeds, asks to be retried or ends the task. A failure names its
kind and its reason, and may carry the wait that the retailer asked for. Errors
that nobody classified are transient. -/
namespace Restock

inductive ErrorKind
  | transient
  | rateLimited
  | authoritativeRejection
  | concurrencyConflict
  | cancelled
  deriving DecidableEq, Repr, Inhabited

namespace ErrorKind

instance : Word ErrorKind where
  all := [.transient, .rateLimited, .authoritativeRejection, .concurrencyConflict, .cancelled]
  word
    | .transient => "transient"
    | .rateLimited => "rate_limited"
    | .authoritativeRejection => "authoritative_rejection"
    | .concurrencyConflict => "concurrency_conflict"
    | .cancelled => "cancelled"

def isRetryable : ErrorKind → Bool
  | .transient | .rateLimited => true
  | _ => false

end ErrorKind

structure StepFailure where
  kind : ErrorKind
  reason : String
  /-- The wait that the retailer asked for. -/
  retryAfter : Option Duration
  deriving DecidableEq, Repr, Inhabited

namespace StepFailure

def toJson (f : StepFailure) : Json :=
  .ofMembers ([("kind", Word.toJson f.kind), ("reason", .string f.reason)] ++
    f.retryAfter.toList.map fun d => ("retry_after", d.toJson))

def schema : Json.Schema StepFailure :=
  .openRecord "StepFailure" ⟨.transient, "", none⟩
    [.must "kind" Word.decode fun k f => { f with kind := k },
     .must "reason" Json.decodeString fun r f => { f with reason := r },
     .may "retry_after" (Json.decodeOption Duration.decode) fun d f => { f with retryAfter := d }]

end StepFailure

inductive StepOutcome (α : Type)
  | success (value : α)
  | retry (failure : StepFailure)
  | terminal (failure : StepFailure)
  deriving DecidableEq, Repr

namespace StepOutcome

variable {α β : Type}

def transient (reason : String) : StepOutcome α := .retry ⟨.transient, reason, none⟩

def rateLimited (wait : Duration) (reason : String) : StepOutcome α :=
  .retry ⟨.rateLimited, reason, some wait⟩

/-- The retailer declined for good. -/
def rejected (reason : String) : StepOutcome α :=
  .terminal ⟨.authoritativeRejection, reason, none⟩

/-- Another activity holds the resource. -/
def conflict (reason : String) : StepOutcome α :=
  .terminal ⟨.concurrencyConflict, reason, none⟩

/-- An error without a kind is transient. -/
def ofExcept : Except String α → StepOutcome α
  | .ok value => .success value
  | .error reason => transient reason

def isSuccess : StepOutcome α → Bool
  | .success _ => true
  | _ => false

def map (f : α → β) : StepOutcome α → StepOutcome β
  | .success value => .success (f value)
  | .retry failure => .retry failure
  | .terminal failure => .terminal failure

end StepOutcome

/-- Why a stock source gave no reports. -/
inductive SourceError
  | unavailable (reason : String)
  deriving DecidableEq, Repr

def SourceError.message : SourceError → String
  | .unavailable reason => "source unavailable: " ++ reason

end Restock
