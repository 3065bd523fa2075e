import Restock.Checkout.Outcome
import Restock.Retry.Policy

/-! What a task does after a failed attempt.

The standard decider goes by the kind of the failure. A cancelled attempt stops
the task. A terminal failure and one of a kind that is not retried end it: as
declined if the order was refused for good, as failed otherwise. Everything else
is retried after the policy's wait until the step's ceiling is reached. A decider
may break down instead of deciding; the standard one does exactly when the policy
has no wait to give. -/
namespace Restock

structure FailedAttempt where
  step : Step
  /-- Attempts at the step so far, this one included. -/
  attempts : UInt32
  failure : StepFailure
  /-- The step did not ask to be retried. -/
  terminal : Bool
  deriving DecidableEq, Repr

inductive Decision
  /-- Wait, then attempt the step again. -/
  | retry (delay : Duration) (reason : String)
  /-- End the task in a status. -/
  | abort (status : TaskStatus) (reason : String)
  /-- End the task as stopped. -/
  | stop
  deriving DecidableEq, Repr

/-- `none` is a decider that broke down. -/
abbrev Decider := FailedAttempt → Option Decision

namespace FailedAttempt

/-- The status of a task that this attempt ends. -/
def ending (a : FailedAttempt) : TaskStatus :=
  if a.step = .placeOrder ∧ a.failure.kind = .authoritativeRejection then .cardDeclined
  else .checkoutFailed

def exhausted (a : FailedAttempt) (max : UInt32) : String :=
  Word.word a.step ++ " failed after " ++ toString a.attempts.toNat ++ "/" ++
    toString max.toNat ++ " attempts: " ++ a.failure.reason

end FailedAttempt

namespace RetryPolicy

/-- The attempt reached the ceiling of its step. -/
def exceeded? (p : RetryPolicy) (a : FailedAttempt) : Option UInt32 :=
  (p.ceiling? a.step).filter (· ≤ a.attempts)

/-- The wait before the next attempt. -/
def wait? (p : RetryPolicy) (a : FailedAttempt) : Option Duration :=
  if a.failure.kind = .rateLimited then p.rateLimitedDelay? a.failure.retryAfter a.attempts
  else p.nextDelay? a.attempts

/-- The standard decider. -/
def decide (p : RetryPolicy) : Decider := fun a =>
  if a.failure.kind = .cancelled then some .stop
  else if a.terminal || !a.failure.kind.isRetryable then some (.abort a.ending a.failure.reason)
  else
    match p.exceeded? a with
    | some max => some (.abort .checkoutFailed (a.exhausted max))
    | none => (p.wait? a).map fun delay => .retry delay a.failure.reason

end RetryPolicy

end Restock
