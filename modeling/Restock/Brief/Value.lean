import Restock.Config.Basic
import Restock.Event
import Restock.Json.Access
import Restock.Pool
import Restock.Retry.Decision

/-! Values in brief.

A brief writes a value with only the parts that differ from a standard one. Unlike
the stored form it can hold any duration, as milliseconds or as a pair of seconds
and nanoseconds, and any float, as text. -/
namespace Restock.Brief

open Json.Access

def word {α : Type} [Word α] (j : Json) : Read α := decoded Word.decode j

def duration : Json → Read Duration
  | .array [s, n] => do
    match Duration.ofParts? (UInt64.ofNat (← nat s)) (← nat n) with
    | some d => .ok d
    | none => .error "no duration"
  | j => return Duration.ofMillis (UInt64.ofNat (← nat j))

def id {k : Kind} (j : Json) : Read (Id k) := decoded Id.decode j

/-- The group that is meant where none is named. -/
def firstGroup : GroupId := .ofNat 1

def account (j : Json) : Read AccountKey :=
  return ⟨← defaulted id j "group" firstGroup, ← defaulted text j "credential" ""⟩

/-! ### Configurations -/

def ceiling : Json → Read (Step × UInt32)
  | .array [s, n] => return (← word s, UInt32.ofNat (← nat n))
  | _ => .error "not a ceiling"

def policy (j : Json) : Read RetryPolicy := do
  let p := ((← optional duration j "delay").map RetryPolicy.fixed).getD .standard
  let p := { p with
    multiplier := ← defaulted float j "multiplier" p.multiplier
    maxDelay := ← defaulted duration j "max_delay" p.maxDelay
    rateLimitCap := ← defaulted duration j "rate_limit_cap" p.rateLimitCap }
  let p := if ← defaulted bool j "clear" false then p.withoutCeilings else p
  return (← each ceiling j "ceilings").foldl (fun p c => p.withCeiling c.1 c.2) p

def target (j : Json) : Read WatchTarget :=
  return ⟨← required text j "id", ← optional float j "max_price", ← defaulted word j "mode" .any⟩

def settings (j : Json) : Read Settings :=
  return ⟨UInt64.ofNat (← defaulted nat j "bus_capacity" Settings.standard.busCapacity.toNat),
    ← defaulted duration j "account_poll" Settings.standard.accountPoll⟩

def credential (j : Json) : Read Credential := decoded Credential.schema.decode j

def taskConfig (j : Json) : Read TaskConfig :=
  return ⟨← optional credential j "credential", anyMember j "profile", ← optional text j "proxy",
    ← defaulted policy j "retry" .standard⟩

def groupConfig (j : Json) : Read GroupConfig :=
  return ⟨← required text j "name", ← defaulted text j "retailer" "demo",
    ← defaulted duration j "delay" GroupConfig.standard.delay,
    ← defaulted duration j "warm_backoff" GroupConfig.standard.warmBackoff,
    ← each target j "targets", ← each taskConfig j "tasks"⟩

def config (j : Json) : Read Config :=
  return ⟨← defaulted settings j "supervisor" .standard, ← each groupConfig j "groups"⟩

/-! ### What passes between activities -/

def stockReport (j : Json) : Read StockReport :=
  return ⟨← required word j "status", ← defaulted float j "price" 0,
    ← defaulted text j "name" "Item", ← optional text j "image_url",
    ← optional word j "fulfillment", anyMember j "identifiers"⟩

def session (j : Json) : Read Session := decoded Session.schema.decode j

def wave (j : Json) : Read Wave :=
  return ⟨← defaulted text j "retailer" "demo", ← defaulted id j "group_id" firstGroup,
    ← each (decoded Product.schema.decode) j "products"⟩

def event (j : Json) : Read Event := do
  match ← required text j "event" with
  | "close" => return .close (← required text j "reason")
  | "task" =>
    return .task (← required id j "task_id") (← required word j "status")
      (← required word j "event_type") (anyMember j "payload")
  | "monitor" =>
    return .monitor (← required id j "group_id") (← required word j "status")
      (← required word j "event_type") (anyMember j "payload")
  | "product" => return .product (← wave j)
  | "auth" =>
    return .auth (← required id j "group_id") (← required id j "task_id")
      (← required text j "credential") (← required word j "outcome")
  | _ => .error "not an event"

def failure (j : Json) : Read StepFailure :=
  return ⟨← required word j "kind", ← defaulted text j "reason" "boom",
    ← optional duration j "retry_after"⟩

/-- The outcome that a brief asks for; `value` is what a success yields. -/
def outcome {α : Type} (value : Read α) (j : Json) : Read (StepOutcome α) := do
  let reason ← defaulted text j "reason" "boom"
  match ← defaulted text j "make" "success" with
  | "transient" => return .transient reason
  | "rate_limited" => return .rateLimited (← defaulted duration j "retry_after" .zero) reason
  | "rejected" => return .rejected reason
  | "conflict" => return .conflict reason
  | "retry" => return .retry (← failure j)
  | "terminal" => return .terminal (← failure j)
  | "from_ok" => return .ofExcept (.ok (← value))
  | "from_err" => return .ofExcept (.error reason)
  | "from_source_error" => return .ofExcept (.error (SourceError.unavailable reason).message)
  | "success" => return .success (← value)
  | _ => .error "not an outcome"

def failedAttempt (j : Json) : Read FailedAttempt :=
  return ⟨← required word j "step", UInt32.ofNat (← required nat j "attempts"), ← failure j,
    ← defaulted bool j "terminal" false⟩

end Restock.Brief
