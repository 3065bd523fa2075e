import Restock.Brief.Value
import Restock.Rehearsal.Basic

/-! Scripts in brief.

What a script leaves out takes no time, shows nothing and succeeds. -/
namespace Restock.Brief

open Json.Access Rehearsal

def latency (j : Json) : Read Nat := defaulted nat j "latency" 0

def warmUp : Json → Read WarmUp
  | .bool b => return if b then .ready else .notReady
  | .string "panic" => return .panicked
  | .string "crash" => return .crashed
  | _ => .error "not a way to warm up"

def warmCue (j : Json) : Read (Cue WarmUp) := do
  match j with
  | .object _ => return ⟨← latency j, ← required warmUp j "is"⟩
  | j => return ⟨0, ← warmUp j⟩

def stockCheck (j : Json) : Read StockCheck := do
  match ← optional text j "unavailable" with
  | some reason => return .failed (.unavailable reason)
  | none =>
    if ← defaulted bool j "panic" false then return .panicked
    else if ← defaulted bool j "crash" false then return .crashed
    else return .reports (← entries stockReport j "reports")

def tick (j : Json) : Read (Cue StockCheck) := return ⟨← latency j, ← stockCheck j⟩

def sourceScript (j : Json) : Read SourceScript :=
  return ⟨← each warmCue j "warm", ← each tick j "ticks", ← defaulted tick j "repeat" ⟨0, .reports []⟩⟩

def scene (j : Json) : Read Scene := do
  match ← defaulted text j "make" "success" with
  | "panic" => return .panic
  | "crash" => return .crash
  | _ => return .outcome (← outcome (return ()) j)

def cue (j : Json) : Read (Cue Action) :=
  return ⟨← latency j, ⟨← scene j, membersOf (anyMember j "write"), member? j "session"⟩⟩

def driverScript (j : Json) : Read DriverScript :=
  (membersOf j).mapM fun (step, cues) => return (← word (.string step), ← (← items cues).mapM cue)

/-- A retailer with its scripts. -/
def cast (j : Json) : Read (String × Cast) :=
  return (← required text j "retailer",
    ⟨← entries sourceScript j "sources", ← entries driverScript j "drivers"⟩)

def decider (j : Json) : Read Decider := do
  match j with
  | .string "stop" => return stopAtOnce
  | j =>
    return retryThenAbort (← defaulted nat j "times" 0) (← defaulted duration j "retry" .zero)
      (← required word j "abort")

def idSource (j : Json) : Read IdSource := return .ofLists (← each id j "tasks") (← each id j "groups")

end Restock.Brief
