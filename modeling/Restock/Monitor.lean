import Restock.Config.Basic
import Restock.Event
import Restock.Stock.Sighting
import Restock.Checkout.Outcome

/-! The monitor of a group.

A monitor warms its source up, asks it for stock, tells the tasks about fresh hits,
rests and asks again, until it is stopped. A failed check is an error, after which
the source has to be warmed up again. `Monitor.next?` is the whole behaviour: it
says which signals a monitor takes in each phase, and what the monitor then does.
The stop flag may be raised in any phase; it is looked at before each round and
ends both kinds of rest, but it interrupts no call of the source. -/
namespace Restock

/-- How an attempt to warm a source up came out. -/
inductive WarmUp
  | ready
  | notReady
  | panicked
  /-- The source took the monitor down with it. -/
  | crashed
  deriving DecidableEq, Repr

/-- How a check of the stock came out. -/
inductive StockCheck
  | reports (reports : Reports)
  | failed (error : SourceError)
  | panicked
  /-- The source took the monitor down with it. -/
  | crashed
  deriving DecidableEq, Repr

namespace Monitor

inductive Phase
  | fresh
  /-- Before a round. -/
  | deciding
  | warming
  /-- Resting after a failed attempt to warm up. -/
  | backingOff
  | checking
  /-- Resting after a check. -/
  | resting
  | stopped
  | crashed
  deriving DecidableEq, Repr, Inhabited

inductive Signal
  | begin
  /-- The monitor sees that the flag is raised. -/
  | notice
  /-- The monitor sees that the flag is not raised. -/
  | proceed
  | warmed (result : WarmUp)
  | checked (result : StockCheck)
  /-- A rest is over. -/
  | rested
  deriving DecidableEq, Repr

inductive Effect
  | publish (event : Event)
  /-- The wave goes to the tasks of the group. -/
  | feed (wave : Wave)
  /-- A call that warms the source up begins. -/
  | warm
  /-- A call that asks the source about the targets begins. -/
  | check
  deriving DecidableEq, Repr

end Monitor

structure Monitor where
  groupId : GroupId
  retailer : String
  targets : List WatchTarget
  delay : Duration
  warmBackoff : Duration
  status : MonitorStatus
  /-- Ids that were sent to tasks since they were last idle. -/
  reported : List String
  warmed : Bool
  stopping : Bool
  phase : Monitor.Phase
  deriving DecidableEq, Repr, Inhabited

namespace Monitor

/-- The monitor of a group before it begins. -/
def ofConfig (id : GroupId) (g : GroupConfig) : Monitor :=
  { groupId := id, retailer := g.retailer, targets := g.targets, delay := g.delay
    warmBackoff := g.warmBackoff, status := .idle, reported := [], warmed := false
    stopping := false, phase := .fresh }

/-- The run of the monitor is over. -/
def ended (m : Monitor) : Bool := m.phase == .stopped || m.phase == .crashed

/-- Raises the stop flag. -/
def stop (m : Monitor) : Monitor := { m with stopping := true }

def enter (m : Monitor) (p : Phase) : Monitor := { m with phase := p }

/-- Takes a status on and tells it. -/
def announce (m : Monitor) (s : MonitorStatus) (t : EventType) (payload : Json) :
    Monitor × List Effect :=
  ({ m with status := s }, [.publish (.monitor m.groupId s t payload)])

/-- Takes a status on and tells it, unless the monitor has it already. -/
def turn (m : Monitor) (s : MonitorStatus) (t : EventType) (payload : Json) :
    Monitor × List Effect :=
  if m.status = s then (m, []) else m.announce s t payload

/-- Starts the next call of the source. -/
def round (m : Monitor) : Monitor × List Effect :=
  if m.warmed then (m.enter .checking, [.check])
  else
    let (m, told) := m.turn .settingUp .update Event.noPayload
    (m.enter .warming, told ++ [.warm])

/-- A check failed; the source is cold again. -/
def fail (m : Monitor) (reason : String) : Monitor × List Effect :=
  { m with warmed := false }.turn .error .fail (.ofMembers [("reason", .string reason)])

def waveOf (m : Monitor) (products : List Product) : Wave := ⟨m.retailer, m.groupId, products⟩

/-- Sends products to the tasks. -/
def send (m : Monitor) (products : List Product) : Monitor × List Effect :=
  let ids := Json.array (products.map fun p => .string p.targetId)
  let (m, told) := m.announce .sendingToTasks .update (.ofMembers [("targets", ids)])
  (m, told ++ [.feed (m.waveOf products), .publish (.product (m.waveOf products))])

/-- Acts on what a check shows. -/
def sight (m : Monitor) (s : Sighting) : Monitor × List Effect :=
  let fresh := s.fresh m.reported
  let m := { m with reported := s.remaining m.reported ++ fresh.map Product.targetId }
  if !fresh.isEmpty then m.send fresh
  else if s.outOfStock then m.turn .outOfStock .update Event.noPayload
  else m.turn .searching .update Event.noPayload

/-- Acts on the result of a check. -/
def finishCheck (m : Monitor) : StockCheck → Monitor × List Effect
  | .reports r => m.sight (.ofReports m.targets r)
  | .failed e => m.fail e.message
  | .panicked | .crashed => m.fail "stock check panicked"

def next? (m : Monitor) : Signal → Option (Monitor × List Effect)
  | .begin =>
    match m.phase with
    | .fresh =>
      let (m, told) := m.announce .settingUp .start Event.noPayload
      some (m.enter .deciding, told)
    | _ => none
  | .notice =>
    match m.phase, m.stopping with
    | .deciding, true | .backingOff, true | .resting, true =>
      let (m, told) := m.announce .idle .stop Event.noPayload
      some (m.enter .stopped, told)
    | _, _ => none
  | .proceed =>
    match m.phase, m.stopping with
    | .deciding, false => some m.round
    | _, _ => none
  | .warmed result =>
    match m.phase, result with
    | .warming, .ready => some ({ m with warmed := true }.enter .checking, [.check])
    | .warming, .crashed => some (m.enter .crashed, [])
    | .warming, _ => some (m.enter .backingOff, [])
    | _, _ => none
  | .checked result =>
    match m.phase with
    | .checking =>
      let (m, told) := m.finishCheck result
      some (m.enter (if result = .crashed then .crashed else .resting), told)
    | _ => none
  | .rested =>
    match m.phase with
    | .resting => some (m.enter .deciding, [])
    | .backingOff => some m.round
    | _ => none

end Monitor

end Restock
