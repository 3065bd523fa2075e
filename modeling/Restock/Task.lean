import Restock.Event
import Restock.Feed
import Restock.Pool
import Restock.Retry.Decision

/-! A checkout task.

A task with a credential first comes by a session: it adopts the one in the pool,
or claims the account and logs in, or waits until another task has done so. Then it
waits for a wave, takes its first product and runs the checkout steps. A step is
attempted until it succeeds or the decider ends the task. `Task.next?` is the whole
behaviour: it says which signals a task takes in each phase, and what the task then
does. The stop flag may be raised in any phase; it is looked at before an election,
before every attempt and in every wait, but it interrupts no call of the driver. -/
namespace Restock

/-- How a call of the driver came out; a login yields a session. -/
inductive Reply
  | outcome (o : StepOutcome (Option Session))
  | panicked
  /-- The driver took the task down with it. -/
  | crashed
  deriving DecidableEq, Repr

/-- What a task leaves behind. -/
structure TaskReport where
  taskId : TaskId
  status : TaskStatus
  /-- Attempts at each step that was attempted. -/
  attempts : StepMap UInt32
  state : CheckoutState
  deriving DecidableEq, Repr

namespace TaskReport

def totalAttempts (r : TaskReport) : Nat := r.attempts.toList.foldl (fun n e => n + e.2.toNat) 0

def members (r : TaskReport) : List (String × Json) :=
  [("task_id", r.taskId.toJson), ("status", Word.toJson r.status),
   ("attempts", r.attempts.toJson fun n => .ofNat n.toNat), ("state", r.state.toJson)]

def toJson (r : TaskReport) : Json := .ofMembers r.members

end TaskReport

namespace Task

/-- How a run ends short of an order. -/
inductive Halt
  | failed (status : TaskStatus) (reason : String)
  | stopped
  deriving DecidableEq, Repr

inductive Phase
  | fresh
  /-- Before an election for the account. -/
  | electing
  /-- Another task logs in. -/
  | awaitingLogin
  /-- Before an attempt. -/
  | entering (step : Step)
  | calling (step : Step)
  /-- Between two attempts. -/
  | pausing (step : Step) (delay : Duration)
  | awaitingWave
  | ended
  | crashed
  deriving DecidableEq, Repr, Inhabited

inductive Signal
  | begin
  /-- The task sees that the flag is raised. -/
  | notice
  | elected (claim : Claim)
  /-- A look at the account that another task logs in for. -/
  | looked (look : Look)
  /-- The task sees that the flag is not raised and attempts the step. -/
  | proceed
  /-- The driver answers; a checkout step may have changed the state. -/
  | replied (state : CheckoutState) (reply : Reply)
  /-- A pause is over. -/
  | rested
  /-- A wave, or the end of the feed. -/
  | fed (next : Next Wave)
  deriving DecidableEq, Repr

inductive Effect
  | publish (event : Event)
  /-- A claim is replaced by a session or given up. -/
  | finish (guard : Guard) (session : Option Session)
  /-- A call of the driver begins. -/
  | call (step : Step)
  deriving DecidableEq, Repr

end Task

structure Task where
  context : TaskContext
  decider : Decider
  status : TaskStatus
  state : CheckoutState
  attempts : StepMap UInt32
  /-- The claim that the task holds. -/
  guard : Option Guard
  stopping : Bool
  phase : Task.Phase

namespace Task

def new (context : TaskContext) (decider : Decider) : Task :=
  { context, decider, status := .idle, state := .empty, attempts := .empty, guard := none
    stopping := false, phase := .fresh }

/-- The run of the task is over. -/
def ended (t : Task) : Bool := t.phase == .ended || t.phase == .crashed

/-- The report of a run that ended of itself. -/
def report? (t : Task) : Option TaskReport :=
  if t.phase = .ended then some ⟨t.context.taskId, t.status, t.attempts, t.state⟩ else none

def attemptsAt (t : Task) (s : Step) : UInt32 := (t.attempts.get? s).getD 0

def identifier (t : Task) : String :=
  match t.context.credential with
  | some c => c.identifier
  | none => ""

/-- The account of a task with a credential. -/
def account? (t : Task) : Option AccountKey :=
  t.context.credential.map fun c => ⟨t.context.groupId, c.identifier⟩

/-- Raises the stop flag. -/
def stop (t : Task) : Task := { t with stopping := true }

def enter (t : Task) (p : Phase) : Task := { t with phase := p }

/-- Takes a status on and tells it. -/
def announce (t : Task) (s : TaskStatus) (type : EventType) (payload : Json) :
    Task × List Effect :=
  ({ t with status := s }, [.publish (.task t.context.taskId s type payload)])

/-- Takes a status on and tells it, unless the task has it already. -/
def turn (t : Task) (s : TaskStatus) (type : EventType) (payload : Json) : Task × List Effect :=
  if t.status = s then (t, []) else t.announce s type payload

def tellAuth (t : Task) (o : AuthOutcome) : Effect :=
  .publish (.auth t.context.groupId t.context.taskId t.identifier o)

/-- The last event of a run that ends short of an order. -/
def close (t : Task) : Halt → Task × List Effect
  | .failed s reason =>
    let (t, told) := t.announce s .fail (.ofMembers [("reason", .string reason)])
    (t.enter .ended, told)
  | .stopped =>
    let (t, told) := t.announce .idle .stop Event.noPayload
    (t.enter .ended, told)

/-- Ends the run; a claim is given up first, and a login that failed is told. -/
def halt (t : Task) (h : Halt) : Task × List Effect :=
  match t.guard with
  | none => t.close h
  | some g =>
    let (t, told) := { t with guard := none }.close h
    let auth :=
      match h with
      | .failed .. => [t.tellAuth .failed]
      | .stopped => []
    (t, .finish g none :: auth ++ told)

/-- The run ends without a word; a claim is given up. -/
def crash (t : Task) : Task × List Effect :=
  ({ t with guard := none, phase := .crashed }, t.guard.toList.map fun g => .finish g none)

def awaitWave (t : Task) : Task × List Effect :=
  let (t, told) := t.turn .waitingForMonitor .update Event.noPayload
  (t.enter .awaitingWave, told)

/-- Goes on with a session. -/
def adopt (t : Task) (s : Session) (o : AuthOutcome) : Task × List Effect :=
  let t := { t with state := { t.state with session := some s } }
  let (u, told) := t.awaitWave
  (u, t.tellAuth o :: told)

/-- Goes on with the session of its own login. -/
def share (t : Task) (s : Session) : Task × List Effect :=
  let (u, told) := { t with guard := none }.adopt s .loggedIn
  (u, (t.guard.toList.map fun g => .finish g (some s)) ++ told)

def complete (t : Task) : Task × List Effect :=
  let (t, told) := t.announce .checkedOut .complete
    (.ofMembers [("order_number", .ofOption .string t.state.orderNumber)])
  (t.enter .ended, told)

/-- Starts an attempt at a step. -/
def attempt (t : Task) (s : Step) : Task × List Effect :=
  let (t, told) := t.turn s.status .update Event.noPayload
  ({ t with attempts := t.attempts.insert s (t.attemptsAt s + 1), phase := .calling s },
   told ++ [.call s])

/-- Goes on after a step that succeeded. -/
def succeed (t : Task) (s : Step) (session : Option Session) : Task × List Effect :=
  match s, session with
  | .login, some session => t.share session
  | .login, none => t.halt (.failed .checkoutFailed "login produced no session")
  | s, _ =>
    match s.next? with
    | some next => (t.enter (.entering next), [])
    | none => t.complete

/-- Waits before the next attempt at a step. -/
def pause (t : Task) (s : Step) (delay : Duration) (reason : String) : Task × List Effect :=
  let wait := UInt64.ofNat delay.millis
  let (u, told) := t.announce s.status .update
    (.ofMembers [("retry_in_ms", .ofNat wait.toNat), ("reason", .string reason),
      ("attempt", .ofNat (t.attemptsAt s).toNat)])
  (u.enter (.pausing s delay), told)

/-- Acts on what the decider makes of a failed attempt. -/
def failAttempt (t : Task) (s : Step) (failure : StepFailure) (terminal : Bool) : Task × List Effect :=
  match t.decider ⟨s, t.attemptsAt s, failure, terminal⟩ with
  | none => t.crash
  | some .stop => t.halt .stopped
  | some (.abort status reason) => t.halt (.failed status reason)
  | some (.retry delay reason) => t.pause s delay reason

/-- The failure that stands for a panic of the driver. -/
def panicFailure (s : Step) : StepFailure := ⟨.transient, Word.word s ++ " panicked", none⟩

/-- Acts on what an attempt came to. -/
def finishAttempt (t : Task) (s : Step) : Reply → Task × List Effect
  | .outcome (.success session) => t.succeed s session
  | .outcome (.retry f) => t.failAttempt s f false
  | .outcome (.terminal f) => t.failAttempt s f true
  | .panicked => t.failAttempt s (panicFailure s) false
  | .crashed => t.crash

def next? (t : Task) : Signal → Option (Task × List Effect)
  | .begin =>
    match t.phase with
    | .fresh =>
      let (t, told) := t.announce .settingUp .start Event.noPayload
      let (t, more) :=
        match t.context.credential with
        | none => t.awaitWave
        | some _ =>
          let (t, more) := t.turn .loggingIn .update Event.noPayload
          (t.enter .electing, more)
      some (t, told ++ more)
    | _ => none
  | .notice =>
    match t.phase, t.stopping with
    | .electing, true | .awaitingLogin, true | .entering _, true | .pausing .., true
    | .awaitingWave, true => some (t.halt .stopped)
    | _, _ => none
  | .elected claim =>
    match t.phase, t.stopping with
    | .electing, false =>
      match claim with
      | .materialized s => some (t.adopt s .adopted)
      | .inProgress => some (t.enter .awaitingLogin, [])
      | .claimed g => some ({ t with guard := some g }.enter (.entering .login), [])
    | _, _ => none
  | .looked look =>
    match t.phase, t.stopping with
    | .awaitingLogin, false =>
      match look with
      | .ready s => some (t.adopt s .adopted)
      | .vacant => some (t.enter .electing, [])
      | .busy => some (t, [])
    | _, _ => none
  | .proceed =>
    match t.phase, t.stopping with
    | .entering s, false => some (t.attempt s)
    | _, _ => none
  | .replied state reply =>
    match t.phase with
    | .calling .login => some (t.finishAttempt .login reply)
    | .calling s => some ({ t with state }.finishAttempt s reply)
    | _ => none
  | .rested =>
    match t.phase with
    | .pausing s _ => some (t.enter (.entering s), [])
    | _ => none
  | .fed next =>
    match t.phase, next with
    | .awaitingWave, .wave w =>
      match w.products with
      | [] => some (t, [])
      | p :: _ =>
        some ({ t with state := { t.state with product := some p } }.enter (.entering .addToCart), [])
    | .awaitingWave, .closed => some (t.halt .stopped)
    | _, _ => none

end Task

end Restock
