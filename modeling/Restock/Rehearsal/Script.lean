import Restock.Monitor
import Restock.Task

/-! Scripted collaborators.

A script says how the calls of a collaborator come out, one after the other, and
how long each takes. When a script is at its end the source is warm and shows
nothing, or repeats its last cue, and the driver succeeds. Every call is logged as
it begins. -/
namespace Restock.Rehearsal

/-- A result and the milliseconds that it takes. -/
structure Cue (α : Type) where
  latency : Nat
  result : α
  deriving Repr

/-! ### Sources -/

structure SourceScript where
  warmUps : List (Cue WarmUp)
  checks : List (Cue StockCheck)
  /-- How every check comes out after the listed ones. -/
  after : Cue StockCheck

/-- A source that is always warm and shows nothing. -/
def SourceScript.idle : SourceScript := ⟨[], [], ⟨0, .reports []⟩⟩

inductive SourceCall
  | warm (time : Nat)
  | check (time : Nat) (targets : List String)
  deriving DecidableEq, Repr

/-- A source at work: the rest of its script and its calls, the latest first. -/
structure Source where
  script : SourceScript
  calls : List SourceCall

namespace Source

/-- A call that warms the source up begins. -/
def warm (s : Source) (time : Nat) : Cue WarmUp × Source :=
  let calls := .warm time :: s.calls
  match s.script.warmUps with
  | [] => (⟨0, .ready⟩, { s with calls })
  | c :: cs => (c, ⟨{ s.script with warmUps := cs }, calls⟩)

/-- A check begins. -/
def check (s : Source) (time : Nat) (targets : List String) : Cue StockCheck × Source :=
  let calls := .check time targets :: s.calls
  match s.script.checks with
  | [] => (s.script.after, { s with calls })
  | c :: cs => (c, ⟨{ s.script with checks := cs }, calls⟩)

end Source

/-! ### Drivers -/

/-- How a call of a driver comes out. -/
inductive Scene
  | outcome (o : StepOutcome Unit)
  | panic
  | crash
  deriving Repr

structure Action where
  scene : Scene
  /-- Fields of the checkout's state that the call sets, whatever comes of it. -/
  writes : List (String × Json)
  /-- The data of the session that a login yields. -/
  session : Option Json
  deriving Repr

abbrev DriverScript := Table Step (List (Cue Action))

namespace DriverScript

/-- How the next call of a step comes out, and the rest of the script. -/
def next (d : DriverScript) (step : Step) : Cue Action × DriverScript :=
  match d.get? step with
  | some (c :: cs) => (c, d.put step cs)
  | _ => (⟨0, ⟨.outcome (.success ()), [], none⟩⟩, d)

end DriverScript

/-- A call of a driver as it begins. -/
structure DriverCall where
  context : TaskContext
  time : Nat
  step : Step
  /-- The state of the checkout as the call finds it. -/
  state : CheckoutState

def textOf? : Json → Option String
  | .string s => some s
  | _ => none

def floatOf? : Json → Option Float
  | .int n => some (Json.Number.toFloat (.int n))
  | .float x => some x
  | _ => none

/-- Sets a field of a checkout's state by its stored name; other names are the
retailer's own. -/
def write (s : CheckoutState) (field : String) (value : Json) : CheckoutState :=
  match field with
  | "cart_id" => { s with cartId := textOf? value }
  | "cart_total" => { s with cartTotal := floatOf? value }
  | "shipping_confirmation" => { s with shippingConfirmation := textOf? value }
  | "payment_token" => { s with paymentToken := textOf? value }
  | "order_number" => { s with orderNumber := textOf? value }
  | field => { s with extra := Json.insertMember field value s.extra }

/-- What a step that succeeds leaves in the state if nothing is there. -/
def fill (s : CheckoutState) : Step → CheckoutState
  | .login => s
  | .addToCart => { s with cartId := s.cartId.or (some "cart-1") }
  | .getCartInfo => { s with cartTotal := s.cartTotal.or (s.product.map Product.price) }
  | .setShipping => { s with shippingConfirmation := s.shippingConfirmation.or (some "ship-ok") }
  | .setBilling => { s with paymentToken := s.paymentToken.or (some "pay-tok") }
  | .placeOrder => { s with orderNumber := s.orderNumber.or (some "order-1") }

namespace Action

/-- The state that the call of a step leaves. -/
def leaves (a : Action) (step : Step) (s : CheckoutState) : CheckoutState :=
  let s := a.writes.foldl (fun s (field, value) => write s field value) s
  match a.scene with
  | .outcome (.success ()) => fill s step
  | _ => s

/-- The session that a login for a task yields. -/
def sessionFor (a : Action) (c : TaskContext) : Session :=
  ⟨(c.credential.map Credential.identifier).getD "",
   a.session.getD (.object [("by", c.taskId.toJson)])⟩

/-- What the task hears of the call. -/
def reply (a : Action) (step : Step) (c : TaskContext) : Reply :=
  match a.scene with
  | .outcome o =>
    .outcome (o.map fun () => if step = .login then some (a.sessionFor c) else none)
  | .panic => .panicked
  | .crash => .crashed

end Action

/-! ### Deciders -/

/-- Stops at the first failure. -/
def stopAtOnce : Decider := fun _ => some .stop

/-- Retries some times after a fixed wait and then gives up. -/
def retryThenAbort (times : Nat) (delay : Duration) (status : TaskStatus) : Decider := fun a =>
  if a.attempts.toNat ≤ times then some (.retry delay ("again " ++ a.failure.reason))
  else some (.abort status (Word.word a.step ++ " gave up"))

end Restock.Rehearsal
