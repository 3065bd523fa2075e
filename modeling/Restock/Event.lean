import Restock.Checkout.State

/-! Events for observers.

Monitors and tasks tell what they do by events: every change of status, every
wave of products and every outcome of a login. The last event of all says that
everything has closed. -/
namespace Restock

/-- How a task came by its session, or that it did not. -/
inductive AuthOutcome
  | loggedIn
  /-- The session of another task's login. -/
  | adopted
  | failed
  deriving DecidableEq, Repr, Inhabited

instance : Word AuthOutcome where
  all := [.loggedIn, .adopted, .failed]
  word
    | .loggedIn => "logged_in"
    | .adopted => "adopted"
    | .failed => "failed"

/-- Products that a monitor sends to the tasks of its group at once. -/
structure Wave where
  retailer : String
  groupId : GroupId
  products : List Product
  deriving DecidableEq, Repr, Inhabited

namespace Wave

def members (w : Wave) : List (String × Json) :=
  [("retailer", .string w.retailer), ("group_id", w.groupId.toJson),
   ("products", .array (w.products.map Product.toJson))]

def toJson (w : Wave) : Json := .ofMembers w.members

def targetIds (w : Wave) : List String := w.products.map Product.targetId

end Wave

inductive Event
  | auth (groupId : GroupId) (taskId : TaskId) (credential : String) (outcome : AuthOutcome)
  | close (reason : String)
  | task (taskId : TaskId) (status : TaskStatus) (type : EventType) (payload : Json)
  | monitor (groupId : GroupId) (status : MonitorStatus) (type : EventType) (payload : Json)
  | product (wave : Wave)
  deriving DecidableEq, Repr, Inhabited

namespace Event

/-- The name of the kind of event. -/
def kind : Event → String
  | .auth .. => "auth"
  | .close _ => "close"
  | .task .. => "task"
  | .monitor .. => "monitor"
  | .product _ => "product"

def members : Event → List (String × Json)
  | .auth g t c o =>
    [("group_id", g.toJson), ("task_id", t.toJson), ("credential", .string c),
     ("outcome", Word.toJson o)]
  | .close reason => [("reason", .string reason)]
  | .task t s ty p =>
    [("status", Word.toJson s), ("event_type", Word.toJson ty), ("payload", p),
     ("task_id", t.toJson)]
  | .monitor g s ty p =>
    [("status", Word.toJson s), ("event_type", Word.toJson ty), ("payload", p),
     ("group_id", g.toJson)]
  | .product w => w.members

def toJson (e : Event) : Json :=
  .ofMembers (("event", .string e.kind) :: e.members)

/-- The activity that publishes an event; closing is nobody's. -/
def source : Event → String
  | .auth _ t _ _ | .task t _ _ _ => t.display
  | .monitor g _ _ _ => g.display
  | .product w => w.groupId.display
  | .close _ => "close"

def isClose : Event → Bool
  | .close _ => true
  | _ => false

/-- An empty payload. -/
def noPayload : Json := .object []

end Event

end Restock
