import Restock.Bus
import Restock.Event
import Restock.Json.Printer

/-! The event log.

The logger is a subscriber that writes a line for every event until the closing
event, which it writes too, or until its subscription is closed. A line shows
the fields of its event as text, and its level is the weight of the event:
failures are warnings, completed tasks, products, logins and the close are
information, and all other changes of status are for debugging. -/
namespace Restock

inductive LogLevel
  | debug
  | info
  | warn
  deriving DecidableEq, Repr

def LogLevel.name : LogLevel → String
  | .debug => "DEBUG"
  | .info => "INFO"
  | .warn => "WARN"

structure LogLine where
  level : LogLevel
  message : String
  fields : List (String × String)
  deriving DecidableEq, Repr

namespace Event

/-- The line that the log has for an event. -/
def logLine (e : Event) : LogLine :=
  let message := "[" ++ e.kind ++ "]"
  match e with
  | .monitor g s ty p =>
    if ty = .fail then
      ⟨.warn, message, [("group", g.display), ("status", Word.title s), ("payload", p.text)]⟩
    else
      ⟨.debug, message,
       [("group", g.display), ("status", Word.title s), ("event_type", Word.title ty)]⟩
  | .product w =>
    ⟨.info, message,
     [("group", w.groupId.display), ("retailer", w.retailer),
      ("targets", Text.quotedList w.targetIds)]⟩
  | .task t s ty p =>
    let outcome := [("task", t.display), ("status", Word.title s), ("payload", p.text)]
    match ty with
    | .complete => ⟨.info, message, outcome⟩
    | .fail => ⟨.warn, message, outcome⟩
    | ty =>
      ⟨.debug, message,
       [("task", t.display), ("status", Word.title s), ("event_type", Word.title ty)]⟩
  | .auth g t c o =>
    ⟨.info, message,
     [("group", g.display), ("task", t.display), ("credential", c), ("outcome", Word.title o)]⟩
  | .close reason => ⟨.info, message, [("reason", reason)]⟩

end Event

/-- A logger and the events it has written, oldest first. -/
structure Logger where
  subscriber : SubscriberId
  written : List Event
  /-- The logger has met a closing event or the end of its subscription. -/
  ended : Bool
  deriving Repr

namespace Logger

/-- Writes what is queued for the logger; `fuel` bounds the events. -/
def catchUp (l : Logger) (b : Bus Event) : (fuel : Nat) → Logger × Bus Event
  | 0 => (l, b)
  | fuel + 1 =>
    if l.ended then (l, b)
    else
      match b.receive l.subscriber with
      | (.message e, b) =>
        { l with written := l.written ++ [e], ended := e.isClose }.catchUp b fuel
      | (.pending, b) => (l, b)
      | (.closed, b) => ({ l with ended := true }, b)

/-- Lets the logger run until it waits or has ended. -/
def run (l : Logger) (b : Bus Event) : Logger × Bus Event :=
  l.catchUp b (((b.queues.get? l.subscriber).getD []).length + 1)

end Logger

end Restock
