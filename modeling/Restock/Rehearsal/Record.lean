import Restock.Rehearsal.Basic

/-! The record of a rehearsal.

Events and calls are shown with their times. A call of a driver shows which parts
of the checkout were there and the session; the first call that is shown for an id
shows the whole context of its task too. -/
namespace Restock

/-- Values under the names that `source` gives them, each name's in their order. -/
def bySource {α : Type} (source : α → String) (json : α → Json) (xs : List α) : Json :=
  .ofMembers ((xs.map source).eraseDups.map fun n =>
    (n, .array ((xs.filter fun x => source x == n).map json)))

namespace Rehearsal

def timedEvent (e : Nat × Event) : Json :=
  .ofMembers (("t", .ofNat e.1) :: ("event", .string e.2.kind) :: e.2.members)

/-- The collected events by their sources. -/
def eventsJson (r : Rehearsal) : Json :=
  .ofOption (bySource (fun e => e.2.source) timedEvent) r.collected

def SourceCall.toJson : SourceCall → Json
  | .warm t => .array [.ofNat t, .string "warm"]
  | .check t ids => .array [.ofNat t, .string "check", .array (ids.map .string)]

/-- The calls of the source of the monitor at a place. -/
def sourceCallsJson (r : Rehearsal) (n : Nat) : Json :=
  .array (((r.company.sources.get? n).elim [] Source.calls).reverse.map SourceCall.toJson)

/-- The calls of the last source of each name of a group. -/
def sourcesJson (r : Rehearsal) : Json :=
  .ofMembers (r.named.map fun (name, n) => (name, r.sourceCallsJson n))

def contextJson (c : TaskContext) : Json :=
  .ofMembers [("task_id", c.taskId.toJson), ("group_id", c.groupId.toJson),
    ("retailer", .string c.retailer),
    ("identifier", .ofOption (fun k : Credential => .string k.identifier) c.credential),
    ("secret", .ofOption (fun k : Credential => .string k.secret) c.credential),
    ("profile", c.profile), ("proxy", .ofOption .string c.proxy)]

/-- The stored names of the parts of a checkout that are there. -/
def partsThere (s : CheckoutState) : List String :=
  match s.toJson with
  | .object ms => (ms.filter fun m => !m.2.isNull).map (·.1)
  | _ => []

def DriverCall.members (c : DriverCall) : List (String × Json) :=
  let basic := [("t", Json.ofNat c.time), ("step", Word.toJson c.step)]
  if c.step = .login then basic
  else
    basic ++ [("sees", .array ((partsThere c.state).map .string)),
      ("session", .ofOption Session.toJson c.state.session)]

def callsJson : List DriverCall → List Json
  | [] => []
  | first :: rest =>
    .ofMembers (("ctx", contextJson first.context) :: first.members) ::
      rest.map fun c => .ofMembers c.members

/-- The calls of the drivers by the ids of their tasks. -/
def driversJson (r : Rehearsal) : Json :=
  let calls := r.company.calls.reverse
  .ofMembers ((calls.map (·.context.taskId)).eraseDups.map fun t =>
    (t.display, .array (callsJson (calls.filter fun c => c.context.taskId == t))))

/-- A report with its session and the number of all attempts. -/
def reportJson (r : TaskReport) : Json :=
  .ofMembers (r.members ++ [("session", .ofOption Session.toJson r.state.session),
    ("total_attempts", .ofNat r.totalAttempts)])

/-- The events that the last logger has written. -/
def loggedJson (r : Rehearsal) : Json :=
  .ofOption (fun l : Logger => .ofNat l.written.length) r.company.loggers.values.getLast?

end Rehearsal

end Restock
