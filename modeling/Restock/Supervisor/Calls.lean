import Restock.Supervisor.Basic

/-! What can be asked of a supervisor.

Starting a group and adding a task are done at once; what they refuse leaves the
supervisor as it was. Stopping a task, a group or everything takes effect at once
too, but is answered only when the activities concerned have ended: `settle?`
carries a pending call on as far as it can go. Winding a group down forgets its
sessions. The last thing that a shutdown does is to publish the closing event.

What is done at once is one atomic step. Calls and activities take turns only where
they wait for something: nothing comes between the look of `startGroup` at the
shutdown flag and the entry of its group among the running ones, or between the look
of `shutdown` at the flag and its taking the groups. Two threads that call into one
supervisor at the same time could get in between; what is proved about supervisors
does not speak of them. -/
namespace Restock

namespace Supervisor

/-! ### Starting -/

/-- Puts a new task to work in a group, whose monitor has the given place. -/
def spawnTask (s : Supervisor) (g : GroupId) (monitor : Nat) (retailer : String) (c : TaskConfig) :
    TaskId × Nat × Supervisor :=
  let (t, ids) := s.ids.nextTask
  let task : Task := .new ⟨t, g, retailer, c.credential, c.profile, c.proxy⟩ c.retry.decide
  let (n, world) := s.world.addTask task monitor
  (t, n, { s with ids, world, lineup := s.lineup.joinTask monitor n })

/-- Puts the tasks of a new group to work; those that the group then owns. -/
def spawnTasks (s : Supervisor) (g : GroupId) (monitor : Nat) (retailer : String)
    (owned : Table TaskId Nat) : List TaskConfig → Table TaskId Nat × Supervisor
  | [] => (owned, s)
  | c :: cs =>
    let (t, n, s) := s.spawnTask g monitor retailer c
    spawnTasks s g monitor retailer (owned.put t n) cs

/-- A running group has the name. -/
def nameTaken (s : Supervisor) (name : String) : Bool :=
  s.groups.any fun e => e.2.config.name == name

/-- Lists a running group. The group that it displaces lets go of its feed. -/
def enlist (s : Supervisor) (g : GroupId) (group : Group) : Supervisor × List Happening :=
  let (world, left) := match s.groups.get? g with
    | none => (s.world, [])
    | some old => s.world.leaveFeed old.monitor
  ({ s with world, groups := s.groups.put g group }.tidy, left)

/-- Starts a group: its tasks watch its feed before its monitor goes to work. -/
def startGroup (s : Supervisor) (c : GroupConfig) :
    Except SupervisorFault (GroupId × Supervisor × List Happening) := do
  if s.closed then throw .shutDown
  c.validate.mapError .config
  (s.registry.get c.retailer).mapError .registry
  if s.nameTaken c.name then throw (.alreadyRunning c.name)
  let (g, ids) := s.ids.nextGroup
  let (n, world) := s.world.openFeed
  let (tasks, s) := { s with ids, world, lineup := s.lineup.joinGroup n }.spawnTasks g n c.retailer
    [] c.tasks
  return (g, { s with world := s.world.addMonitor n (.ofConfig g c) }.enlist g ⟨c, n, tasks⟩)

/-- Adds a task to a running group; it waits for the next wave. -/
def addTask (s : Supervisor) (g : GroupId) (c : TaskConfig) :
    Except SupervisorFault (TaskId × Supervisor) := do
  c.validate.mapError fun f => .config (.task none f)
  match s.groups.get? g with
  | none => throw (.unknownGroup g)
  | some group =>
    let (t, n, s) := s.spawnTask g group.monitor group.config.retailer c
    return (t, { s with
      groups := s.groups.put g { group with tasks := group.tasks.put t n } }.tidy)

/-! ### Stopping -/

/-- Raises stop flags. -/
def raise (s : Supervisor) (activities : List Activity) : Supervisor × List Happening :=
  let (world, seen) := s.world.stop activities
  ({ s with world }, seen)

/-- Keeps a call until it can be answered. -/
def await (s : Supervisor) (c : Call) : Nat × Supervisor :=
  (s.nextCall, { s with pending := s.pending.put s.nextCall c, nextCall := s.nextCall + 1 })

/-- Takes a task out of its group and stops it; the number of the call. -/
def stopTask (s : Supervisor) (t : TaskId) :
    Except SupervisorFault (Nat × Supervisor × List Happening) :=
  match s.owner? t with
  | none => .error (.unknownTask t)
  | some (g, n) =>
    let s := { s with groups := s.groups.modify g fun group =>
      { group with tasks := group.tasks.erase t } }
    let (call, s) := s.await (.stopTask t n)
    .ok (call, s.raise [.task n])

/-- Takes a group out and stops its activities; the number of the call. -/
def stopGroup (s : Supervisor) (g : GroupId) :
    Except SupervisorFault (Nat × Supervisor × List Happening) :=
  match s.groups.get? g with
  | none => .error (.unknownGroup g)
  | some group =>
    let (call, t) := { s with
      groups := s.groups.erase g
      lineup := s.lineup.mapTasksOf group.monitor fun _ => [] }.await (.stopGroup g group)
    .ok (call, t.raise (inOrder (s.lineup.group group.monitor) group.activities))

/-- Every activity that a supervisor has put to work. -/
def everyActivity (s : Supervisor) : List Activity :=
  s.world.monitors.keys.map .monitor ++ s.world.buyers.keys.map .task

/-- Answers a call. -/
def answer (s : Supervisor) (n : Nat) (a : Answer) : Supervisor :=
  { s with pending := s.pending.erase n, answers := s.answers.put n a }

/-- Stops everything; the number of the call. Only the first shutdown has anything
to do. The groups are wound down one after the other, in the order in which they stand
in the table. That order is a choice: which group comes first is promised nowhere. -/
def shutdown (s : Supervisor) : Nat × Supervisor × List Happening :=
  if s.closed then
    (s.nextCall, { s with nextCall := s.nextCall + 1 }.answer s.nextCall (.reports []), [])
  else
    let (n, t) := { s with closed := true, groups := [], lineup := .empty }.await
      (.shutdown s.groups [])
    (n, t.raise (inOrder s.lineup.everybody s.everyActivity))

/-! ### Answering -/

/-- Reports in the order of the ids of their tasks. The order is a choice, so that there
is one answer: whoever asks for reports is promised all of them, in no order. -/
def sortReports (rs : List TaskReport) : List TaskReport :=
  rs.mergeSort fun a b => decide (a.taskId.ulid ≤ b.taskId.ulid)

/-- Takes the reports of a group whose activities have ended and forgets its
sessions and its feed. -/
def collect (s : Supervisor) (g : GroupId) (group : Group) :
    List TaskReport × Supervisor × List Happening :=
  let reports := group.tasks.values.filterMap s.reportAt?
  let (world, seen) := s.world.forgetGroup g
  let (world, left) := world.leaveFeed group.monitor
  (reports, { s with world }, seen ++ left)

/-- What is found where a stopped task ended. -/
def resultOf (s : Supervisor) (t : TaskId) (n : Nat) : Except SupervisorFault TaskReport :=
  match s.reportAt? n with
  | some r => .ok r
  | none => .error (.taskPanicked t)

/-- Carries a pending call on if the activities it waits for next have ended. -/
def settle? (s : Supervisor) (n : Nat) : Option (Supervisor × List Happening) :=
  match s.pending.get? n with
  | none => none
  | some (.stopTask t place) =>
    if s.world.running (.task place) then none
    else some ((s.answer n (.task (s.resultOf t place))).tidy, [])
  | some (.stopGroup g group) =>
    if s.wound group then
      let (reports, s, seen) := s.collect g group
      some ((s.answer n (.reports (sortReports reports))).tidy, seen)
    else none
  | some (.shutdown [] reports) =>
    let (world, seen) := s.world.publish (.close "supervisor shutdown")
    some ({ s with world }.answer n (.reports (sortReports reports)), seen)
  | some (.shutdown ((g, group) :: left) reports) =>
    if s.wound group then
      let (more, s, seen) := s.collect g group
      some ({ s with pending := s.pending.put n (.shutdown left (reports ++ more)) }, seen)
    else none

/-- One of the supervisor's activities acts. -/
def act? (s : Supervisor) (m : Move) : Option (Supervisor × List Happening) :=
  (s.world.step? m).map fun (world, seen) =>
    let s := { s with world }
    (if seen.any (· matches .ended _) then s.tidy else s, seen)

end Supervisor

end Restock
