import Restock.Counts
import Restock.Supervisor.Basic

/-! What a supervisor shows of its groups.

The view lists the running groups by name and the tasks of each by id, with their
statuses, and counts how the tasks of a group are doing. -/
namespace Restock

structure GroupStatus where
  groupId : GroupId
  name : String
  retailer : String
  monitor : MonitorStatus
  tasks : List (TaskId × TaskStatus)
  counts : TaskCounts
  deriving DecidableEq, Repr

namespace GroupStatus

def toJson (g : GroupStatus) : Json :=
  .ofMembers [("group_id", g.groupId.toJson), ("name", .string g.name),
    ("retailer", .string g.retailer), ("monitor", Word.toJson g.monitor),
    ("tasks", .array (g.tasks.map fun (t, s) => .array [t.toJson, Word.toJson s])),
    ("counts", g.counts.toJson)]

end GroupStatus

namespace Supervisor

/-- The status of a group's monitor while the group runs. -/
def monitorStatus? (s : Supervisor) (g : GroupId) : Option MonitorStatus := do
  let group ← s.groups.get? g
  let m ← s.world.monitors.get? group.monitor
  return m.status

/-- The status of a task while a running group owns it. -/
def taskStatus? (s : Supervisor) (t : TaskId) : Option TaskStatus := do
  let (_, n) ← s.owner? t
  let task ← s.world.task? n
  return task.status

/-- The tasks that a group owns, by id. -/
def tasksOf (s : Supervisor) (group : Group) : List Task :=
  (group.tasks.values.filterMap s.world.task?).mergeSort fun a b =>
    decide (a.context.taskId.ulid ≤ b.context.taskId.ulid)

def groupStatus (s : Supervisor) (g : GroupId) (group : Group) : GroupStatus :=
  let tasks := s.tasksOf group
  { groupId := g, name := group.config.name, retailer := group.config.retailer
    monitor := (s.world.monitors.get? group.monitor).elim .idle Monitor.status
    tasks := tasks.map fun t => (t.context.taskId, t.status)
    counts := tasks.foldl (fun c t => c.record t.status t.ended) .zero }

/-- The running groups, by name. -/
def status (s : Supervisor) : List GroupStatus :=
  (s.groups.map fun (g, group) => s.groupStatus g group).mergeSort fun a b => decide (a.name ≤ b.name)

end Supervisor

end Restock
