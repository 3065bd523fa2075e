import Restock.Config.Validation
import Restock.Registry
import Restock.Supervisor.Lineup

/-! The supervisor: its groups, its calls and its faults.

The supervisor owns the world of its monitors and tasks. A running group is listed
with its configuration, its monitor and the tasks it still owns; what comes later
under the same id takes over, and what it displaces goes on unowned. A call that
waits for activities to end is kept under a number while it is pending, with the
tasks it took from their groups, and its answer is kept after that. An activity
stays in the lineup until it has ended and nobody owns it. -/
namespace Restock

/-- Where new ids come from: two streams and how far they were used. -/
structure IdSource where
  taskId : Nat → TaskId
  groupId : Nat → GroupId
  tasks : Nat
  groups : Nat

namespace IdSource

/-- Gives the listed ids first and then counts from one. -/
def ofLists (tasks : List TaskId) (groups : List GroupId) : IdSource :=
  { taskId := fun n => (tasks[n]?).getD (.ofNat (n - tasks.length + 1))
    groupId := fun n => (groups[n]?).getD (.ofNat (n - groups.length + 1))
    tasks := 0, groups := 0 }

def nextTask (s : IdSource) : TaskId × IdSource := (s.taskId s.tasks, { s with tasks := s.tasks + 1 })

def nextGroup (s : IdSource) : GroupId × IdSource :=
  (s.groupId s.groups, { s with groups := s.groups + 1 })

end IdSource

/-- A running group: the places of its monitor and of the tasks it owns. -/
structure Group where
  config : GroupConfig
  monitor : Nat
  tasks : Table TaskId Nat
  deriving DecidableEq, Repr

/-- Why the supervisor refuses a call, or what it found in place of a report. -/
inductive SupervisorFault
  | config (f : ConfigFault)
  | registry (f : RegistryFault)
  | alreadyRunning (name : String)
  | unknownGroup (g : GroupId)
  | unknownTask (t : TaskId)
  | taskPanicked (t : TaskId)
  | shutDown
  deriving DecidableEq, Repr

def SupervisorFault.message : SupervisorFault → String
  | .config f => f.message
  | .registry f => f.message
  | .alreadyRunning name => "group '" ++ name ++ "' is already running"
  | .unknownGroup g => "unknown group " ++ g.display
  | .unknownTask t => "unknown task " ++ t.display
  | .taskPanicked t => "task " ++ t.display ++ " panicked"
  | .shutDown => "supervisor is shut down"

/-- A call that waits for activities to end. -/
inductive Call
  | stopTask (t : TaskId) (place : Nat)
  | stopGroup (g : GroupId) (group : Group)
  /-- The groups that are still to wind down, and the reports of the others. -/
  | shutdown (left : List (GroupId × Group)) (reports : List TaskReport)
  deriving DecidableEq, Repr

/-- What a call that waited gives back. -/
inductive Answer
  | task (result : Except SupervisorFault TaskReport)
  | reports (reports : List TaskReport)

structure Supervisor where
  settings : Settings
  /-- The retailers that groups may be started for. -/
  registry : Registry Unit
  ids : IdSource
  /-- A shutdown was called. -/
  closed : Bool
  groups : Table GroupId Group
  lineup : Lineup
  pending : Table Nat Call
  answers : Table Nat Answer
  nextCall : Nat
  world : World

namespace Supervisor

def new (registry : Registry Unit) (settings : Settings) (ids : IdSource) : Supervisor :=
  { settings, registry, ids, closed := false, groups := [], lineup := .empty, pending := []
    answers := [], nextCall := 0, world := .new settings.busCapacity.toNat }

/-- The group that owns a task, and the task's place. -/
def owner? (s : Supervisor) (t : TaskId) : Option (GroupId × Nat) :=
  s.groups.findSome? fun (g, group) => (group.tasks.get? t).map fun n => (g, n)

end Supervisor

/-- The monitor and the tasks of a group. -/
def Group.activities (group : Group) : List Activity :=
  .monitor group.monitor :: group.tasks.values.map .task

/-- The activities that a pending call owns. -/
def Call.activities : Call → List Activity
  | .stopTask _ n => [.task n]
  | .stopGroup _ group => group.activities
  | .shutdown left _ => left.flatMap fun e => e.2.activities

namespace Supervisor

/-- The activities that belong to a running group or to a pending call. -/
def owned (s : Supervisor) : List Activity :=
  s.groups.values.flatMap Group.activities ++ s.pending.values.flatMap Call.activities

/-- Those who have ended and are not owned leave the lineup, groups before tasks. -/
def tidy (s : Supervisor) : Supervisor :=
  let owned := s.owned
  let gone := s.lineup.everybody.filter fun a => !s.world.running a && !owned.contains a
  let (groups, tasks) := gone.partition (· matches .monitor _)
  { s with lineup := (groups ++ tasks).foldl Lineup.leave s.lineup }

/-- The run of every activity of a group is over. -/
def wound (s : Supervisor) (group : Group) : Bool :=
  group.activities.all fun a => !s.world.running a

/-- The report of a task that ended of itself. -/
def reportAt? (s : Supervisor) (n : Nat) : Option TaskReport := (s.world.task? n).bind Task.report?

end Supervisor

end Restock
