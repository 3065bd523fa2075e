import Restock.World

/-! The order in which a stop reaches the activities of a supervisor.

Groups line up as they start, and the tasks of a group as they join it. A stop goes
through a line from its end to its front, and in a group it reaches the tasks before
the monitor. Where somebody leaves a line, the last of the line moves up into the
gap. Tasks that outlast their group go to the end of the line of groups. -/
namespace Restock

/-- Takes the first that passes a test out of a line; the last moves up into the gap. -/
def leaveLine {α : Type} (line : List α) (leaves : α → Bool) : List α :=
  match line.findIdx? leaves, line.getLast? with
  | some i, some last => (line.set i last).dropLast
  | _, _ => line

/-- One in the line of groups. -/
inductive Rank
  | group (monitor : Nat) (tasks : List Nat)
  /-- A task that outlasted its group. -/
  | task (place : Nat)
  deriving DecidableEq, Repr

namespace Rank

def isGroup (n : Nat) : Rank → Bool
  | .group m _ => m = n
  | .task _ => false

def tasks : Rank → List Nat
  | .group _ ts => ts
  | .task _ => []

/-- Changes the line of a group's tasks. -/
def mapTasks (f : List Nat → List Nat) : Rank → Rank
  | .group n ts => .group n (f ts)
  | .task t => .task t

/-- Whom a stop reaches here, in order. -/
def reached : Rank → List Activity
  | .group n ts => ts.reverse.map Activity.task ++ [Activity.monitor n]
  | .task t => [.task t]

end Rank

/-- The line of groups. -/
structure Lineup where
  ranks : List Rank
  deriving DecidableEq, Repr

namespace Lineup

def empty : Lineup := ⟨[]⟩

instance : Inhabited Lineup := ⟨empty⟩

/-- The line of the tasks of a group. -/
def tasksOf (l : Lineup) (n : Nat) : List Nat :=
  (l.ranks.filter (Rank.isGroup n)).flatMap Rank.tasks

def mapTasks (l : Lineup) (f : List Nat → List Nat) : Lineup := ⟨l.ranks.map (Rank.mapTasks f)⟩

/-- Changes the line of the tasks of one group. -/
def mapTasksOf (l : Lineup) (n : Nat) (f : List Nat → List Nat) : Lineup :=
  ⟨l.ranks.map fun r => if r.isGroup n then r.mapTasks f else r⟩

/-- A group joins, by the place of its monitor. -/
def joinGroup (l : Lineup) (n : Nat) : Lineup := ⟨l.ranks ++ [.group n []]⟩

/-- A task joins a group. -/
def joinTask (l : Lineup) (n t : Nat) : Lineup := l.mapTasksOf n (· ++ [t])

/-- A task leaves, or a group does; the tasks of the group stay behind. -/
def leave (l : Lineup) : Activity → Lineup
  | .task t =>
    { l with ranks := leaveLine l.ranks (· = Rank.task t) }.mapTasks (leaveLine · (· = t))
  | .monitor n => ⟨leaveLine (l.ranks ++ (l.tasksOf n).map Rank.task) (Rank.isGroup n)⟩

/-- Everybody in the line, in the order in which a stop reaches them. -/
def everybody (l : Lineup) : List Activity := l.ranks.reverse.flatMap Rank.reached

/-- The activities of a group, in the order in which a stop reaches them. -/
def group (l : Lineup) (n : Nat) : List Activity := (Rank.group n (l.tasksOf n)).reached

end Lineup

/-- Activities in a given order; those that the order does not name come last. -/
def inOrder (order activities : List Activity) : List Activity :=
  order ++ activities.filter fun a => !order.contains a

theorem mem_inOrder {order activities : List Activity} {a : Activity} (h : a ∈ activities) :
    a ∈ inOrder order activities := by
  by_cases ho : a ∈ order <;> simp [inOrder, ho, h]

end Restock
