import Restock.Supervisor.Calls

/-! The calls of a supervisor, one thing after the other.

`Supervisor.startGroup` and the others say what a call makes of a supervisor. Here each
call is the work it takes: it looks, draws ids, has collaborators built, puts activities
to work, and may find a fault on the way. Nothing is taken back then. What was drawn
stays drawn, and what was built stays built. The parts of one call follow each other
with nothing in between. -/
namespace Restock

/-- What the adapter of a retailer builds. -/
inductive Collaborator
  | source (c : GroupConfig)
  | driver (group : GroupConfig) (c : TaskConfig)
  deriving DecidableEq, Repr

/-- A supervisor at work, with all that was built for it and all that happened. -/
structure Conduct where
  supervisor : Supervisor
  built : List Collaborator
  seen : List Happening

/-- Work that may end in a fault. What was done before stays done. -/
abbrev Work := ExceptT SupervisorFault (StateM Conduct)

namespace Work

variable {α : Type}

def carryOut (w : Work α) (k : Conduct) : Except SupervisorFault α × Conduct :=
  StateT.run (ExceptT.run w) k

/-- Asks the supervisor something. -/
def look (f : Supervisor → α) : Work α := do return f (← get).supervisor

/-- Changes the supervisor. -/
def alter (f : Supervisor → α × Supervisor) : Work α :=
  modifyGet fun k => ((f k.supervisor).1, { k with supervisor := (f k.supervisor).2 })

/-- Changes the supervisor; others may notice. -/
def act (f : Supervisor → Supervisor × List Happening) : Work Unit :=
  modify fun k => { k with supervisor := (f k.supervisor).1, seen := k.seen ++ (f k.supervisor).2 }

def build (c : Collaborator) : Work Unit := modify fun k => { k with built := k.built ++ [c] }

/-- Goes on only if a check was passed. -/
def demand : Except SupervisorFault α → Work Unit
  | .ok _ => pure ()
  | .error f => throw f

/-! ### Starting -/

def drawTask : Work TaskId :=
  alter fun s => (s.ids.nextTask.1, { s with ids := s.ids.nextTask.2 })

def drawGroup : Work GroupId :=
  alter fun s => (s.ids.nextGroup.1, { s with ids := s.ids.nextGroup.2 })

/-- Opens a feed, and a line for the tasks that will watch it. -/
def openFeed : Work Nat :=
  alter fun s => (s.world.openFeed.1,
    { s with world := s.world.openFeed.2, lineup := s.lineup.joinGroup s.world.openFeed.1 })

/-- Puts a task to work that watches a feed. -/
def employ (task : Task) (feed : Nat) : Work Nat :=
  alter fun s => ((s.world.addTask task feed).1,
    { s with
      world := (s.world.addTask task feed).2
      lineup := s.lineup.joinTask feed (s.world.addTask task feed).1 })

def spawnTask (g : GroupId) (monitor : Nat) (group : GroupConfig) (c : TaskConfig) :
    Work (TaskId × Nat) := do
  let t ← drawTask
  build (.driver group c)
  let task : Task := .new ⟨t, g, group.retailer, c.credential, c.profile, c.proxy⟩ c.retry.decide
  let n ← employ task monitor
  return (t, n)

def spawnTasks (g : GroupId) (monitor : Nat) (group : GroupConfig) (owned : Table TaskId Nat) :
    List TaskConfig → Work (Table TaskId Nat)
  | [] => return owned
  | c :: cs => do
    let (t, n) ← spawnTask g monitor group c
    spawnTasks g monitor group (owned.put t n) cs

/-- Puts a group to work: its tasks watch its feed before its monitor begins. -/
def establish (c : GroupConfig) : Work GroupId := do
  let g ← drawGroup
  build (.source c)
  let n ← openFeed
  let tasks ← spawnTasks g n c [] c.tasks
  act fun s => ({ s with world := s.world.addMonitor n (.ofConfig g c) }, [])
  act (·.enlist g ⟨c, n, tasks⟩)
  return g

def startGroup (c : GroupConfig) : Work GroupId := do
  if ← look (·.closed) then throw .shutDown
  demand (c.validate.mapError .config)
  demand (← look fun s => (s.registry.get c.retailer).mapError .registry)
  if ← look (·.nameTaken c.name) then throw (.alreadyRunning c.name)
  establish c

def addTask (g : GroupId) (c : TaskConfig) : Work TaskId := do
  demand (c.validate.mapError fun f => .config (.task none f))
  match ← look (·.groups.get? g) with
  | none => throw (.unknownGroup g)
  | some group =>
    let (t, n) ← spawnTask g group.monitor group.config c
    act fun s =>
      ({ s with groups := s.groups.put g { group with tasks := group.tasks.put t n } }.tidy, [])
    return t

/-! ### Stopping -/

/-- Takes a task out of the groups, one after the other, until it is found. -/
def takeOut (t : TaskId) : Table GroupId Group → Option Nat × Table GroupId Group
  | [] => (none, [])
  | (g, group) :: groups =>
    let left := (g, { group with tasks := group.tasks.erase t })
    match group.tasks.get? t with
    | some n => (some n, left :: groups)
    | none => ((takeOut t groups).1, left :: (takeOut t groups).2)

/-- The number of the call that waits for the task. -/
def stopTask (t : TaskId) : Work Nat := do
  match ← alter fun s => ((takeOut t s.groups).1, { s with groups := (takeOut t s.groups).2 }) with
  | none => throw (.unknownTask t)
  | some n =>
    let call ← alter (·.await (.stopTask t n))
    act (·.raise [.task n])
    return call

/-- The number of the call that waits for the group. -/
def stopGroup (g : GroupId) : Work Nat := do
  match ← alter fun s => (s.groups.get? g, { s with groups := s.groups.erase g }) with
  | none => throw (.unknownGroup g)
  | some group =>
    let line ← look (·.lineup.group group.monitor)
    act fun s => ({ s with lineup := s.lineup.mapTasksOf group.monitor fun _ => [] }, [])
    let call ← alter (·.await (.stopGroup g group))
    act (·.raise (inOrder line group.activities))
    return call

end Work

/-- What is asked of a supervisor and may be refused. -/
inductive Request
  | startGroup (c : GroupConfig)
  | addTask (g : GroupId) (c : TaskConfig)
  | stopTask (t : TaskId)
  | stopGroup (g : GroupId)

/-- What a request is answered with at once: the id of what was started, or the number of
the call that waits. -/
inductive Receipt
  | group (g : GroupId)
  | task (t : TaskId)
  | call (n : Nat)

def Request.work : Request → Work Receipt
  | .startGroup c => Receipt.group <$> Work.startGroup c
  | .addTask g c => Receipt.task <$> Work.addTask g c
  | .stopTask t => Receipt.call <$> Work.stopTask t
  | .stopGroup g => Receipt.call <$> Work.stopGroup g

end Restock
