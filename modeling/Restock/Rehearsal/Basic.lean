import Restock.Rehearsal.Company

/-! Rehearsals.

A rehearsal runs monitors and tasks with scripted collaborators on a virtual clock.
Whoever conducts it changes the world or calls the supervisor, and the activities
act while the conductor sleeps or waits for an answer. An activity that is put to
work has not acted before that, and a raised flag is not noticed before that. -/
namespace Restock

/-- The scripts of a retailer: its sources by the name of the group, its drivers by
the name that the profile of a task gives. -/
structure Rehearsal.Cast where
  sources : Table String Rehearsal.SourceScript
  drivers : Table String Rehearsal.DriverScript

structure Rehearsal where
  schedule : Rehearsal.Schedule Rehearsal.Actor Rehearsal.Bell
  company : Rehearsal.Company
  casts : Table String Rehearsal.Cast
  /-- The place of the last monitor that was put to work for a group with a name. -/
  named : Table String Nat

namespace Rehearsal

/-- A rehearsal of a supervisor whose retailers follow scripts. -/
def new (s : Supervisor) (casts : Table String Cast) : Rehearsal := ⟨.new, .new s, casts, []⟩

def now (r : Rehearsal) : Nat := r.schedule.now

def supervisor (r : Rehearsal) : Supervisor := r.company.supervisor

def world (r : Rehearsal) : World := r.company.world

/-! ### Time -/

/-- The conductor sleeps for some milliseconds. -/
def sleep (r : Rehearsal) (ms : Nat) : Rehearsal :=
  if ms = 0 then r
  else
    let (schedule, company) := r.schedule.play Company.act (some (r.now + ms)) (fun _ => false)
      Schedule.patience r.company
    { r with schedule, company }

/-- The conductor waits for a condition. -/
def await (r : Rehearsal) (done : Company → Bool) : Rehearsal :=
  if done r.company then r
  else
    let (schedule, company) := r.schedule.play Company.act none done Schedule.patience r.company
    { r with schedule, company }

/-- The conductor waits for the end of an activity. -/
def awaitEnd (r : Rehearsal) (a : Activity) : Rehearsal := r.await fun c => !c.world.running a

/-- Lets everybody who is awake act until all rest, at the present time. -/
def quiesce (r : Rehearsal) : Rehearsal :=
  let (schedule, company) :=
    r.schedule.play Company.act none (fun _ => true) Schedule.patience r.company
  { r with schedule, company }

/-! ### The conductor's changes -/

def enter (r : Rehearsal) (actors : List Actor) : Rehearsal :=
  { r with schedule := r.schedule.enter actors }

/-- Those who wait for what has happened wake. -/
def hear (r : Rehearsal) (seen : List Happening) : Rehearsal :=
  { r with schedule := r.schedule.ring (seen.flatMap Company.bells) }

def withSupervisor (r : Rehearsal) (s : Supervisor) : Rehearsal :=
  { r with company := { r.company with supervisor := s } }

def withWorld (r : Rehearsal) (w : World) : Rehearsal := { r with company := r.company.withWorld w }

/-- Changes the world. -/
def change (r : Rehearsal) (f : World → World × List Happening) : Rehearsal :=
  let (w, seen) := f r.world
  (r.withWorld w).hear seen

/-- Gives the monitor at a place its source and puts it on. -/
def employMonitor (r : Rehearsal) (n : Nat) (script : SourceScript) : Rehearsal :=
  { r with company := { r.company with sources := r.company.sources.put n ⟨script, []⟩ } }.enter
    [.monitor n]

/-- Gives the task at a place its driver and puts it on. -/
def employTask (r : Rehearsal) (n : Nat) (script : DriverScript) : Rehearsal :=
  { r with company := { r.company with drivers := r.company.drivers.put n script } }.enter
    [.task n]

/-- Puts a monitor with a scripted source to work, on a new feed; its place. -/
def addMonitor (r : Rehearsal) (m : Monitor) (script : SourceScript) : Nat × Rehearsal :=
  let (n, w) := r.world.openFeed
  (n, (r.withWorld (w.addMonitor n m)).employMonitor n script)

/-- Puts a task with a scripted driver to work; its place. -/
def addTask (r : Rehearsal) (t : Task) (feed : Nat) (script : DriverScript) : Nat × Rehearsal :=
  let (n, w) := r.world.addTask t feed
  (n, (r.withWorld w).employTask n script)

/-! ### Observers -/

/-- A new subscriber of the bus, if there can be one. -/
def subscribe? (r : Rehearsal) : Option (SubscriberId × Rehearsal) :=
  r.world.bus.subscribe?.map fun (i, bus) => (i, r.withWorld { r.world with bus })

/-- Lets a collector receive every event from now on. -/
def collect? (r : Rehearsal) : Option Rehearsal :=
  r.subscribe?.map fun (i, r) =>
    { r with company := { r.company with collector := some ⟨i, []⟩ } }.enter [.collector]

/-- Lets another logger write every event from now on. -/
def log? (r : Rehearsal) : Option Rehearsal :=
  r.subscribe?.map fun (i, r) =>
    let n := r.company.loggers.length
    { r with company := { r.company with loggers := r.company.loggers.put n ⟨i, [], false⟩ } }.enter
      [.logger n]

/-- Lets a watcher see every wave of a feed from now on. -/
def watchFeed (r : Rehearsal) (n : Nat) : Rehearsal :=
  { r with company := { r.company with
      watcher := some ⟨n, (r.world.feed n).subscribe, []⟩ } }.enter [.watcher]

/-- The events that were collected, with their times, and those that are still
queued. -/
def collected (r : Rehearsal) : Option (List (Nat × Event)) :=
  r.company.collector.map fun k =>
    k.collected.reverse ++ (r.world.bus.drain k.subscriber).1.map fun e => (r.now, e)

/-! ### Calls of the supervisor -/

/-- The script for the driver of a task. -/
def driverScript (r : Rehearsal) (retailer : String) (profile : Json) : DriverScript :=
  match r.casts.get? retailer, profile with
  | some cast, .object members =>
    match members.lookup "driver" with
    | some (.string name) => (cast.drivers.get? name).getD []
    | _ => []
  | _, _ => []

/-- Puts on the tasks at the places from `n` on, each with the driver that its
retailer has for its profile. -/
def employTasksFrom (r : Rehearsal) (n : Nat) : Rehearsal :=
  (r.world.buyers.drop n).foldl (fun r (n, b) =>
    r.employTask n (r.driverScript b.task.context.retailer b.task.context.profile)) r

def startGroup (r : Rehearsal) (c : GroupConfig) : Except SupervisorFault (GroupId × Rehearsal) := do
  let (g, s, seen) ← r.supervisor.startGroup c
  let script := ((r.casts.get? c.retailer).bind (·.sources.get? c.name)).getD .idle
  let n := r.world.feeds.length
  let next := ((r.withSupervisor s).employTasksFrom r.world.buyers.length).employMonitor n script
  return (g, { next with named := r.named.put c.name n }.hear seen)

def addTaskTo (r : Rehearsal) (g : GroupId) (c : TaskConfig) :
    Except SupervisorFault (TaskId × Rehearsal) := do
  let (t, s) ← r.supervisor.addTask g c
  return (t, (r.withSupervisor s).employTasksFrom r.world.buyers.length)

/-- Waits for the answer to a call of the supervisor. A call has no more parts than
there are groups, and one. -/
def settle (n : Nat) : (parts : Nat) → Rehearsal → Option Answer × Rehearsal
  | 0, r => (r.supervisor.answers.get? n, r)
  | parts + 1, r =>
    match r.supervisor.answers.get? n with
    | some a => (some a, r)
    | none =>
      let r := r.await fun c => (c.supervisor.settle? n).isSome
      match r.supervisor.settle? n with
      | none => (none, r)
      | some (s, seen) => settle n parts ((r.withSupervisor s).hear seen)

/-- Makes a call of the supervisor and waits for its answer. -/
def call (r : Rehearsal) (n : Nat) (s : Supervisor) (seen : List Happening) :
    Option Answer × Rehearsal :=
  settle n (s.world.monitors.length + 2) ((r.withSupervisor s).hear seen)

def stopTask (r : Rehearsal) (t : TaskId) : Except SupervisorFault (Option Answer × Rehearsal) := do
  let (n, s, seen) ← r.supervisor.stopTask t
  return r.call n s seen

def stopGroup (r : Rehearsal) (g : GroupId) : Except SupervisorFault (Option Answer × Rehearsal) := do
  let (n, s, seen) ← r.supervisor.stopGroup g
  return r.call n s seen

def shutdown (r : Rehearsal) : Option Answer × Rehearsal :=
  let (n, s, seen) := r.supervisor.shutdown
  r.call n s seen

end Rehearsal

end Restock
