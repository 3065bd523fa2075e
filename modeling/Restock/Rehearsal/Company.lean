import Restock.Logger
import Restock.Rehearsal.Schedule
import Restock.Rehearsal.Script
import Restock.Supervisor.Calls

/-! The company of a rehearsal.

Monitors and tasks act in the supervisor's world with scripted collaborators, and
observers act beside them: a collector and loggers that receive from the bus, and a
watcher of a feed. An act is one step of an activity. It is followed by a rest if
the activity waits for a call or a pause to end, or finds that there is nothing to
go on with. -/
namespace Restock.Rehearsal

inductive Actor
  | monitor (place : Nat)
  | task (place : Nat)
  /-- Receives every event of the bus and notes the time. -/
  | collector
  | logger (n : Nat)
  /-- Receives the waves of a feed and notes the time. -/
  | watcher
  deriving DecidableEq, Repr

inductive Bell
  /-- Something was published. -/
  | bus
  | feed (n : Nat)
  | pool
  /-- The stop flag of an activity was raised. -/
  | stop (a : Activity)
  deriving DecidableEq, Repr

structure Collector where
  subscriber : SubscriberId
  /-- Events with their times, the latest first. -/
  collected : List (Nat × Event)

structure Watcher where
  feed : Nat
  watch : Watch
  /-- Waves with their times, the latest first. -/
  seen : List (Nat × Wave)

structure Company where
  supervisor : Supervisor
  /-- The sources of the monitors and the drivers of the tasks, by their places. -/
  sources : Table Nat Source
  drivers : Table Nat DriverScript
  /-- The calls of drivers, the latest first. -/
  calls : List DriverCall
  /-- The calls that have begun and not ended, with what will come of them. -/
  warming : Table Nat (Cue WarmUp)
  checking : Table Nat (Cue StockCheck)
  calling : Table Nat (Cue Action)
  collector : Option Collector
  loggers : Table Nat Logger
  watcher : Option Watcher

namespace Company

def new (s : Supervisor) : Company := ⟨s, [], [], [], [], [], [], none, [], none⟩

def world (c : Company) : World := c.supervisor.world

def withWorld (c : Company) (w : World) : Company :=
  { c with supervisor := { c.supervisor with world := w } }

/-! ### Calls of collaborators -/

def beginWarm (c : Company) (now n : Nat) : Company :=
  let (cue, source) := ((c.sources.get? n).getD ⟨.idle, []⟩).warm now
  { c with sources := c.sources.put n source, warming := c.warming.put n cue }

def beginCheck (c : Company) (now n : Nat) : Company :=
  let targets := ((c.world.monitors.get? n).map fun m => m.targets.map WatchTarget.id).getD []
  let (cue, source) := ((c.sources.get? n).getD ⟨.idle, []⟩).check now targets
  { c with sources := c.sources.put n source, checking := c.checking.put n cue }

def beginCall (c : Company) (now n : Nat) (step : Step) : Company :=
  match c.world.task? n with
  | none => c
  | some t =>
    let (cue, script) := ((c.drivers.get? n).getD []).next step
    { c with
      drivers := c.drivers.put n script
      calls := ⟨t.context, now, step, t.state⟩ :: c.calls
      calling := c.calling.put n cue }

/-- The calls that begin with a step. -/
def begin (now : Nat) (c : Company) : Happening → Company
  | .warming n => c.beginWarm now n
  | .checking n => c.beginCheck now n
  | .calling n step => c.beginCall now n step
  | _ => c

/-- The bells that ring when something happens. -/
def bells : Happening → List Bell
  | .published _ => [.bus]
  | .fed n _ | .feedClosed n => [.feed n]
  | .poolChanged => [.pool]
  | .stopped activities => activities.map .stop
  | _ => []

/-- One step of an activity. -/
def step (c : Company) (now : Nat) (m : Move) : Company × List Bell :=
  match c.supervisor.act? m with
  | none => (c, [])
  | some (s, seen) => (seen.foldl (begin now) { c with supervisor := s }, seen.flatMap bells)

/-! ### Acting -/

/-- A rest of some milliseconds; none at all if it is of no length. -/
def busy (now ms : Nat) : Turn Bell :=
  if ms = 0 then .again else .rest ⟨[], some (now + ms)⟩

/-- A rest that a stop cuts short; none at all if it is of no length or the stop
flag is already raised. -/
def pause (now ms : Nat) (stopping : Bool) (a : Activity) : Turn Bell :=
  if stopping || ms = 0 then .again else .rest ⟨[.stop a], some (now + ms)⟩

/-- What a monitor does after a step. -/
def monitorTurn (c : Company) (now n : Nat) (m : Monitor) : Turn Bell :=
  match m.phase with
  | .fresh | .deciding => .again
  | .warming => busy now ((c.warming.get? n).elim 0 Cue.latency)
  | .checking => busy now ((c.checking.get? n).elim 0 Cue.latency)
  | .backingOff => pause now m.warmBackoff.millisUp m.stopping (.monitor n)
  | .resting => pause now m.delay.millisUp m.stopping (.monitor n)
  | .stopped | .crashed => .leave

/-- The signal that a monitor gets when it is awake. -/
def monitorSignal (c : Company) (n : Nat) (m : Monitor) : Monitor.Signal :=
  match m.phase with
  | .fresh => .begin
  | .deciding => if m.stopping then .notice else .proceed
  | .warming => .warmed ((c.warming.get? n).elim .ready Cue.result)
  | .checking => .checked ((c.checking.get? n).elim (.reports []) Cue.result)
  | .backingOff | .resting => if m.stopping then .notice else .rested
  | .stopped | .crashed => .notice

def actMonitor (c : Company) (now n : Nat) : Company × List Bell × Turn Bell :=
  match c.world.monitors.get? n with
  | none => (c, [], .leave)
  | some m =>
    let (c, rung) := c.step now (.monitor n (c.monitorSignal n m))
    match c.world.monitors.get? n with
    | none => (c, rung, .leave)
    | some m => (c, rung, c.monitorTurn now n m)

/-- What a task does after a step. -/
def taskTurn (c : Company) (now n : Nat) (t : Task) : Turn Bell :=
  match t.phase with
  | .calling _ => busy now ((c.calling.get? n).elim 0 Cue.latency)
  | .pausing _ delay => pause now delay.millisUp t.stopping (.task n)
  | .ended | .crashed => .leave
  | _ => .again

/-- The move of a task that is awake; `none` if there is nothing to go on with. -/
def taskMove? (c : Company) (n : Nat) (b : Buyer) : Option TaskMove :=
  let t := b.task
  let unlessStopping (m : TaskMove) : TaskMove := if t.stopping then .notice else m
  match t.phase with
  | .fresh => some .begin
  | .electing => some (unlessStopping .elect)
  | .awaitingLogin =>
    if t.stopping then some .notice
    else if t.account?.any fun k => c.world.pool.look k == .busy then none
    else some .look
  | .entering _ => some (unlessStopping .proceed)
  | .calling s =>
    (c.calling.get? n).map fun cue =>
      .reply (cue.result.leaves s t.state) (cue.result.reply s t.context)
  | .pausing .. => some (unlessStopping .rest)
  | .awaitingWave =>
    if t.stopping then some .notice
    else if ((c.world.feed b.feed).next b.watch).1 matches .pending then none
    else some .take
  | .ended | .crashed => none

/-- How a task rests that has nothing to go on with. -/
def taskRest (c : Company) (now n : Nat) (b : Buyer) : Rest Bell :=
  let stop := Bell.stop (.task n)
  match b.task.phase with
  | .awaitingLogin =>
    ⟨[.pool, stop], some (now + max 1 c.supervisor.settings.accountPoll.millisUp)⟩
  | _ => ⟨[.feed b.feed, stop], none⟩

def actTask (c : Company) (now n : Nat) : Company × List Bell × Turn Bell :=
  match c.world.buyers.get? n with
  | none => (c, [], .leave)
  | some b =>
    match c.taskMove? n b with
    | none => (c, [], if b.task.ended then .leave else .rest (c.taskRest now n b))
    | some m =>
      let (c, rung) := c.step now (.task n m)
      match c.world.task? n with
      | none => (c, rung, .leave)
      | some task => (c, rung, c.taskTurn now n task)

/-- Takes the next event from the bus for a subscriber. -/
def receive (c : Company) (i : SubscriberId) : Reception Event × Company :=
  let (r, bus) := c.world.bus.receive i
  (r, c.withWorld { c.world with bus })

def actCollector (c : Company) (now : Nat) : Company × List Bell × Turn Bell :=
  match c.collector with
  | none => (c, [], .leave)
  | some k =>
    match c.receive k.subscriber with
    | (.message e, c) =>
      ({ c with collector := some { k with collected := (now, e) :: k.collected } }, [], .again)
    | (.pending, c) => (c, [], .rest ⟨[.bus], none⟩)
    | (.closed, c) => (c, [], .leave)

/-- A logger writes what is queued; one that has ended leaves the bus. -/
def actLogger (c : Company) (n : Nat) : Company × List Bell × Turn Bell :=
  match c.loggers.get? n with
  | none => (c, [], .leave)
  | some l =>
    let (l, bus) := l.run c.world.bus
    let c := { c with loggers := c.loggers.put n l }
    if l.ended then (c.withWorld { c.world with bus := bus.drop l.subscriber }, [], .leave)
    else (c.withWorld { c.world with bus }, [], .rest ⟨[.bus], none⟩)

def actWatcher (c : Company) (now : Nat) : Company × List Bell × Turn Bell :=
  match c.watcher with
  | none => (c, [], .leave)
  | some k =>
    match (c.world.feed k.feed).next k.watch with
    | (.wave w, watch) =>
      ({ c with watcher := some { k with watch, seen := (now, w) :: k.seen } }, [], .again)
    | (.pending, _) => (c, [], .rest ⟨[.feed k.feed], none⟩)
    | (.closed, _) => (c, [], .leave)

def act : Act Actor Bell Company
  | .monitor n, now, c => c.actMonitor now n
  | .task n, now, c => c.actTask now n
  | .collector, now, c => c.actCollector now
  | .logger n, _, c => c.actLogger n
  | .watcher, now, c => c.actWatcher now

end Company

end Restock.Rehearsal
