import Restock.Bus
import Restock.Monitor
import Restock.Task

/-! Monitors and tasks at work together.

They share a bus, a pool of sessions and the feeds that lead from monitors to
tasks; nothing else passes between them. Whoever is put to work gets a place, a
number that is given out once, while an id may come twice. A monitor sits at the
place of its feed. `World.step?` makes one of them act: it finds the signal that the
shared objects hold for it and carries its effects out. Only the answers of the
collaborators and the passing of time come from outside. No step reads the bus. -/
namespace Restock

/-- Who works at a place. -/
inductive Activity
  | monitor (place : Nat)
  | task (place : Nat)
  deriving DecidableEq, Repr

/-- A task and its view of a feed. -/
structure Buyer where
  task : Task
  feed : Nat
  watch : Watch

/-- What a task can do by itself, or with the answer of its driver. -/
inductive TaskMove
  | begin
  | notice
  /-- Claims the account. -/
  | elect
  /-- Looks at the account that another task logs in for. -/
  | look
  | proceed
  | reply (state : CheckoutState) (reply : Reply)
  | rest
  /-- Takes the next wave. -/
  | take
  deriving DecidableEq, Repr

inductive Move
  | monitor (place : Nat) (signal : Monitor.Signal)
  | task (place : Nat) (move : TaskMove)
  deriving DecidableEq, Repr

/-- What others may notice of a step. -/
inductive Happening
  | published (event : Event)
  | fed (feed : Nat) (wave : Wave)
  /-- The last holder of the feed went away. -/
  | feedClosed (feed : Nat)
  | poolChanged
  /-- Stop flags were raised. -/
  | stopped (activities : List Activity)
  | warming (place : Nat)
  | checking (place : Nat)
  | calling (place : Nat) (step : Step)
  | ended (activity : Activity)
  deriving DecidableEq, Repr

structure World where
  bus : Bus Event
  pool : Pool
  feeds : Table Nat (Feed Wave)
  monitors : Table Nat Monitor
  buyers : Table Nat Buyer

namespace World

def new (busCapacity : Nat) : World := ⟨.new busCapacity, .empty, [], [], []⟩

instance : Inhabited World := ⟨new 1⟩

/-! ### Shared objects -/

def publish (w : World) (e : Event) : World × List Happening :=
  ({ w with bus := (w.bus.publish e).2 }, [.published e])

/-- The feed at a place; a feed that was never opened has no holder. -/
def feed (w : World) (n : Nat) : Feed Wave := (w.feeds.get? n).getD ⟨0, none, 0⟩

/-- Opens a feed with one holder, at the next place. -/
def openFeed (w : World) : Nat × World :=
  (w.feeds.length, { w with feeds := w.feeds.put w.feeds.length .new })

def feedWave (w : World) (n : Nat) (wave : Wave) : World × List Happening :=
  ({ w with feeds := w.feeds.modify n (·.publish wave) }, [.fed n wave])

/-- A holder of a feed goes away. -/
def leaveFeed (w : World) (n : Nat) : World × List Happening :=
  let w := { w with feeds := w.feeds.modify n Feed.leave }
  (w, if (w.feed n).isClosed then [.feedClosed n] else [])

/-- Puts a changed pool in place. -/
def withPool (w : World) (p : Pool) (changed : Bool) : World × List Happening :=
  ({ w with pool := p }, if changed then [.poolChanged] else [])

def finishClaim (w : World) (guard : Guard) (session : Option Session) : World × List Happening :=
  let (p, changed) := w.pool.finish guard session
  w.withPool p changed

/-- Forgets what the pool holds for an account. -/
def releaseAccount (w : World) (k : AccountKey) : World × List Happening :=
  let (p, changed) := w.pool.release k
  w.withPool p changed

/-- Forgets what the pool holds for a group. -/
def forgetGroup (w : World) (g : GroupId) : World × List Happening :=
  let (p, n) := w.pool.removeGroup g
  w.withPool p (n != 0)

/-! ### Activities -/

/-- Puts a monitor to work at the place of a feed; it becomes a holder of it. -/
def addMonitor (w : World) (n : Nat) (m : Monitor) : World :=
  { w with monitors := w.monitors.put n m, feeds := w.feeds.modify n Feed.share }

/-- Puts a task to work at the next place; it sees the waves that come from now on. -/
def addTask (w : World) (t : Task) (feed : Nat) : Nat × World :=
  (w.buyers.length,
   { w with buyers := w.buyers.put w.buyers.length ⟨t, feed, (w.feed feed).subscribe⟩ })

def task? (w : World) (n : Nat) : Option Task := (w.buyers.get? n).map Buyer.task

/-- The activity exists and its run is not over. -/
def running (w : World) : Activity → Bool
  | .monitor n => (w.monitors.get? n).any (!·.ended)
  | .task n => (w.task? n).any (!·.ended)

def raise (w : World) : Activity → World
  | .monitor n => { w with monitors := w.monitors.modify n Monitor.stop }
  | .task n => { w with buyers := w.buyers.modify n fun b => { b with task := b.task.stop } }

/-- Raises the stop flags of activities. -/
def stop (w : World) (activities : List Activity) : World × List Happening :=
  (activities.foldl raise w, [.stopped activities])

/-! ### Steps -/

/-- Carries effects out one after the other. -/
def perform {ε : Type} (f : World → ε → World × List Happening) (w : World) :
    List ε → World × List Happening
  | [] => (w, [])
  | e :: es =>
    let (w, first) := f w e
    let (w, rest) := perform f w es
    (w, first ++ rest)

def performMonitor (n : Nat) (w : World) : Monitor.Effect → World × List Happening
  | .publish e => w.publish e
  | .feed wave => w.feedWave n wave
  | .warm => (w, [.warming n])
  | .check => (w, [.checking n])

def performTask (n : Nat) (w : World) : Task.Effect → World × List Happening
  | .publish e => w.publish e
  | .finish guard session => w.finishClaim guard session
  | .call s => (w, [.calling n s])

def stepMonitor (w : World) (n : Nat) (s : Monitor.Signal) : Option (World × List Happening) := do
  let m ← w.monitors.get? n
  let (m, effects) ← m.next? s
  let (w, seen) := perform (performMonitor n) { w with monitors := w.monitors.put n m } effects
  if m.ended then
    let (w, left) := w.leaveFeed n
    some (w, seen ++ left ++ [.ended (.monitor n)])
  else some (w, seen)

/-- The signal that a move brings to a task, with the pool and the watch as the
move leaves them. -/
def signal? (w : World) (b : Buyer) : TaskMove → Option (Task.Signal × Pool × Watch)
  | .begin => some (.begin, w.pool, b.watch)
  | .notice => some (.notice, w.pool, b.watch)
  | .elect => do
    let (claim, pool) := w.pool.claim (← b.task.account?)
    some (.elected claim, pool, b.watch)
  | .look => do some (.looked (w.pool.look (← b.task.account?)), w.pool, b.watch)
  | .proceed => some (.proceed, w.pool, b.watch)
  | .reply state r => some (.replied state r, w.pool, b.watch)
  | .rest => some (.rested, w.pool, b.watch)
  | .take =>
    let (next, watch) := (w.feed b.feed).next b.watch
    some (.fed next, w.pool, watch)

def stepTask (w : World) (n : Nat) (m : TaskMove) : Option (World × List Happening) := do
  let b ← w.buyers.get? n
  let (signal, pool, watch) ← w.signal? b m
  let (task, effects) ← b.task.next? signal
  let w := { w with pool, buyers := w.buyers.put n { b with task, watch } }
  let (w, seen) := perform (performTask n) w effects
  some (w, if task.ended then seen ++ [.ended (.task n)] else seen)

/-- One activity acts; `none` if it cannot act in this way. -/
def step? (w : World) : Move → Option (World × List Happening)
  | .monitor n s => w.stepMonitor n s
  | .task n m => w.stepTask n m

end World

end Restock
