import Restock.Pool

/-! Waiting for an account.

A waiter first listens for the next change of the pool, then looks at its account,
and rests only if it is busy. A change is told in a step of its own, after the pool
has changed: whoever listens or rests by then hears it. So the news of a change
that comes between a look and the rest after it is not lost, and a waiter looks
again because it has heard of a change, or after a pause in any case. -/
namespace Restock

/-- What a wait has come to. -/
inductive WaitEnd
  | ready (session : Session)
  | vacant
  | stopped
  deriving DecidableEq, Repr

namespace Waiter

inductive Phase
  | starting
  /-- Before a look; `heard` says that a change was told since it listens. -/
  | listening (heard : Bool)
  /-- The account was busy. -/
  | resting (heard : Bool)
  | ended (outcome : WaitEnd)
  deriving DecidableEq, Repr

inductive Move
  | listen
  /-- Sees that the stop flag is raised. -/
  | notice
  | look
  /-- Gets up because it has heard of a change. -/
  | wake
  /-- Gets up after a pause. -/
  | timeout
  deriving DecidableEq, Repr

end Waiter

structure Waiter where
  account : AccountKey
  stopping : Bool
  phase : Waiter.Phase
  deriving DecidableEq, Repr

namespace Waiter

def new (k : AccountKey) : Waiter := ⟨k, false, .starting⟩

/-- Raises the stop flag. -/
def stop (w : Waiter) : Waiter := { w with stopping := true }

def enter (w : Waiter) (p : Phase) : Waiter := { w with phase := p }

/-- A change is told. -/
def hear (w : Waiter) : Waiter :=
  match w.phase with
  | .listening _ => w.enter (.listening true)
  | .resting _ => w.enter (.resting true)
  | _ => w

def outcome? (w : Waiter) : Option WaitEnd :=
  match w.phase with
  | .ended e => some e
  | _ => none

/-- What a look leads to. -/
def afterLook (heard : Bool) : Look → Phase
  | .ready s => .ended (.ready s)
  | .vacant => .ended .vacant
  | .busy => .resting heard

def next? (w : Waiter) (p : Pool) : Move → Option Waiter
  | .listen =>
    match w.phase, w.stopping with
    | .starting, false => some (w.enter (.listening false))
    | _, _ => none
  | .notice =>
    match w.phase, w.stopping with
    | .starting, true | .resting _, true => some (w.enter (.ended .stopped))
    | _, _ => none
  | .look =>
    match w.phase with
    | .listening heard => some (w.enter (afterLook heard (p.look w.account)))
    | _ => none
  | .wake =>
    match w.phase with
    | .resting true => some (w.enter .starting)
    | _ => none
  | .timeout =>
    match w.phase with
    | .resting _ => some (w.enter .starting)
    | _ => none

end Waiter

/-- The pool and those who wait for its accounts, by name. -/
structure Lobby where
  pool : Pool
  /-- Changes of the pool that are still to be told. -/
  untold : Nat
  waiters : Table String Waiter

namespace Lobby

def empty : Lobby := ⟨.empty, 0, []⟩

instance : Inhabited Lobby := ⟨empty⟩

/-! ### The pool -/

/-- Puts a pool in place; a change of it is still to be told. -/
def put (l : Lobby) (p : Pool) (changed : Bool) : Lobby :=
  { l with pool := p, untold := if changed then l.untold + 1 else l.untold }

def claim (l : Lobby) (k : AccountKey) : Claim × Lobby :=
  let (claim, p) := l.pool.claim k
  (claim, l.put p false)

def finish (l : Lobby) (g : Guard) (session : Option Session) : Lobby :=
  let (p, changed) := l.pool.finish g session
  l.put p changed

def release (l : Lobby) (k : AccountKey) : Lobby :=
  let (p, changed) := l.pool.release k
  l.put p changed

/-- Forgets the keys of a group; how many there were. -/
def removeGroup (l : Lobby) (g : GroupId) : Nat × Lobby :=
  let (p, n) := l.pool.removeGroup g
  (n, l.put p (n != 0))

/-- Tells a change to everybody. -/
def tell? (l : Lobby) : Option Lobby :=
  match l.untold with
  | 0 => none
  | n + 1 => some { l with untold := n, waiters := l.waiters.mapValues Waiter.hear }

/-! ### The waiters -/

/-- Somebody begins to wait. -/
def enter (l : Lobby) (name : String) (k : AccountKey) : Lobby :=
  { l with waiters := l.waiters.put name (.new k) }

def stop (l : Lobby) (name : String) : Lobby :=
  { l with waiters := l.waiters.modify name Waiter.stop }

/-- A waiter moves; `none` if it cannot move in this way. -/
def move? (l : Lobby) (name : String) (m : Waiter.Move) : Option Lobby := do
  let w ← l.waiters.get? name
  let w ← w.next? l.pool m
  return { l with waiters := l.waiters.put name w }

end Lobby

end Restock
