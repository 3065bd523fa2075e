import Restock.Lobby
import Restock.Rehearsal.Schedule

/-! A rehearsal of the pool alone.

Claims are held and finished from outside, and every change is told at once. Those
who wait for an account act on a schedule: they get up when a change is told, when
they are stopped, and after a pause in any case. -/
namespace Restock.Rehearsal

/-- A lobby in which waiting takes time. -/
structure WaitingRoom where
  lobby : Lobby
  /-- The pauses of the waiters, in milliseconds. -/
  pauses : Table String Nat
  /-- When the waits were over. -/
  ends : Table String Nat

inductive WaitBell
  /-- A change of the pool was told. -/
  | pool
  | stop (name : String)
  deriving DecidableEq, Repr

namespace WaitingRoom

/-- The move of a waiter that is awake. -/
def moveOf (w : Waiter) : Waiter.Move :=
  match w.phase with
  | .starting => if w.stopping then .notice else .listen
  | .listening _ => .look
  | .resting heard => if w.stopping then .notice else if heard then .wake else .timeout
  | .ended _ => .notice

/-- What a waiter does after a move. -/
def turn (room : WaitingRoom) (name : String) (now : Nat) (w : Waiter) : Turn WaitBell :=
  match w.phase with
  | .starting | .listening _ => .again
  | .resting _ => .rest ⟨[.pool, .stop name], some (now + max 1 ((room.pauses.get? name).getD 0))⟩
  | .ended _ => .leave

def step? (room : WaitingRoom) (name : String) (now : Nat) : Option (WaitingRoom × Turn WaitBell) := do
  let w ← room.lobby.waiters.get? name
  let lobby ← room.lobby.move? name (moveOf w)
  let w ← lobby.waiters.get? name
  let ends := if w.outcome?.isSome then room.ends.put name now else room.ends
  return ({ room with lobby, ends }, room.turn name now w)

def act : Act String WaitBell WaitingRoom := fun name now room =>
  match room.step? name now with
  | some (room, turn) => (room, [], turn)
  | none => (room, [], .leave)

end WaitingRoom

/-- A waiting room on its schedule, and the claims that are held, by name. -/
structure PoolRehearsal where
  schedule : Schedule String WaitBell
  room : WaitingRoom
  guards : Table String Guard

namespace PoolRehearsal

def new : PoolRehearsal := ⟨.new, ⟨.empty, [], []⟩, []⟩

def lobby (p : PoolRehearsal) : Lobby := p.room.lobby

def pool (p : PoolRehearsal) : Pool := p.lobby.pool

/-- Puts a lobby in place; what is untold in it is told. -/
def put (p : PoolRehearsal) (lobby : Lobby) : PoolRehearsal :=
  match lobby.tell? with
  | none => { p with room := { p.room with lobby } }
  | some lobby => { p with room := { p.room with lobby }, schedule := p.schedule.ring [.pool] }

/-- Finishes the claim that is held under a name, if there is one. -/
def finish (p : PoolRehearsal) (name : String) (session : Option Session) : Bool × PoolRehearsal :=
  match p.guards.get? name with
  | none => (false, p)
  | some g => (true, { p with guards := p.guards.erase name }.put (p.lobby.finish g session))

/-- Claims an account; a new claim takes the place of the one held under its name,
which is given up. -/
def claim (p : PoolRehearsal) (name : String) (k : AccountKey) : Claim × PoolRehearsal :=
  let (claim, lobby) := p.lobby.claim k
  let p := p.put lobby
  match claim with
  | .claimed g =>
    let (_, p) := p.finish name none
    (claim, { p with guards := p.guards.put name g })
  | _ => (claim, p)

def release (p : PoolRehearsal) (k : AccountKey) : PoolRehearsal := p.put (p.lobby.release k)

def removeGroup (p : PoolRehearsal) (g : GroupId) : Nat × PoolRehearsal :=
  let (n, lobby) := p.lobby.removeGroup g
  (n, p.put lobby)

/-- Somebody begins to wait, with a pause in milliseconds. -/
def wait (p : PoolRehearsal) (name : String) (k : AccountKey) (pause : Nat) : PoolRehearsal :=
  { p with
    room := ⟨p.lobby.enter name k, p.room.pauses.put name pause, p.room.ends.erase name⟩
    schedule := p.schedule.enter [name] }

def stop (p : PoolRehearsal) (name : String) : PoolRehearsal :=
  { p with
    room := { p.room with lobby := p.lobby.stop name }
    schedule := p.schedule.ring [.stop name] }

/-- What a wait has come to, and when. -/
def outcome? (p : PoolRehearsal) (name : String) : Option (WaitEnd × Nat) := do
  let w ← p.lobby.waiters.get? name
  return (← w.outcome?, ← p.room.ends.get? name)

/-- Lets time pass. -/
def advance (p : PoolRehearsal) (ms : Nat) : PoolRehearsal :=
  if ms = 0 then p
  else
    let (schedule, room) := p.schedule.play WaitingRoom.act (some (p.schedule.now + ms))
      (fun _ => false) Schedule.patience p.room
    { p with schedule, room }

end PoolRehearsal

end Restock.Rehearsal
