/-! A schedule on a virtual clock.

An actor acts until it rests or has left. A resting actor wakes when a bell that it
listens for rings or when its time has come. Actors that are awake take turns in
the order in which they woke, those woken together in the order in which they went
to rest. Time is counted in milliseconds and moves only while everybody rests. -/
namespace Restock.Rehearsal

/-- What a resting actor waits for. -/
structure Rest (β : Type) where
  bells : List β
  deadline : Option Nat
  deriving Repr

/-- What becomes of an actor that has acted. -/
inductive Turn (β : Type)
  | again
  | rest (r : Rest β)
  | leave
  deriving Repr

/-- Actors of type `α`, bells of type `β`. -/
structure Schedule (α β : Type) where
  now : Nat
  awake : List α
  /-- In the order in which they went to rest. -/
  resting : List (α × Rest β)
  deriving Repr

/-- What happens when an actor acts at a time: the stage after it, the bells it
rings and its turn. -/
abbrev Act (α β σ : Type) := α → Nat → σ → σ × List β × Turn β

namespace Schedule

variable {α β : Type}

def new : Schedule α β := ⟨0, [], []⟩

/-- Actors enter, awake. -/
def enter (s : Schedule α β) (actors : List α) : Schedule α β :=
  { s with awake := s.awake ++ actors }

/-- Wakes the resting actors that a condition holds for. -/
def wake (s : Schedule α β) (cond : Rest β → Bool) : Schedule α β :=
  let woken := s.resting.filter fun e => cond e.2
  { s with awake := s.awake ++ woken.map (·.1), resting := s.resting.filter fun e => !cond e.2 }

/-- Rings bells one after the other. -/
def ring [BEq β] (s : Schedule α β) (bells : List β) : Schedule α β :=
  bells.foldl (fun s b => s.wake fun r => r.bells.contains b) s

/-- Time moves on to `t`; who is due wakes. -/
def moveTo (s : Schedule α β) (t : Nat) : Schedule α β :=
  { s with now := t }.wake fun r => r.deadline.any (· ≤ t)

/-- The earliest time at which somebody is due. -/
def nextDeadline? (s : Schedule α β) : Option Nat := (s.resting.filterMap (·.2.deadline)).min?

/-- The turn of an actor that has acted. -/
def apply (s : Schedule α β) (a : α) : Turn β → Schedule α β
  | .again => { s with awake := a :: s.awake }
  | .rest r => { s with resting := s.resting ++ [(a, r)] }
  | .leave => s

/-- Lets actors act and time pass until a moment comes, or until everybody rests and
`done` holds. Somebody who waits for the moment sees it before the actors that are
due then. `fuel` bounds the number of acts. -/
def play {σ : Type} [BEq β] (act : Act α β σ) (moment : Option Nat) (done : σ → Bool) :
    (fuel : Nat) → Schedule α β → σ → Schedule α β × σ
  | 0, s, stage => (s, stage)
  | fuel + 1, s, stage =>
    match s.awake with
    | a :: awake =>
      let (stage, bells, turn) := act a s.now stage
      play act moment done fuel (({ s with awake }.apply a turn).ring bells) stage
    | [] =>
      if done stage then (s, stage)
      else
        match s.nextDeadline?, moment with
        | some d, some t =>
          if d < t then play act moment done fuel (s.moveTo d) stage else (s.moveTo t, stage)
        | some d, none => play act moment done fuel (s.moveTo d) stage
        | none, some t => (s.moveTo t, stage)
        | none, none => (s, stage)

/-- More acts than any rehearsal has. -/
def patience : Nat := 1000000000000000

end Schedule

end Restock.Rehearsal
