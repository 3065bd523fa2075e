import Restock.Table

/-! The event bus: a bounded queue for each subscriber.

Publishing never waits. Every member with room in its queue gets the message, and
for a full queue the message is lost. The bus does not walk its members to
publish but a snapshot of them, which every change of the membership discards and
the next publication renews. A subscription outlives its membership: what is
queued can still be received, and then it is closed. -/
namespace Restock

/-- Subscribers are counted from one. -/
structure SubscriberId where
  number : Nat
  deriving DecidableEq, Repr

def SubscriberId.display (i : SubscriberId) : String := "sub-" ++ toString i.number

/-- Queues beyond this capacity cannot be made. -/
def maxCapacity : Nat := 1 <<< 61 - 1

structure Bus (α : Type) where
  /-- Messages that wait for one subscriber at most. -/
  capacity : Nat
  nextId : Nat
  members : List SubscriberId
  /-- The members as the next publication sees them, if it need not look again. -/
  snapshot : Option (List SubscriberId)
  /-- The waiting messages of every subscription, oldest first. -/
  queues : Table SubscriberId (List α)
  /-- Someone still holds the bus. -/
  alive : Bool
  deriving Repr

/-- What a subscriber gets when it asks for a message. -/
inductive Reception (α : Type)
  | message (m : α)
  /-- Nothing is queued yet. -/
  | pending
  /-- Nothing is queued and nothing will be. -/
  | closed
  deriving DecidableEq, Repr

namespace Bus

variable {α : Type}

/-- A bus whose queues hold `capacity` messages, but at least one. -/
def new (capacity : Nat) : Bus α := ⟨max capacity 1, 1, [], none, [], true⟩

/-- A new member with an empty queue, unless such a queue cannot be made. -/
def subscribe? (b : Bus α) : Option (SubscriberId × Bus α) :=
  if maxCapacity < b.capacity then none
  else
    let id := ⟨b.nextId⟩
    some (id, { b with
      nextId := b.nextId + 1
      members := b.members ++ [id]
      snapshot := none
      queues := b.queues.put id [] })

/-- Ends a membership; what is queued stays. -/
def unsubscribe (b : Bus α) (id : SubscriberId) : Bus α :=
  if id ∈ b.members then { b with members := b.members.filter (· ≠ id), snapshot := none } else b

/-- The subscriber goes away with its queue. -/
def drop (b : Bus α) (id : SubscriberId) : Bus α :=
  let b := b.unsubscribe id
  { b with queues := b.queues.erase id }

/-- Nobody holds the bus any more. -/
def close (b : Bus α) : Bus α := { b with members := [], snapshot := none, alive := false }

/-- The queue of a subscription has room for another message. -/
def hasRoom (b : Bus α) (id : SubscriberId) : Bool :=
  (b.queues.get? id).any fun q => q.length < b.capacity

/-- Puts a message at the end of the queue of each subscriber with room for it;
counts them. -/
def deliver (b : Bus α) (m : α) : List SubscriberId → Nat × Bus α
  | [] => (0, b)
  | id :: ids =>
    if b.hasRoom id then
      let (n, b) := deliver { b with queues := b.queues.modify id (· ++ [m]) } m ids
      (n + 1, b)
    else deliver b m ids

/-- The members as a publication sees them. -/
def view (b : Bus α) : List SubscriberId := b.snapshot.getD b.members

/-- Publishes a message; the number of subscribers that get it. -/
def publish (b : Bus α) (m : α) : Nat × Bus α :=
  { b with snapshot := some b.view }.deliver m b.view

/-- Someone may still publish to the subscription. -/
def isOpen (b : Bus α) (id : SubscriberId) : Bool :=
  id ∈ b.members || id ∈ b.snapshot.getD []

/-- The oldest waiting message of a subscription. -/
def receive (b : Bus α) (id : SubscriberId) : Reception α × Bus α :=
  match b.queues.get? id with
  | some (m :: q) => (.message m, { b with queues := b.queues.put id q })
  | _ => (if b.isOpen id then .pending else .closed, b)

/-- All waiting messages of a subscription. -/
def drain (b : Bus α) (id : SubscriberId) : List α × Bus α :=
  ((b.queues.get? id).getD [], { b with queues := b.queues.modify id fun _ => [] })

def subscriberCount (b : Bus α) : Nat := b.members.length

/-- The bus without its snapshot, which walks its members. -/
def plain (b : Bus α) : Bus α := { b with snapshot := none }

/-- The snapshot, where there is one, shows the members. -/
def Fresh (b : Bus α) : Prop := ∀ s, b.snapshot = some s → s = b.members

theorem fresh_new (capacity : Nat) : (new capacity : Bus α).Fresh := by
  intro s h
  simp [new] at h

theorem view_eq_members {b : Bus α} (h : b.Fresh) : b.view = b.members := by
  unfold view
  cases hs : b.snapshot with
  | none => rfl
  | some s => exact h s hs

end Bus

end Restock
