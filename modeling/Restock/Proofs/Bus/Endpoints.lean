import Restock.Bus
import Restock.Proofs.Trail

/-! The endpoints of a bus.

An endpoint is a subscription on its own: whether it is registered, and what it has
not read yet. It takes a message that it is offered while it is registered and has
room, and a read takes the oldest one out. The plain bus (`Exchange`) consists of its
endpoints and offers every message to each of them. A bus looks at a snapshot of its
members instead; it grants what the plain bus grants, with the same answers
(`exchange_take?`), because no snapshot outlives a change of the membership. -/
namespace Restock

namespace Bus

/-- What is asked of a bus or of one of its subscriptions. -/
inductive Request (α : Type)
  | subscribe
  /-- Ends a membership through the bus. -/
  | unsubscribe (id : SubscriberId)
  /-- Ends a membership through the subscription. -/
  | detach (id : SubscriberId)
  | drop (id : SubscriberId)
  | publish (m : α)
  | receive (id : SubscriberId)
  /-- Receives without waiting. -/
  | tryReceive (id : SubscriberId)
  /-- The last handle of the bus goes away. -/
  | close

inductive Answer (α : Type)
  | subscribed (id : SubscriberId)
  | delivered (n : Nat)
  | received (r : Reception α)
  | tried (m : Option α)

end Bus

namespace Reception

variable {α : Type}

def message? : Reception α → Option α
  | .message m => some m
  | _ => none

end Reception

structure Endpoint (α : Type) where
  registered : Bool
  /-- Oldest first. -/
  unread : List α

namespace Endpoint

variable {α : Type}

/-- The endpoint takes the next message. -/
def accepts (capacity : Nat) (e : Endpoint α) : Bool :=
  e.registered && decide (e.unread.length < capacity)

def offer (capacity : Nat) (m : α) (e : Endpoint α) : Endpoint α :=
  if e.accepts capacity then { e with unread := e.unread ++ [m] } else e

def leave (e : Endpoint α) : Endpoint α := { e with registered := false }

def read (e : Endpoint α) : Reception α × Endpoint α :=
  match e.unread with
  | m :: q => (.message m, { e with unread := q })
  | [] => (if e.registered then .pending else .closed, e)

end Endpoint

/-- A bus that walks its endpoints to publish. -/
structure Exchange (α : Type) where
  capacity : Nat
  nextId : Nat
  endpoints : Table SubscriberId (Endpoint α)
  alive : Bool

namespace Exchange

variable {α : Type}

def new (capacity : Nat) : Exchange α := ⟨max capacity 1, 1, [], true⟩

/-- Requests are refused by a bus that is gone and by subscriptions that are. -/
def take? (x : Exchange α) : Bus.Request α → Option (Exchange α × List (Bus.Answer α))
  | .subscribe =>
    if x.alive then
      some ({ x with
        nextId := x.nextId + 1, endpoints := x.endpoints.put ⟨x.nextId⟩ ⟨true, []⟩ },
        [.subscribed ⟨x.nextId⟩])
    else none
  | .unsubscribe id =>
    if x.alive then some ({ x with endpoints := x.endpoints.modify id Endpoint.leave }, [])
    else none
  | .detach id =>
    if x.endpoints.has id then
      some ({ x with endpoints := x.endpoints.modify id Endpoint.leave }, [])
    else none
  | .drop id =>
    if x.endpoints.has id then some ({ x with endpoints := x.endpoints.erase id }, []) else none
  | .publish m =>
    if x.alive then
      some ({ x with endpoints := x.endpoints.mapValues (Endpoint.offer x.capacity m) },
        [.delivered (x.endpoints.values.countP (Endpoint.accepts x.capacity))])
    else none
  | .receive id =>
    (x.endpoints.get? id).map fun e =>
      ({ x with endpoints := x.endpoints.modify id fun e => e.read.2 }, [.received e.read.1])
  | .tryReceive id =>
    (x.endpoints.get? id).map fun e =>
      ({ x with endpoints := x.endpoints.modify id fun e => e.read.2 },
        [.tried e.read.1.message?])
  | .close =>
    if x.alive then
      some ({ x with endpoints := x.endpoints.mapValues Endpoint.leave, alive := false }, [])
    else none

end Exchange

namespace Bus

variable {α : Type}

/-- Requests are refused by a bus that is gone, or cannot make a queue, and by
subscriptions that are gone. -/
def take? (b : Bus α) : Request α → Option (Bus α × List (Answer α))
  | .subscribe =>
    if b.alive then b.subscribe?.map fun (id, b) => (b, [.subscribed id]) else none
  | .unsubscribe id => if b.alive then some (b.unsubscribe id, []) else none
  | .detach id => if b.queues.has id then some (b.unsubscribe id, []) else none
  | .drop id => if b.queues.has id then some (b.drop id, []) else none
  | .publish m => if b.alive then some ((b.publish m).2, [.delivered (b.publish m).1]) else none
  | .receive id =>
    if b.queues.has id then some ((b.receive id).2, [.received (b.receive id).1]) else none
  | .tryReceive id =>
    if b.queues.has id then some ((b.receive id).2, [.tried (b.receive id).1.message?]) else none
  | .close => if b.alive then some (b.close, []) else none

/-- The endpoint of a queue. -/
def endpoint (b : Bus α) (id : SubscriberId) (q : List α) : Endpoint α := ⟨id ∈ b.members, q⟩

/-- The bus as its endpoints. -/
def exchange (b : Bus α) : Exchange α :=
  ⟨b.capacity, b.nextId, b.queues.map fun e => (e.1, b.endpoint e.1 e.2), b.alive⟩

/-- A bus whose snapshot is not stale and whose members have queues. -/
structure Sound (b : Bus α) : Prop where
  fresh : b.Fresh
  members : b.members.Nodup
  queues : b.queues.keys.Nodup
  queued : ∀ id ∈ b.members, id ∈ b.queues.keys
  issued : ∀ id ∈ b.queues.keys, id.number < b.nextId
  supported : b.capacity ≤ maxCapacity

theorem fresh_of_none {b : Bus α} (discarded : b.snapshot = none) : b.Fresh := by
  intro s h
  rw [discarded] at h
  contradiction

theorem sound_new {capacity : Nat} (supported : max capacity 1 ≤ maxCapacity) :
    (new capacity : Bus α).Sound :=
  ⟨fresh_new capacity, List.nodup_nil, List.nodup_nil, fun _ h => (List.not_mem_nil h).elim,
    fun _ h => (List.not_mem_nil h).elim, supported⟩

/-! ### Endpoints and queues -/

theorem get?_exchange (b : Bus α) (id : SubscriberId) :
    b.exchange.endpoints.get? id = (b.queues.get? id).map (b.endpoint id) := by
  simp only [exchange]
  induction b.queues with
  | nil => rfl
  | cons e queues ih =>
    obtain ⟨i, q⟩ := e
    simp only [List.map_cons, Table.get?, ih]
    split
    · next same => rw [same]; rfl
    · rfl

theorem has_exchange (b : Bus α) (id : SubscriberId) :
    b.exchange.endpoints.has id = b.queues.has id := by
  rw [Table.has, Table.has, get?_exchange, Option.isSome_map]

theorem keys_exchange (b : Bus α) : b.exchange.endpoints.keys = b.queues.keys := by
  simp only [exchange, Table.keys, List.map_map]
  rfl

theorem endpoint_congr {b c : Bus α} {id : SubscriberId} (same : id ∈ c.members ↔ id ∈ b.members) :
    c.endpoint id = b.endpoint id := by
  funext q
  rw [endpoint, endpoint, decide_eq_decide.2 same]

/-- A bus is the plain bus that shows the endpoint of each of its subscriptions. -/
theorem exchange_eq {b : Bus α} {x : Exchange α} (capacity : b.capacity = x.capacity)
    (nextId : b.nextId = x.nextId) (alive : b.alive = x.alive) (apart : b.queues.keys.Nodup)
    (keys : x.endpoints.keys = b.queues.keys)
    (shown : ∀ id, x.endpoints.get? id = (b.queues.get? id).map (b.endpoint id)) :
    b.exchange = x := by
  have endpoints : b.exchange.endpoints = x.endpoints :=
    Table.ext_get? ((keys_exchange b).trans keys.symm) (keys_exchange b ▸ apart) fun id =>
      (get?_exchange b id).trans (shown id).symm
  rw [exchange, capacity, nextId, alive]
  exact congrArg (Exchange.mk _ _ · _) endpoints

/-! ### Delivery -/

theorem deliver_frame (b : Bus α) (m : α) (ids : List SubscriberId) :
    ∃ queues, (b.deliver m ids).2 = { b with queues } ∧ queues.keys = b.queues.keys := by
  induction ids generalizing b with
  | nil => exact ⟨b.queues, rfl, rfl⟩
  | cons id ids ih =>
    unfold deliver
    split
    · obtain ⟨queues, same, keys⟩ := ih { b with queues := b.queues.modify id (· ++ [m]) }
      exact ⟨queues, same, keys.trans (Table.keys_modify b.queues id (· ++ [m]))⟩
    · exact ih b

/-- A message goes to the end of each queue with room, and the queues with room count. -/
theorem deliver_eq (b : Bus α) (m : α) {ids : List SubscriberId} (apart : ids.Nodup) :
    (b.deliver m ids).1 = ids.countP b.hasRoom ∧
      ∀ i, (b.deliver m ids).2.queues.get? i =
        if i ∈ ids ∧ b.hasRoom i = true then (b.queues.get? i).map (· ++ [m])
        else b.queues.get? i := by
  induction ids generalizing b with
  | nil => exact ⟨rfl, fun i => (if_neg fun h => List.not_mem_nil h.1).symm⟩
  | cons id ids ih =>
    obtain ⟨new, apart⟩ := List.nodup_cons.1 apart
    unfold deliver
    split
    · next room =>
      -- The queue of `id` is longer now, but its turn does not come again.
      let b' : Bus α := { b with queues := b.queues.modify id (· ++ [m]) }
      have others : ∀ i, i ≠ id → b'.queues.get? i = b.queues.get? i := fun i hi =>
        (Table.get?_modify b.queues id (· ++ [m]) i).trans (if_neg (Ne.symm hi))
      have rooms : ∀ i, i ≠ id → b'.hasRoom i = b.hasRoom i := by
        intro i hi
        rw [hasRoom, hasRoom, others i hi]
      obtain ⟨count, queues⟩ := ih b' apart
      refine ⟨?_, fun i => ?_⟩
      · rw [List.countP_cons_of_pos room]
        refine congrArg (· + 1) (count.trans (List.countP_congr fun i hi => ?_))
        rw [rooms i fun same => new (same ▸ hi)]
      · rw [queues i]
        by_cases hi : i = id
        · subst hi
          rw [if_neg fun h => new h.1, if_pos ⟨List.mem_cons_self, room⟩]
          exact (Table.get?_modify b.queues i (· ++ [m]) i).trans (if_pos rfl)
        · rw [rooms i hi, others i hi]
          simp [hi]
    · next full =>
      obtain ⟨count, queues⟩ := ih b apart
      refine ⟨?_, fun i => ?_⟩
      · rw [List.countP_cons_of_neg full]
        exact count
      · rw [queues i]
        by_cases hi : i = id
        · subst hi
          simp [full, new]
        · simp [hi]

theorem accepts_endpoint (b : Bus α) (id : SubscriberId) (q : List α) :
    (b.endpoint id q).accepts b.capacity = true ↔ id ∈ b.members ∧ q.length < b.capacity := by
  rw [Endpoint.accepts, endpoint, Bool.and_eq_true, decide_eq_true_iff, decide_eq_true_iff]

theorem offer_endpoint (b : Bus α) (m : α) (id : SubscriberId) (q : List α) :
    (b.endpoint id q).offer b.capacity m =
      b.endpoint id (if id ∈ b.members ∧ q.length < b.capacity then q ++ [m] else q) := by
  rw [Endpoint.offer]
  by_cases h : id ∈ b.members ∧ q.length < b.capacity
  · rw [if_pos ((accepts_endpoint b id q).2 h), if_pos h]
    rfl
  · rw [if_neg (mt (accepts_endpoint b id q).1 h), if_neg h]

theorem hasRoom_iff (b : Bus α) (id : SubscriberId) :
    b.hasRoom id = true ↔ ∃ q, b.queues.get? id = some q ∧ q.length < b.capacity := by
  simp [hasRoom, Option.any_eq_true]

/-- The members with room are the endpoints that take the next message. -/
theorem Sound.countP_accepts {b : Bus α} (sound : b.Sound) :
    b.members.countP b.hasRoom = b.exchange.endpoints.values.countP (Endpoint.accepts b.capacity) := by
  rw [Table.countP_values _ _ (keys_exchange b ▸ sound.queues), keys_exchange,
    List.countP_eq_length_filter, List.countP_eq_length_filter]
  refine List.Perm.length_eq ((List.perm_ext_iff_of_nodup (sound.members.filter _)
    (sound.queues.filter _)).2 fun id => ?_)
  simp only [List.mem_filter, get?_exchange, hasRoom_iff, Option.any_map, Option.any_eq_true,
    accepts_endpoint]
  constructor
  · intro h
    obtain ⟨member, q, hq, room⟩ := h
    exact ⟨sound.queued id member, q, hq, member, room⟩
  · intro h
    obtain ⟨-, q, hq, member, room⟩ := h
    exact ⟨member, q, hq, room⟩

/-! ### What each operation does to the endpoints -/

theorem exchange_subscribe {b : Bus α} (sound : b.Sound) :
    ∃ b', b.subscribe? = some (⟨b.nextId⟩, b') ∧ b'.Sound ∧
      b'.exchange = { b.exchange with
        nextId := b.nextId + 1, endpoints := b.exchange.endpoints.put ⟨b.nextId⟩ ⟨true, []⟩ } := by
  have new : (⟨b.nextId⟩ : SubscriberId) ∉ b.queues.keys := fun h =>
    Nat.lt_irrefl _ (sound.issued _ h)
  have queues : (b.queues.put ⟨b.nextId⟩ []).keys = b.queues.keys ++ [⟨b.nextId⟩] := by
    rw [Table.keys_put, if_neg new]
  have apart := Table.nodup_put b.queues ⟨b.nextId⟩ [] sound.queues
  refine ⟨_, if_neg (Nat.not_lt.2 sound.supported), ⟨fresh_of_none rfl, ?_, apart, ?_, ?_, sound.supported⟩,
    exchange_eq rfl rfl rfl apart ?_ fun i => ?_⟩
  · refine List.nodup_append.2 ⟨sound.members, by simp, fun i hi j hj same => ?_⟩
    exact new (sound.queued _ (List.mem_singleton.1 hj ▸ same ▸ hi))
  · intro i hi
    rw [queues, List.mem_append]
    exact (List.mem_append.1 hi).imp_left (sound.queued i)
  · intro i hi
    rcases List.mem_append.1 (queues ▸ hi) with hi | hi
    · exact Nat.lt_succ_of_lt (sound.issued i hi)
    · rw [List.mem_singleton.1 hi]
      exact Nat.lt_succ_self _
  · rw [Table.keys_put, keys_exchange, queues, if_neg new]
  · rw [Table.get?_put, Table.get?_put]
    split
    · next same =>
      subst same
      simp [endpoint]
    · next other =>
      rw [get?_exchange]
      refine congrArg (Option.map · _) (endpoint_congr ?_).symm
      have : i ≠ ⟨b.nextId⟩ := fun same => other same.symm
      simp [this]

theorem unsubscribe_frame (b : Bus α) (id : SubscriberId) :
    ∃ members snapshot, b.unsubscribe id = { b with members, snapshot } ∧
      ∀ i, i ∈ members ↔ i ∈ b.members ∧ id ≠ i := by
  unfold unsubscribe
  split
  · refine ⟨_, none, rfl, fun i => ?_⟩
    rw [List.mem_filter, decide_eq_true_iff]
    exact and_congr_right fun _ => ne_comm
  · next stranger =>
    refine ⟨b.members, b.snapshot, rfl, fun i => ⟨fun h => ⟨h, ?_⟩, And.left⟩⟩
    rintro rfl
    exact stranger h

theorem Sound.unsubscribe {b : Bus α} (sound : b.Sound) (id : SubscriberId) :
    (b.unsubscribe id).Sound := by
  unfold Bus.unsubscribe
  split
  · exact ⟨fresh_of_none rfl, sound.members.filter _, sound.queues,
      fun i hi => sound.queued i (List.mem_filter.1 hi).1, sound.issued, sound.supported⟩
  · exact sound

theorem exchange_unsubscribe {b : Bus α} (sound : b.Sound) (id : SubscriberId) :
    (b.unsubscribe id).exchange =
      { b.exchange with endpoints := b.exchange.endpoints.modify id Endpoint.leave } := by
  obtain ⟨members, snapshot, frame, left⟩ := unsubscribe_frame b id
  rw [frame]
  refine exchange_eq rfl rfl rfl sound.queues ?_ fun i => ?_
  · rw [Table.keys_modify, keys_exchange]
  · rw [Table.get?_modify, get?_exchange]
    split
    · next same =>
      cases b.queues.get? i <;> simp [endpoint, Endpoint.leave, left, same]
    · next other =>
      refine congrArg (Option.map · _) (endpoint_congr ?_).symm
      exact (left i).trans (and_iff_left other)

theorem Sound.drop {b : Bus α} (sound : b.Sound) (id : SubscriberId) : (b.drop id).Sound := by
  obtain ⟨members, snapshot, frame, left⟩ := unsubscribe_frame b id
  have rest := sound.unsubscribe id
  rw [Bus.drop, frame]
  rw [frame] at rest
  refine ⟨rest.fresh, rest.members, Table.nodup_erase _ id rest.queues, fun i hi => ?_,
    fun i hi => rest.issued i ((List.filter_sublist.map _).subset hi), rest.supported⟩
  have key := rest.queued i hi
  rw [Table.mem_keys_iff] at key ⊢
  exact (Table.get?_erase b.queues id i).trans (if_neg ((left i).1 hi).2) ▸ key

theorem exchange_drop {b : Bus α} (sound : b.Sound) (id : SubscriberId) :
    (b.drop id).exchange =
      { b.exchange with endpoints := b.exchange.endpoints.erase id } := by
  have apart := (sound.drop id).queues
  obtain ⟨members, snapshot, frame, left⟩ := unsubscribe_frame b id
  rw [Bus.drop, frame] at apart ⊢
  refine exchange_eq rfl rfl rfl apart ?_ fun i => ?_
  · simp only [Table.keys, Table.erase, exchange, List.filter_map, List.map_map]
    rfl
  · simp only [Table.get?_erase, get?_exchange]
    split
    · rfl
    · next other =>
      refine congrArg (Option.map · _) (endpoint_congr ?_).symm
      exact (left i).trans (and_iff_left other)

theorem Sound.publish {b : Bus α} (sound : b.Sound) (m : α) : (b.publish m).2.Sound := by
  obtain ⟨queues, frame, keys⟩ := deliver_frame { b with snapshot := some b.view } m b.view
  rw [Bus.publish, frame]
  refine ⟨fun s hs => ?_, sound.members, ?_, ?_, ?_, sound.supported⟩
  · rw [← view_eq_members sound.fresh]
    exact (Option.some.inj hs).symm
  · exact keys ▸ sound.queues
  · exact keys ▸ sound.queued
  · exact keys ▸ sound.issued

theorem exchange_publish {b : Bus α} (sound : b.Sound) (m : α) :
    (b.publish m).1 = b.exchange.endpoints.values.countP (Endpoint.accepts b.capacity) ∧
      (b.publish m).2.exchange = { b.exchange with
        endpoints := b.exchange.endpoints.mapValues (Endpoint.offer b.capacity m) } := by
  have view := view_eq_members sound.fresh
  have apart := (sound.publish m).queues
  obtain ⟨queues, frame, keys⟩ := deliver_frame { b with snapshot := some b.view } m b.view
  obtain ⟨count, shown⟩ := deliver_eq { b with snapshot := some b.view } m (view ▸ sound.members)
  rw [Bus.publish, frame] at apart ⊢
  rw [frame] at shown
  refine ⟨?_, exchange_eq rfl rfl rfl apart ?_ fun i => ?_⟩
  · rw [count, view]
    exact sound.countP_accepts
  · rw [Table.keys_mapValues, keys_exchange]
    exact keys.symm
  · rw [Table.get?_mapValues, get?_exchange, Option.map_map, shown i, view]
    cases hq : b.queues.get? i with
    | none => split <;> rfl
    | some q =>
      have room : ({ b with snapshot := some b.members } : Bus α).hasRoom i =
          decide (q.length < b.capacity) := by
        simp [hasRoom, hq]
      simp only [Option.map_some, Function.comp_apply, offer_endpoint, room, decide_eq_true_iff]
      split <;> rfl

theorem Sound.receive {b : Bus α} (sound : b.Sound) (id : SubscriberId) :
    (b.receive id).2.Sound := by
  unfold Bus.receive
  split
  · next m q unread =>
    have keys : (b.queues.put id q).keys = b.queues.keys := by
      rw [Table.keys_put, if_pos ((Table.mem_keys_iff ..).2 (unread ▸ rfl))]
    exact ⟨sound.fresh, sound.members, keys ▸ sound.queues, keys ▸ sound.queued,
      keys ▸ sound.issued, sound.supported⟩
  · exact sound

theorem exchange_receive {b : Bus α} (sound : b.Sound) {id : SubscriberId} {q : List α}
    (unread : b.queues.get? id = some q) :
    (b.receive id).1 = (b.endpoint id q).read.1 ∧
      (b.receive id).2.exchange = { b.exchange with
        endpoints := b.exchange.endpoints.modify id fun e => e.read.2 } := by
  have isOpen : b.isOpen id = decide (id ∈ b.members) := by
    cases hs : b.snapshot with
    | none => simp [Bus.isOpen, hs]
    | some s => simp [Bus.isOpen, hs, sound.fresh s hs]
  have apart := (sound.receive id).queues
  cases q with
  | nil =>
    have rest : b.receive id = (if b.isOpen id then .pending else .closed, b) := by
      rw [Bus.receive, unread]
    rw [rest, isOpen]
    refine ⟨rfl, exchange_eq rfl rfl rfl sound.queues ?_ fun i => ?_⟩
    · rw [Table.keys_modify, keys_exchange]
    · rw [Table.get?_modify, get?_exchange]
      split
      · next same =>
        simp [← same, unread, endpoint, Endpoint.read]
      · rfl
  | cons m q =>
    have rest : b.receive id = (.message m, { b with queues := b.queues.put id q }) := by
      rw [Bus.receive, unread]
    rw [rest] at apart ⊢
    refine ⟨rfl, exchange_eq rfl rfl rfl apart ?_ fun i => ?_⟩
    · rw [Table.keys_modify, keys_exchange, Table.keys_put,
        if_pos ((Table.mem_keys_iff ..).2 (unread ▸ rfl))]
    · rw [Table.get?_modify, get?_exchange, Table.get?_put]
      split
      · next same =>
        simp [← same, unread, endpoint, Endpoint.read]
      · rfl

theorem Sound.close {b : Bus α} (sound : b.Sound) : b.close.Sound :=
  ⟨fresh_of_none rfl, List.nodup_nil, sound.queues, fun _ h => (List.not_mem_nil h).elim,
    sound.issued, sound.supported⟩

theorem exchange_close {b : Bus α} (sound : b.Sound) :
    b.close.exchange = { b.exchange with
      endpoints := b.exchange.endpoints.mapValues Endpoint.leave, alive := false } := by
  refine exchange_eq rfl rfl rfl sound.queues ?_ fun i => ?_
  · rw [Table.keys_mapValues, keys_exchange]
    rfl
  · rw [Table.get?_mapValues, get?_exchange, Option.map_map]
    refine congrArg (Option.map · _) (funext fun q => ?_)
    simp [endpoint, Endpoint.leave, close]

/-! ### The bus and the plain bus -/

theorem Sound.take? {b b' : Bus α} (sound : b.Sound) {r : Request α} {as : List (Answer α)}
    (taken : b.take? r = some (b', as)) : b'.Sound := by
  cases r with
  | subscribe =>
    obtain ⟨grown, made, rest, -⟩ := exchange_subscribe sound
    rw [Bus.take?, made] at taken
    split at taken
    · obtain ⟨rfl, -⟩ := Prod.mk.inj (Option.some.inj taken)
      exact rest
    · cases taken
  | unsubscribe id | detach id =>
    rw [Bus.take?, Option.ite_none_right_eq_some] at taken
    obtain ⟨rfl, -⟩ := Prod.mk.inj (Option.some.inj taken.2)
    exact sound.unsubscribe id
  | drop id =>
    rw [Bus.take?, Option.ite_none_right_eq_some] at taken
    obtain ⟨rfl, -⟩ := Prod.mk.inj (Option.some.inj taken.2)
    exact sound.drop id
  | publish m =>
    rw [Bus.take?, Option.ite_none_right_eq_some] at taken
    obtain ⟨rfl, -⟩ := Prod.mk.inj (Option.some.inj taken.2)
    exact sound.publish m
  | receive id | tryReceive id =>
    rw [Bus.take?, Option.ite_none_right_eq_some] at taken
    obtain ⟨rfl, -⟩ := Prod.mk.inj (Option.some.inj taken.2)
    exact sound.receive id
  | close =>
    rw [Bus.take?, Option.ite_none_right_eq_some] at taken
    obtain ⟨rfl, -⟩ := Prod.mk.inj (Option.some.inj taken.2)
    exact sound.close

/-- The plain bus grants what the bus grants, with the same answers, and goes on as
the endpoints of the bus. -/
theorem exchange_take? {b : Bus α} (sound : b.Sound) (r : Request α) :
    b.exchange.take? r = (b.take? r).map fun t => (t.1.exchange, t.2) := by
  have alive : b.exchange.alive = b.alive := rfl
  cases r with
  | subscribe =>
    obtain ⟨grown, made, -, same⟩ := exchange_subscribe sound
    rw [Exchange.take?, Bus.take?, alive, made]
    split
    · simp only [Option.map_some, same]
      rfl
    · rfl
  | unsubscribe id =>
    rw [Exchange.take?, Bus.take?, alive]
    split
    · simp only [Option.map_some, exchange_unsubscribe sound]
      rfl
    · rfl
  | detach id =>
    rw [Exchange.take?, Bus.take?, has_exchange]
    split
    · simp only [Option.map_some, exchange_unsubscribe sound]
    · rfl
  | drop id =>
    rw [Exchange.take?, Bus.take?, has_exchange]
    split
    · simp only [Option.map_some, exchange_drop sound]
    · rfl
  | publish m =>
    obtain ⟨count, same⟩ := exchange_publish sound m
    rw [Exchange.take?, Bus.take?, alive]
    split
    · simp only [Option.map_some, same, count]
      rfl
    · rfl
  | receive id | tryReceive id =>
    rw [Exchange.take?, Bus.take?, get?_exchange, Table.has]
    cases unread : b.queues.get? id with
    | none => rfl
    | some q =>
      obtain ⟨got, same⟩ := exchange_receive sound unread
      simp only [Option.map_some, Option.isSome_some, if_true, got, same]
  | close =>
    rw [Exchange.take?, Bus.take?, alive]
    split
    · simp only [Option.map_some, exchange_close sound]
    · rfl

end Bus

end Restock
