import Restock.Proofs.Bus.Endpoints

/-! What one subscription gets from a bus.

Of all that is asked of a bus, a subscription notices the publications and what is
asked of itself. It answers as if it were alone (`Subscription.take?`): what others
do to the bus, and that there are others, does not show (`alone`). In a trail of the
bus it receives what it accepted, in order, and what it accepted is a message for
each publication that came while it was registered and had room. -/
namespace Restock

namespace Bus

variable {α : Type}

/-- What a granted request is to one subscription. -/
inductive Notice (α : Type)
  | opened
  | offered (m : α)
  | left
  | dropped
  | read
  | tried

def Answer.opens (id : SubscriberId) : Answer α → Bool
  | .subscribed i => i = id
  | _ => false

def notice? (id : SubscriberId) : Request α → List (Answer α) → Option (Notice α)
  | .subscribe, as => if as.any (Answer.opens id) then some .opened else none
  | .unsubscribe i, _ | .detach i, _ => if i = id then some .left else none
  | .drop i, _ => if i = id then some .dropped else none
  | .publish m, _ => some (.offered m)
  | .receive i, _ => if i = id then some .read else none
  | .tryReceive i, _ => if i = id then some .tried else none
  | .close, _ => some .left

/-- The answers that go to a subscription. -/
def answersTo (id : SubscriberId) : Request α → List (Answer α) → List (Answer α)
  | .receive i, as | .tryReceive i, as => if i = id then as else []
  | _, _ => []

end Bus

/-- A subscription on its own, or none. -/
abbrev Subscription (α : Type) := Option (Endpoint α)

/-- Nothing is read from a subscription that is not there. -/
def Subscription.take? {α : Type} (capacity : Nat) (s : Subscription α) :
    Bus.Notice α → Option (Subscription α × List (Bus.Answer α))
  | .opened => some (some ⟨true, []⟩, [])
  | .offered m => some (s.map (Endpoint.offer capacity m), [])
  | .left => some (s.map Endpoint.leave, [])
  | .dropped => some (none, [])
  | .read => s.map fun e => (some e.read.2, [.received e.read.1])
  | .tried => s.map fun e => (some e.read.2, [.tried e.read.1.message?])

open Bus in
/-- A granted request does to a subscription what its notice does, and nothing if it
brings no notice. -/
theorem Exchange.noticed {α : Type} {x x' : Exchange α} {r : Request α} {as : List (Answer α)}
    (taken : x.take? r = some (x', as)) (id : SubscriberId) :
    match notice? id r as with
    | none => x'.endpoints.get? id = x.endpoints.get? id ∧ answersTo id r as = []
    | some n => Subscription.take? x.capacity (x.endpoints.get? id) n =
        some (x'.endpoints.get? id, answersTo id r as) := by
  cases r with
  | subscribe =>
    rw [Exchange.take?, Option.ite_none_right_eq_some] at taken
    obtain ⟨rfl, rfl⟩ := Prod.mk.inj (Option.some.inj taken.2)
    by_cases same : (⟨x.nextId⟩ : SubscriberId) = id
    · simp [notice?, Answer.opens, answersTo, Subscription.take?, Table.get?_put, same]
    · simp [notice?, Answer.opens, answersTo, Table.get?_put, same]
  | unsubscribe i | detach i =>
    rw [Exchange.take?, Option.ite_none_right_eq_some] at taken
    obtain ⟨rfl, rfl⟩ := Prod.mk.inj (Option.some.inj taken.2)
    by_cases same : i = id
    · simp [notice?, answersTo, Subscription.take?, Table.get?_modify, same]
    · simp [notice?, answersTo, Table.get?_modify, same]
  | drop i =>
    rw [Exchange.take?, Option.ite_none_right_eq_some] at taken
    obtain ⟨rfl, rfl⟩ := Prod.mk.inj (Option.some.inj taken.2)
    by_cases same : i = id
    · simp [notice?, answersTo, Subscription.take?, Table.get?_erase, same]
    · simp [notice?, answersTo, Table.get?_erase, same]
  | publish m =>
    rw [Exchange.take?, Option.ite_none_right_eq_some] at taken
    obtain ⟨rfl, rfl⟩ := Prod.mk.inj (Option.some.inj taken.2)
    simp [notice?, answersTo, Subscription.take?, Table.get?_mapValues]
  | receive i | tryReceive i =>
    obtain ⟨e, there, step⟩ := Option.map_eq_some_iff.1 taken
    obtain ⟨rfl, rfl⟩ := Prod.mk.inj step
    by_cases same : i = id
    · subst same
      simp [notice?, answersTo, Subscription.take?, Table.get?_modify, there]
    · simp [notice?, answersTo, Table.get?_modify, same]
  | close =>
    rw [Exchange.take?, Option.ite_none_right_eq_some] at taken
    obtain ⟨rfl, rfl⟩ := Prod.mk.inj (Option.some.inj taken.2)
    simp [notice?, answersTo, Subscription.take?, Table.get?_mapValues]

/-! ### One notice -/

theorem Endpoint.message_read {α : Type} (e : Endpoint α) :
    e.read.1.message?.toList ++ e.read.2.unread = e.unread := by
  unfold Endpoint.read
  split
  · next h => rw [h]; rfl
  · next h => split <;> simp [Reception.message?, h]

theorem Endpoint.registered_read {α : Type} (e : Endpoint α) :
    e.read.2.registered = e.registered := by
  unfold Endpoint.read
  split <;> rfl

/-- The messages among the answers. -/
def Bus.Answer.message? {α : Type} : Bus.Answer α → Option α
  | .received r => r.message?
  | .tried m => m
  | _ => none

/-- The notice ends the registration. -/
def Bus.Notice.Ends {α : Type} (n : Bus.Notice α) : Prop := n = .left ∨ n = .dropped

namespace Subscription

variable {α : Type} {capacity : Nat} {s s' : Subscription α} {n : Bus.Notice α}
  {as : List (Bus.Answer α)}

def registered (s : Subscription α) : Bool := s.any Endpoint.registered

/-- What a subscription takes in with a notice. -/
def takesIn (capacity : Nat) (s : Subscription α) : Bus.Notice α → List α
  | .offered m => if s.any (Endpoint.accepts capacity) then [m] else []
  | _ => []

theorem registered_take? (taken : s.take? capacity n = some (s', as)) :
    s'.registered = true ↔ n = .opened ∨ (s.registered = true ∧ ¬ n.Ends) := by
  cases n with
  | opened =>
    obtain ⟨rfl, -⟩ := Prod.mk.inj (Option.some.inj taken)
    simp [registered]
  | offered m =>
    obtain ⟨rfl, -⟩ := Prod.mk.inj (Option.some.inj taken)
    cases s with
    | none => simp [registered]
    | some e =>
      simp only [registered, Option.map_some, Option.any_some, Endpoint.offer]
      split <;> simp [Bus.Notice.Ends]
  | left =>
    obtain ⟨rfl, -⟩ := Prod.mk.inj (Option.some.inj taken)
    cases s <;> simp [registered, Endpoint.leave, Bus.Notice.Ends]
  | dropped =>
    obtain ⟨rfl, -⟩ := Prod.mk.inj (Option.some.inj taken)
    simp [registered, Bus.Notice.Ends]
  | read | tried =>
    obtain ⟨e, rfl, step⟩ := Option.map_eq_some_iff.1 taken
    obtain ⟨rfl, -⟩ := Prod.mk.inj step
    simp [registered, Bus.Notice.Ends, Endpoint.registered_read]

theorem isSome_take? (taken : s.take? capacity n = some (s', as)) :
    s'.isSome = true ↔ n = .opened ∨ (s.isSome = true ∧ n ≠ .dropped) := by
  cases n with
  | opened | offered m | left | dropped =>
    obtain ⟨rfl, -⟩ := Prod.mk.inj (Option.some.inj taken)
    simp
  | read | tried =>
    obtain ⟨e, rfl, step⟩ := Option.map_eq_some_iff.1 taken
    obtain ⟨rfl, -⟩ := Prod.mk.inj step
    simp

/-- A subscription that is there after a notice was opened by it, or was there: what
it gives out and what it has not read then are what it had and takes in. -/
theorem unread_take? {e' : Endpoint α} (taken : s.take? capacity n = some (some e', as)) :
    (n = .opened ∧ as = [] ∧ e'.unread = []) ∨
      ∃ e, s = some e ∧
        as.filterMap Bus.Answer.message? ++ e'.unread = e.unread ++ takesIn capacity s n := by
  cases n with
  | opened =>
    obtain ⟨there, rfl⟩ := Prod.mk.inj (Option.some.inj taken)
    cases there
    exact .inl ⟨rfl, rfl, rfl⟩
  | offered m =>
    obtain ⟨there, rfl⟩ := Prod.mk.inj (Option.some.inj taken)
    obtain ⟨e, rfl, rfl⟩ := Option.map_eq_some_iff.1 there
    refine .inr ⟨e, rfl, ?_⟩
    simp only [takesIn, Option.any_some, Endpoint.offer]
    split <;> simp
  | left =>
    obtain ⟨there, rfl⟩ := Prod.mk.inj (Option.some.inj taken)
    obtain ⟨e, rfl, rfl⟩ := Option.map_eq_some_iff.1 there
    exact .inr ⟨e, rfl, (List.append_nil e.unread).symm⟩
  | dropped =>
    obtain ⟨there, -⟩ := Prod.mk.inj (Option.some.inj taken)
    cases there
  | read | tried =>
    obtain ⟨e, rfl, step⟩ := Option.map_eq_some_iff.1 taken
    obtain ⟨there, rfl⟩ := Prod.mk.inj step
    obtain rfl := Option.some.inj there
    refine .inr ⟨e, rfl, ?_⟩
    show _ = e.unread ++ []
    rw [List.append_nil]
    refine Eq.trans (congrArg (· ++ _) ?_) e.message_read
    cases h : e.read.1.message? <;> simp [Bus.Answer.message?, h]

/-- A subscription that is not there after a notice gave nothing out. -/
theorem silent_of_take? (taken : s.take? capacity n = some (none, as)) : as = [] := by
  cases n with
  | opened =>
    obtain ⟨there, -⟩ := Prod.mk.inj (Option.some.inj taken)
    cases there
  | offered m | left | dropped => exact (Prod.mk.inj (Option.some.inj taken)).2.symm
  | read | tried =>
    obtain ⟨e, -, step⟩ := Option.map_eq_some_iff.1 taken
    obtain ⟨there, -⟩ := Prod.mk.inj step
    cases there

end Subscription

/-! ### All notices of a trail -/

namespace Bus

variable {α : Type}

abbrev History (α : Type) := List (Leg (Bus α) (Request α) (Answer α))

def Leg.notice? (id : SubscriberId) (l : Leg (Bus α) (Request α) (Answer α)) : Option (Notice α) :=
  Bus.notice? id l.input l.effects

/-- What one subscription notices of a trail. -/
def noticesOf (id : SubscriberId) (w : History α) : List (Notice α) :=
  w.filterMap (Leg.notice? id)

/-- What the bus answers to one subscription. -/
def answersOf (id : SubscriberId) (w : History α) : List (Answer α) :=
  w.flatMap fun l => answersTo id l.input l.effects

/-- The messages that one subscription gets. -/
def receivedBy (id : SubscriberId) (w : History α) : List α :=
  (answersOf id w).filterMap Answer.message?

/-- The unread messages of a subscription. -/
def waiting (b : Bus α) (id : SubscriberId) : List α := (b.queues.get? id).getD []

/-- The message of a leg, if it is published while a subscription is a member with
fewer unread messages than there may be. -/
def acceptedAt (capacity : Nat) (id : SubscriberId) (l : Leg (Bus α) (Request α) (Answer α)) :
    List α :=
  match l.input with
  | .publish m =>
    if id ∈ l.before.members ∧ (l.before.waiting id).length < capacity then [m] else []
  | _ => []

def acceptedBy (capacity : Nat) (id : SubscriberId) (w : History α) : List α :=
  w.flatMap (acceptedAt capacity id)

/-- The subscription was opened and has not been ended since. -/
def Registered (id : SubscriberId) (w : History α) : Prop :=
  Since w (fun l => Leg.notice? id l = some .opened)
    (fun l => ∀ n, Leg.notice? id l = some n → ¬ n.Ends)

/-- The subscription was opened and has not been dropped since. -/
def Held (id : SubscriberId) (w : History α) : Prop :=
  Since w (fun l => Leg.notice? id l = some .opened) (fun l => Leg.notice? id l ≠ some .dropped)

variable {b b' : Bus α} {r : Request α} {as : List (Answer α)} {w : History α} {capacity : Nat}
  {id : SubscriberId}

theorem exchange_taken (sound : b.Sound) (taken : b.take? r = some (b', as)) :
    b.exchange.take? r = some (b'.exchange, as) := by
  rw [exchange_take? sound, taken]
  rfl

theorem capacity_take? (taken : b.take? r = some (b', as)) : b'.capacity = b.capacity := by
  cases r with
  | subscribe =>
    rw [take?, Option.ite_none_right_eq_some] at taken
    obtain ⟨t, made, step⟩ := Option.map_eq_some_iff.1 taken.2
    rw [subscribe?, Option.ite_none_left_eq_some] at made
    rw [← (Prod.mk.inj step).1, ← Option.some.inj made.2]
  | unsubscribe id | detach id | drop id =>
    rw [take?, Option.ite_none_right_eq_some] at taken
    obtain ⟨members, snapshot, frame, -⟩ := unsubscribe_frame b id
    rw [← (Prod.mk.inj (Option.some.inj taken.2)).1]
    first
    | rw [frame]
    | rw [drop, frame]
  | publish m =>
    rw [take?, Option.ite_none_right_eq_some] at taken
    obtain ⟨queues, frame, -⟩ := deliver_frame { b with snapshot := some b.view } m b.view
    rw [← (Prod.mk.inj (Option.some.inj taken.2)).1, publish, frame]
  | receive id | tryReceive id =>
    rw [take?, Option.ite_none_right_eq_some] at taken
    rw [← (Prod.mk.inj (Option.some.inj taken.2)).1, receive]
    split <;> rfl
  | close =>
    rw [take?, Option.ite_none_right_eq_some] at taken
    rw [← (Prod.mk.inj (Option.some.inj taken.2)).1, close]

theorem capacity_of_trail {c : Nat} (trail : Trail take? (new c) w b) : b.capacity = max c 1 := by
  induction trail with
  | rest => rfl
  | step past taken ih => exact (capacity_take? taken).trans ih

/-- Of the bus that a trail leads to. -/
theorem sound_of_trail {c : Nat} (supported : max c 1 ≤ maxCapacity)
    (trail : Trail take? (new c) w b) : b.Sound ∧ b.capacity = max c 1 := by
  refine ⟨?_, capacity_of_trail trail⟩
  induction trail with
  | rest => exact sound_new supported
  | step past taken ih => exact ih.take? taken

theorem get?_queues (b : Bus α) (id : SubscriberId) :
    b.queues.get? id = (b.exchange.endpoints.get? id).map Endpoint.unread := by
  rw [get?_exchange, Option.map_map]
  exact Option.map_id'.symm

theorem Sound.registered (sound : b.Sound) (id : SubscriberId) :
    Subscription.registered (b.exchange.endpoints.get? id) = true ↔ id ∈ b.members := by
  rw [Subscription.registered, get?_exchange, Option.any_map, Option.any_eq_true]
  constructor
  · intro h
    obtain ⟨q, -, member⟩ := h
    exact of_decide_eq_true member
  · intro member
    obtain ⟨q, hq⟩ := Option.isSome_iff_exists.1 ((Table.mem_keys_iff ..).1 (sound.queued id member))
    exact ⟨q, hq, decide_eq_true member⟩

/-- What a bus takes in with a request for one of its subscriptions is what the
subscription takes in with its notice. -/
theorem acceptedAt_eq (sound : b.Sound) :
    acceptedAt b.capacity id ⟨b, r, as, b'⟩ =
      (notice? id r as).elim [] (Subscription.takesIn b.capacity (b.exchange.endpoints.get? id)) := by
  cases r with
  | publish m =>
    have accepts : (b.exchange.endpoints.get? id).any (Endpoint.accepts b.capacity) = true ↔
        id ∈ b.members ∧ (b.waiting id).length < b.capacity := by
      rw [get?_exchange, Option.any_map, Option.any_eq_true, waiting]
      cases hq : b.queues.get? id with
      | none =>
        have : id ∉ b.members := fun member => by
          simpa [hq] using (Table.mem_keys_iff ..).1 (sound.queued id member)
        simp [this]
      | some q =>
        simpa using accepts_endpoint b id q
    simp only [acceptedAt, notice?, Option.elim_some, Subscription.takesIn, accepts]
  | subscribe | unsubscribe | detach | drop | receive | tryReceive =>
    simp only [acceptedAt, notice?]
    split <;> rfl
  | close => rfl

theorem nextId_take? (sound : b.Sound) (taken : b.take? r = some (b', as)) :
    b.nextId ≤ b'.nextId ∧ ∀ id, notice? id r as = some .opened → id = ⟨b.nextId⟩ := by
  have taken := exchange_taken sound taken
  show b.exchange.nextId ≤ b'.exchange.nextId ∧
    ∀ id, notice? id r as = some .opened → id = ⟨b.exchange.nextId⟩
  cases r with
  | subscribe =>
    rw [Exchange.take?, Option.ite_none_right_eq_some] at taken
    obtain ⟨next, rfl⟩ := Prod.mk.inj (Option.some.inj taken.2)
    rw [← next]
    refine ⟨Nat.le_succ _, fun id opened => ?_⟩
    simpa [notice?, Answer.opens, eq_comm] using opened
  | receive i | tryReceive i =>
    obtain ⟨e, -, step⟩ := Option.map_eq_some_iff.1 taken
    rw [← (Prod.mk.inj step).1]
    exact ⟨Nat.le_refl _, fun id opened => by simp [notice?] at opened⟩
  | unsubscribe | detach | drop | publish | close =>
    rw [Exchange.take?, Option.ite_none_right_eq_some] at taken
    rw [← (Prod.mk.inj (Option.some.inj taken.2)).1]
    exact ⟨Nat.le_refl _, fun id opened => by simp [notice?] at opened⟩

/-- A subscription is a member after a request that opened it, or that did not end it. -/
theorem members_take? (sound : b.Sound) (taken : b.take? r = some (b', as)) :
    id ∈ b'.members ↔ notice? id r as = some .opened ∨
      (id ∈ b.members ∧ ∀ n, notice? id r as = some n → ¬ n.Ends) := by
  have noticed := Exchange.noticed (exchange_taken sound taken) id
  rw [← (sound.take? taken).registered id, ← sound.registered id]
  cases hn : notice? id r as with
  | none =>
    rw [hn] at noticed
    rw [noticed.1]
    simp
  | some n =>
    rw [hn] at noticed
    rw [Subscription.registered_take? noticed, Option.some_inj]
    simp

theorem has_take? (sound : b.Sound) (taken : b.take? r = some (b', as)) :
    b'.queues.has id = true ↔ notice? id r as = some .opened ∨
      (b.queues.has id = true ∧ notice? id r as ≠ some .dropped) := by
  have noticed := Exchange.noticed (exchange_taken sound taken) id
  rw [← has_exchange, ← has_exchange, Table.has, Table.has]
  cases hn : notice? id r as with
  | none =>
    rw [hn] at noticed
    rw [noticed.1]
    simp
  | some n =>
    rw [hn] at noticed
    rw [Subscription.isSome_take? noticed]
    simp

/-- What a subscription gives out with a request and has not read afterwards is what
it had not read before and takes in. -/
theorem unread_take? (sound : b.Sound) (taken : b.take? r = some (b', as)) {q' : List α}
    (unread : b'.queues.get? id = some q') :
    (notice? id r as = some .opened ∧ answersTo id r as = [] ∧ q' = []) ∨
      ∃ q, b.queues.get? id = some q ∧
        (answersTo id r as).filterMap Answer.message? ++ q' =
          q ++ acceptedAt b.capacity id ⟨b, r, as, b'⟩ := by
  have noticed := Exchange.noticed (exchange_taken sound taken) id
  rw [get?_queues] at unread
  obtain ⟨e', there, rfl⟩ := Option.map_eq_some_iff.1 unread
  rw [acceptedAt_eq sound, get?_queues]
  cases hn : notice? id r as with
  | none =>
    rw [hn, there] at noticed
    refine .inr ⟨e'.unread, by rw [← noticed.1]; rfl, ?_⟩
    rw [noticed.2]
    exact (List.append_nil e'.unread).symm
  | some n =>
    rw [hn, there] at noticed
    rcases Subscription.unread_take? noticed with ⟨rfl, answers, rest⟩ | ⟨e, before, account⟩
    · exact .inl ⟨rfl, answers, rest⟩
    · exact .inr ⟨e.unread, by rw [before]; rfl, account⟩

/-- A subscription that is gone after a request got nothing from it. -/
theorem answersTo_of_gone (sound : b.Sound) (taken : b.take? r = some (b', as))
    (gone : b'.queues.get? id = none) : answersTo id r as = [] := by
  have noticed := Exchange.noticed (exchange_taken sound taken) id
  rw [get?_queues, Option.map_eq_none_iff] at gone
  cases hn : notice? id r as with
  | none =>
    rw [hn] at noticed
    exact noticed.2
  | some n =>
    rw [hn, gone] at noticed
    exact Subscription.silent_of_take? noticed

theorem acceptedAt_of_stranger {l : Leg (Bus α) (Request α) (Answer α)}
    (stranger : id ∉ l.before.members) : acceptedAt capacity id l = [] := by
  unfold acceptedAt
  split
  · exact if_neg fun h => stranger h.1
  · rfl

/-! ### Books -/

/-- The books of one subscription. -/
structure Books (id : SubscriberId) (capacity : Nat) (w : History α) (b : Bus α) : Prop where
  /-- Ids are given in order. -/
  unborn : b.nextId ≤ id.number → acceptedBy capacity id w = []
  registered : id ∈ b.members ↔ Registered id w
  held : b.queues.has id = true ↔ Held id w
  unread : ∀ q, b.queues.get? id = some q → receivedBy id w ++ q = acceptedBy capacity id w
  received : receivedBy id w <+: acceptedBy capacity id w

theorem receivedBy_snoc (id : SubscriberId) (w : History α) (l : Leg (Bus α) (Request α) (Answer α)) :
    receivedBy id (w ++ [l]) =
      receivedBy id w ++ (answersTo id l.input l.effects).filterMap Answer.message? := by
  simp [receivedBy, answersOf]

theorem acceptedBy_snoc (capacity : Nat) (id : SubscriberId) (w : History α)
    (l : Leg (Bus α) (Request α) (Answer α)) :
    acceptedBy capacity id (w ++ [l]) = acceptedBy capacity id w ++ acceptedAt capacity id l := by
  simp [acceptedBy]

theorem books_new (id : SubscriberId) (c capacity : Nat) : Books id capacity [] (new c : Bus α) where
  unborn _ := rfl
  registered := ⟨fun h => (List.not_mem_nil h).elim, fun since => (not_since_nil since).elim⟩
  held := ⟨fun h => absurd h Bool.false_ne_true, fun since => (not_since_nil since).elim⟩
  unread q there := by cases there
  received := List.prefix_rfl

theorem Books.step (books : Books id b.capacity w b) (sound : b.Sound)
    (taken : b.take? r = some (b', as)) :
    Books id b.capacity (w ++ [⟨b, r, as, b'⟩]) b' := by
  obtain ⟨later, opening⟩ := nextId_take? sound taken
  have unborn : b.nextId ≤ id.number → acceptedBy b.capacity id (w ++ [⟨b, r, as, b'⟩]) = [] := by
    intro unborn
    have stranger : id ∉ b.members := fun member =>
      Nat.not_lt.2 unborn (sound.issued id (sound.queued id member))
    rw [acceptedBy_snoc, books.unborn unborn, acceptedAt_of_stranger stranger, List.nil_append]
  have unread : ∀ q', b'.queues.get? id = some q' →
      receivedBy id (w ++ [⟨b, r, as, b'⟩]) ++ q' =
        acceptedBy b.capacity id (w ++ [⟨b, r, as, b'⟩]) := by
    intro q' unread
    rcases unread_take? sound taken unread with ⟨opened, answers, rfl⟩ | ⟨q, before, account⟩
    · -- The id is new, so nothing was accepted or received under it.
      obtain rfl := opening id opened
      have none := books.received
      rw [books.unborn (Nat.le_refl _)] at none
      rw [unborn (Nat.le_refl _), receivedBy_snoc, answers, List.prefix_nil.1 none]
      rfl
    · rw [receivedBy_snoc, acceptedBy_snoc, ← books.unread q before, List.append_assoc,
        List.append_assoc, account]
  refine ⟨fun h => unborn (Nat.le_trans later h), ?_, ?_, unread, ?_⟩
  · rw [members_take? sound taken, Registered, since_snoc_iff, books.registered]
    rfl
  · rw [has_take? sound taken, Held, since_snoc_iff, books.held]
    rfl
  · cases gone : b'.queues.get? id with
    | none =>
      rw [receivedBy_snoc, answersTo_of_gone sound taken gone, acceptedBy_snoc]
      exact (List.append_nil _).symm ▸ books.received.trans (List.prefix_append ..)
    | some q => exact ⟨q, unread q gone⟩

theorem books_of_trail {c : Nat} (supported : max c 1 ≤ maxCapacity)
    (trail : Trail take? (new c) w b) (id : SubscriberId) : Books id (max c 1) w b := by
  induction trail with
  | rest => exact books_new id c (max c 1)
  | step past taken ih =>
    obtain ⟨sound, capacity⟩ := sound_of_trail supported past
    exact capacity ▸ (capacity ▸ ih).step sound taken

/-! ### Subscriptions alone -/

/-- A subscription answers what it would answer alone. -/
theorem alone {c : Nat} (supported : max c 1 ≤ maxCapacity) (trail : Trail take? (new c) w b)
    (id : SubscriberId) :
    ∃ v, Trail (Subscription.take? (max c 1)) none v (b.exchange.endpoints.get? id) ∧
      v.map Leg.input = noticesOf id w ∧ effectsOf v = answersOf id w := by
  induction trail with
  | rest => exact ⟨[], .rest, rfl, rfl⟩
  | @step w b b' r as past taken ih =>
    obtain ⟨sound, capacity⟩ := sound_of_trail supported past
    have noticed := Exchange.noticed (exchange_taken sound taken) id
    obtain ⟨v, alone, notices, answers⟩ := ih
    cases hn : notice? id r as with
    | none =>
      rw [hn] at noticed
      refine ⟨v, noticed.1 ▸ alone, ?_, ?_⟩
      · simp [noticesOf, Leg.notice?, hn] at notices ⊢
        exact notices
      · simp [answersOf, noticed.2] at answers ⊢
        exact answers
    | some n =>
      rw [hn] at noticed
      have step : Subscription.take? (max c 1) (b.exchange.endpoints.get? id) n =
          some (b'.exchange.endpoints.get? id, answersTo id r as) := capacity ▸ noticed
      refine ⟨_, alone.step step, ?_, ?_⟩
      · simp [noticesOf, Leg.notice?, hn, notices]
      · simp [answersOf, answers]

/-- The leg of the plain bus. -/
def Leg.exchange (l : Leg (Bus α) (Request α) (Answer α)) :
    Leg (Exchange α) (Request α) (Answer α) :=
  ⟨l.before.exchange, l.input, l.effects, l.after.exchange⟩

theorem exchange_of_trail {c : Nat} (supported : max c 1 ≤ maxCapacity)
    (trail : Trail take? (new c) w b) :
    Trail Exchange.take? (Exchange.new c) (w.map Leg.exchange) b.exchange := by
  induction trail with
  | rest => exact .rest
  | step past taken ih =>
    rw [List.map_append]
    exact ih.step (exchange_taken (sound_of_trail supported past).1 taken)

/-- The members that get a message are those that accept it. -/
theorem publish_count (sound : b.Sound) {m : α} (taken : b.take? (.publish m) = some (b', as)) :
    ∃ ids : List SubscriberId, ids.Nodup ∧
      (∀ id, id ∈ ids ↔ acceptedAt b.capacity id ⟨b, .publish m, as, b'⟩ = [m]) ∧
      as = [.delivered ids.length] := by
  rw [take?, Option.ite_none_right_eq_some] at taken
  obtain ⟨-, rfl⟩ := Prod.mk.inj (Option.some.inj taken.2)
  refine ⟨b.members.filter b.hasRoom, sound.members.filter _, fun id => ?_, ?_⟩
  · have accepted : acceptedAt b.capacity id ⟨b, .publish m, [.delivered (b.publish m).1], b'⟩ = [m] ↔
        id ∈ b.members ∧ (b.waiting id).length < b.capacity := by
      unfold acceptedAt
      simp
    rw [List.mem_filter, hasRoom_iff, accepted]
    refine and_congr_right fun member => ?_
    obtain ⟨q, unread⟩ := Option.isSome_iff_exists.1
      ((Table.mem_keys_iff ..).1 (sound.queued id member))
    simp [waiting, unread]
  · rw [(exchange_publish sound m).1, ← sound.countP_accepts, List.countP_eq_length_filter]

theorem receive_closed_iff (books : Books id capacity w b) (sound : b.Sound) (held : Held id w) :
    ∃ b' r, b.take? (.receive id) = some (b', [.received r]) ∧
      (r = .closed ↔ ¬ Registered id w ∧ receivedBy id w = acceptedBy capacity id w) := by
  have there := books.held.2 held
  obtain ⟨q, unread⟩ := Option.isSome_iff_exists.1 there
  refine ⟨_, _, by rw [take?, if_pos there], ?_⟩
  rw [(exchange_receive sound unread).1, ← books.unread q unread, ← books.registered]
  cases q with
  | nil => simp [Endpoint.read, endpoint]
  | cons m q => simp [Endpoint.read, endpoint]

theorem tryReceive_none_iff (books : Books id capacity w b) (sound : b.Sound) (held : Held id w) :
    ∃ b' m, b.take? (.tryReceive id) = some (b', [.tried m]) ∧
      (m = none ↔ receivedBy id w = acceptedBy capacity id w) := by
  have there := books.held.2 held
  obtain ⟨q, unread⟩ := Option.isSome_iff_exists.1 there
  refine ⟨_, _, by rw [take?, if_pos there], ?_⟩
  rw [(exchange_receive sound unread).1, ← books.unread q unread]
  cases q with
  | nil =>
    have silent : (endpoint b id []).read.1.message? = none := by
      unfold Endpoint.read
      show (ite _ _ _ : Reception α).message? = none
      split <;> rfl
    simp [silent]
  | cons m q => simp [Endpoint.read, endpoint, Reception.message?]

/-- A bus does what the plain bus does, and each subscription is a queue of its own.
It gets the messages that were published while it was registered and had room, in
order; each publication counts the subscriptions that accept it; a subscription is
closed when it is not registered and everything it accepted is received. -/
theorem is_its_subscriptions {c : Nat} (supported : max c 1 ≤ maxCapacity)
    (trail : Trail take? (new c) w b) :
    (Trail Exchange.take? (Exchange.new c) (w.map Leg.exchange) b.exchange ∧
      ∀ r, b.exchange.take? r = (b.take? r).map fun t => (t.1.exchange, t.2)) ∧
    (∀ id, (id ∈ b.members ↔ Registered id w) ∧
      receivedBy id w <+: acceptedBy (max c 1) id w ∧
      (Held id w →
        receivedBy id w ++ b.waiting id = acceptedBy (max c 1) id w ∧
        (∃ b' r, b.take? (.receive id) = some (b', [.received r]) ∧
          (r = .closed ↔ ¬ Registered id w ∧ receivedBy id w = acceptedBy (max c 1) id w)) ∧
        ∃ b' m, b.take? (.tryReceive id) = some (b', [.tried m]) ∧
          (m = none ↔ receivedBy id w = acceptedBy (max c 1) id w))) ∧
    (∀ m b' as, b.take? (.publish m) = some (b', as) → ∃ ids : List SubscriberId, ids.Nodup ∧
      (∀ id, id ∈ ids ↔ acceptedAt (max c 1) id ⟨b, .publish m, as, b'⟩ = [m]) ∧
      as = [.delivered ids.length]) ∧
    ∀ id id' w' b', Trail take? (new c) w' b' → noticesOf id w = noticesOf id' w' →
      answersOf id w = answersOf id' w' := by
  obtain ⟨sound, capacity⟩ := sound_of_trail supported trail
  refine ⟨⟨exchange_of_trail supported trail, exchange_take? sound⟩, fun id => ?_,
    fun m b' as taken => capacity ▸ publish_count sound taken, ?_⟩
  · have books := books_of_trail supported trail id
    refine ⟨books.registered, books.received, fun held => ⟨?_,
      receive_closed_iff books sound held, tryReceive_none_iff books sound held⟩⟩
    obtain ⟨q, unread⟩ := Option.isSome_iff_exists.1 (books.held.2 held)
    rw [waiting, unread]
    exact books.unread q unread
  · intro id id' w' b' trail' same
    obtain ⟨v, alone, notices, answers⟩ := alone supported trail id
    obtain ⟨v', alone', notices', answers'⟩ := Bus.alone supported trail' id'
    obtain ⟨rfl, -⟩ := alone.determined alone' (notices.trans (same.trans notices'.symm))
    exact answers.symm.trans answers'

/-- The first of two subscriptions to a bus with room for one message misses the second
message, reads the first, gets the third and leaves; it is closed once it has read that. -/
def visit : List (Request Nat) :=
  [.subscribe, .subscribe, .publish 1, .publish 2, .receive ⟨1⟩, .publish 3, .detach ⟨1⟩,
    .publish 4, .tryReceive ⟨1⟩]

theorem is_its_subscriptions_visit :
    ∃ w b, Trail take? (new 0) w b ∧ max 0 1 ≤ maxCapacity ∧ receivedBy ⟨1⟩ w = [1, 3] ∧
      ∃ b', b.take? (.receive ⟨1⟩) = some (b', [.received .closed]) := by
  have trail := Trail.of_inputs take? (new 0) visit
  have supported : max 0 1 ≤ maxCapacity := by decide
  have held := (books_of_trail supported trail ⟨1⟩).held.1 (by decide)
  obtain ⟨-, each, -⟩ := is_its_subscriptions supported trail
  obtain ⟨registered, -, gives⟩ := each ⟨1⟩
  obtain ⟨account, ⟨b', r, taken, closed⟩, -⟩ := gives held
  obtain rfl := closed.2 ⟨fun member => absurd (registered.2 member) (by decide), by
    rw [← account]
    decide⟩
  exact ⟨_, _, trail, supported, by decide, b', taken⟩

end Bus

end Restock
