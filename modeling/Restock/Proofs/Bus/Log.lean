import Restock.Logger
import Restock.Proofs.Bus.Subscriptions

/-! The end of a log.

A logger ends at a closing event, and a full queue loses that event like any other. So
what ends a log is a closing event that comes while the logger's queue has room. In a
`LoggedBus` a logger takes one event at a time while everything else is asked of the bus
in between. It has written what its endpoint accepted, up to what it has not read yet,
and once a closing event is accepted it ends after at most as many reads as its queue has
places, whatever else happens (`closing_ends_the_log`). A closing event that finds the
queue full leaves it waiting (`log_outlasts_its_close`). -/
namespace Restock

/-- The events up to the first closing event, which is one of them. -/
def throughClose : List Event → List Event
  | [] => []
  | e :: es => if e.isClose then [e] else e :: throughClose es

/-- What a logger does with what it gets. -/
def Logger.hear (l : Logger) : Reception Event → Logger
  | .message e => { l with written := l.written ++ [e], ended := e.isClose }
  | .pending => l
  | .closed => { l with ended := true }

/-- Requests that only the owner of a subscription can make. -/
def Bus.Request.isOwn {α : Type} (id : SubscriberId) : Bus.Request α → Bool
  | .detach i | .drop i | .receive i | .tryReceive i => i = id
  | _ => false

/-- Requests of others that end a membership. -/
def Bus.Request.cuts {α : Type} (id : SubscriberId) : Bus.Request α → Bool
  | .unsubscribe i => i = id
  | .close => true
  | _ => false

/-- A bus and a logger on it. -/
structure LoggedBus where
  bus : Bus Event
  logger : Logger

namespace LoggedBus

inductive Move
  | request (r : Bus.Request Event)
  /-- The logger takes the next event, if there is one. -/
  | read

def Move.isRead : Move → Bool
  | .read => true
  | .request _ => false

/-- A logger that has just been made. -/
def opened (b : Bus Event) (id : SubscriberId) : LoggedBus := ⟨b, ⟨id, [], false⟩⟩

/-- The logger goes on, or it has ended and takes its subscription away. -/
def settle (l : Logger) (b : Bus Event) : LoggedBus :=
  ⟨if l.ended then b.drop l.subscriber else b, l⟩

def next? (s : LoggedBus) : Move → Option (LoggedBus × List (Bus.Answer Event))
  | .request r =>
    if r.isOwn s.logger.subscriber then none
    else (s.bus.take? r).map fun (b, as) => ({ s with bus := b }, as)
  | .read =>
    if s.logger.ended then none
    else
      let (r, b) := s.bus.receive s.logger.subscriber
      some (settle (s.logger.hear r) b, [.received r])

abbrev Legs := List (Leg LoggedBus Move (Bus.Answer Event))

/-- The event of a leg, if the logger's endpoint accepts it. -/
def acceptedAt (capacity : Nat) (l : Leg LoggedBus Move (Bus.Answer Event)) : List Event :=
  match l.input with
  | .request r =>
    Bus.acceptedAt capacity l.before.logger.subscriber ⟨l.before.bus, r, l.effects, l.after.bus⟩
  | .read => []

def accepted (capacity : Nat) (w : Legs) : List Event := w.flatMap (acceptedAt capacity)

def reads (w : Legs) : Nat := w.countP fun l => l.input.isRead

/-- The logger's membership was ended by somebody else. -/
def Cut (id : SubscriberId) (w : Legs) : Prop :=
  ∃ l ∈ w, ∃ r, l.input = .request r ∧ r.cuts id = true

end LoggedBus

/-! ### The first closing event -/

section
variable {es fs : List Event}

theorem throughClose_append (open' : ∀ e ∈ es, e.isClose = false) :
    throughClose (es ++ fs) = es ++ throughClose fs := by
  induction es with
  | nil => rfl
  | cons e es ih =>
    simp [throughClose, open' e List.mem_cons_self,
      ih fun e he => open' e (List.mem_cons_of_mem _ he)]

end

/-! ### The logger -/

namespace Logger

/-- A logger that catches up hears one reception after the other while they bring events. -/
theorem catchUp_succ {l : Logger} (going : l.ended = false) (b : Bus Event) (fuel : Nat) :
    l.catchUp b (fuel + 1) =
      if (b.receive l.subscriber).1.message?.isSome then
        (l.hear (b.receive l.subscriber).1).catchUp (b.receive l.subscriber).2 fuel
      else (l.hear (b.receive l.subscriber).1, (b.receive l.subscriber).2) := by
  rw [catchUp, going]
  rcases b.receive l.subscriber with ⟨r, b'⟩
  cases r <;> rfl

/-- A logger that is left alone writes what is queued, up to a closing event. -/
theorem catchUp_eq {l : Logger} {b : Bus Event} {q : List Event} {fuel : Nat}
    (going : l.ended = false) (queue : b.queues.get? l.subscriber = some q)
    (enough : q.length < fuel) :
    (l.catchUp b fuel).1.written = l.written ++ throughClose q ∧
      ((∃ e ∈ q, e.isClose = true) → (l.catchUp b fuel).1.ended = true) := by
  induction q generalizing l b fuel with
  | nil =>
    obtain ⟨fuel, rfl⟩ := Nat.exists_eq_succ_of_ne_zero (Nat.ne_of_gt enough)
    have nothing : b.receive l.subscriber =
        (if b.isOpen l.subscriber then .pending else .closed, b) := by
      rw [Bus.receive, queue]
    refine ⟨?_, fun closing => by simp at closing⟩
    rw [catchUp_succ going, nothing]
    cases b.isOpen l.subscriber <;> simp [Reception.message?, hear, throughClose]
  | cons e q ih =>
    obtain ⟨fuel, rfl⟩ := Nat.exists_eq_succ_of_ne_zero (Nat.ne_of_gt (Nat.zero_lt_of_lt enough))
    have next : b.receive l.subscriber =
        (.message e, { b with queues := b.queues.put l.subscriber q }) := by
      rw [Bus.receive, queue]
    rw [catchUp_succ going, next]
    simp only [Reception.message?, Option.isSome_some, if_true, hear, throughClose]
    cases closing : e.isClose with
    | true =>
      cases fuel <;> simp [catchUp]
    | false =>
      obtain ⟨written, ended⟩ := ih
        (l := { l with written := l.written ++ [e], ended := false })
        (b := { b with queues := b.queues.put l.subscriber q }) rfl
        (Table.get?_put_self ..) (Nat.lt_of_succ_lt_succ enough)
      refine ⟨by simp [written], fun some' => ended ?_⟩
      simpa [closing] using some'

theorem subscriber_hear (l : Logger) (r : Reception Event) :
    (l.hear r).subscriber = l.subscriber := by
  cases r <;> rfl

theorem unread_read (e : Endpoint Event) : e.read.2.unread = e.unread.tail := by
  obtain ⟨registered, unread⟩ := e
  cases unread <;> rfl

/-- What a logger has written and its endpoint has not read stays the same when it reads,
until it ends; then it has written all up to the first closing event. -/
theorem hear_read {l : Logger} {e : Endpoint Event} (going : l.ended = false)
    (opens : ∀ m ∈ l.written, m.isClose = false) :
    ((l.hear e.read.1).ended = false ∧
      (l.hear e.read.1).written ++ e.read.2.unread = l.written ++ e.unread ∧
      ∀ m ∈ (l.hear e.read.1).written, m.isClose = false) ∨
    ((l.hear e.read.1).ended = true ∧
      (l.hear e.read.1).written = throughClose (l.written ++ e.unread) ∧
      ((∃ m ∈ e.unread, m.isClose = true) ∨ e.registered = false)) := by
  obtain ⟨registered, unread⟩ := e
  cases unread with
  | nil =>
    cases registered with
    | true => exact .inl ⟨going, rfl, opens⟩
    | false =>
      refine .inr ⟨rfl, ?_, .inr rfl⟩
      rw [throughClose_append opens]
      exact (List.append_nil _).symm
  | cons m rest =>
    cases closing : m.isClose with
    | true =>
      refine .inr ⟨closing, ?_, .inl ⟨m, List.mem_cons_self, closing⟩⟩
      simp [hear, Endpoint.read, throughClose_append opens, throughClose, closing]
    | false =>
      refine .inl ⟨closing, List.append_assoc .., fun n there => ?_⟩
      rcases List.mem_append.1 there with there | there
      · exact opens n there
      · rwa [List.mem_singleton.1 there]

end Logger

/-! ### Requests of others -/

namespace Bus

section
variable {α : Type} {b b' : Bus α} {r : Request α} {as : List (Answer α)} {id : SubscriberId}

/-- A request of somebody else may add a message to an endpoint, or end its membership. -/
theorem endpoint_of_others (sound : b.Sound) (issued : id.number < b.nextId)
    (others : r.isOwn id = false) (taken : b.take? r = some (b', as)) :
    b'.exchange.endpoints.get? id = (b.exchange.endpoints.get? id).map fun e =>
      ⟨e.registered && !r.cuts id, e.unread ++ acceptedAt b.capacity id ⟨b, r, as, b'⟩⟩ := by
  have noticed := Exchange.noticed (exchange_taken sound taken) id
  rw [acceptedAt_eq sound]
  cases hn : notice? id r as with
  | none =>
    rw [hn] at noticed
    have uncut : r.cuts id = false := by
      cases r <;> simp_all [notice?, Request.cuts]
    simp [noticed.1, uncut]
  | some n =>
    rw [hn] at noticed
    cases r with
    | subscribe =>
      -- The new id is not this one.
      have opened : n = .opened := by
        rw [notice?] at hn
        split at hn
        · exact (Option.some.inj hn).symm
        · contradiction
      have new := (nextId_take? sound taken).2 id (hn.trans (congrArg some opened))
      exact absurd issued (by simp [new])
    | unsubscribe i =>
      obtain ⟨rfl, rfl⟩ : i = id ∧ Notice.left = n := by simpa [notice?] using hn
      obtain ⟨after, -⟩ := Prod.mk.inj (Option.some.inj noticed)
      rw [← after]
      cases b.exchange.endpoints.get? i <;>
        simp [Endpoint.leave, Request.cuts, Subscription.takesIn]
    | publish m =>
      obtain rfl : Notice.offered m = n := by simpa [notice?] using hn
      obtain ⟨after, -⟩ := Prod.mk.inj (Option.some.inj noticed)
      rw [← after]
      cases b.exchange.endpoints.get? id with
      | none => rfl
      | some e =>
        show some (e.offer b.capacity m) = _
        simp only [Option.map_some, Option.elim_some, Request.cuts, Bool.not_false, Bool.and_true,
          Subscription.takesIn, Option.any_some, Endpoint.offer]
        split
        · rfl
        · rw [List.append_nil]
    | close =>
      obtain rfl : Notice.left = n := by simpa [notice?] using hn
      obtain ⟨after, -⟩ := Prod.mk.inj (Option.some.inj noticed)
      rw [← after]
      cases b.exchange.endpoints.get? id <;>
        simp [Endpoint.leave, Request.cuts, Subscription.takesIn]
    | detach i | drop i | receive i | tryReceive i =>
      have own : i ≠ id := by simpa [Request.isOwn] using others
      simp [notice?, own] at hn

theorem waiting_eq {e : Endpoint α} (there : b.exchange.endpoints.get? id = some e) :
    b.waiting id = e.unread := by
  rw [waiting, get?_queues, there]
  rfl

/-- An endpoint never has more unread messages than there may be. -/
theorem length_unread_le {e : Endpoint α} (there : b.exchange.endpoints.get? id = some e)
    (room : e.unread.length ≤ b.capacity) :
    (e.unread ++ acceptedAt b.capacity id ⟨b, r, as, b'⟩).length ≤ b.capacity := by
  have waiting := waiting_eq there
  unfold acceptedAt
  split
  · split
    · next free =>
      rw [← waiting, List.length_append]
      exact free.2
    · simpa using room
  · simpa using room

/-- Nobody subscribes to a bus that cannot make a queue. -/
theorem supported_of_subscribe (taken : b.take? .subscribe = some (b', as)) :
    b.capacity ≤ maxCapacity := by
  rw [take?, Option.ite_none_right_eq_some] at taken
  obtain ⟨t, made, -⟩ := Option.map_eq_some_iff.1 taken.2
  rw [subscribe?, Option.ite_none_left_eq_some] at made
  exact Nat.not_lt.1 made.1

/-- A bus that is gone does not come back. -/
theorem alive_take? (sound : b.Sound) (taken : b.take? r = some (b', as)) (alive : b'.alive = true) :
    b.alive = true ∧ r ≠ .close := by
  have taken := exchange_taken sound taken
  have alive : b'.exchange.alive = true := alive
  show b.exchange.alive = true ∧ _
  cases r with
  | receive i | tryReceive i =>
    obtain ⟨e, -, step⟩ := Option.map_eq_some_iff.1 taken
    rw [← (Prod.mk.inj step).1] at alive
    exact ⟨alive, by simp⟩
  | subscribe | unsubscribe | detach | drop | publish | close =>
    rw [Exchange.take?, Option.ite_none_right_eq_some] at taken
    rw [← (Prod.mk.inj (Option.some.inj taken.2)).1] at alive
    first
    | exact ⟨alive, by simp⟩
    | exact absurd alive Bool.false_ne_true

end

end Bus

/-! ### What is written and what is to come -/

namespace LoggedBus

/-- What stays true of the bus. -/
structure Carries (id : SubscriberId) (capacity : Nat) (w : Legs) (b : Bus Event) : Prop where
  sound : b.Sound
  bounded : b.capacity = capacity
  issued : id.number < b.nextId
  gone : (∃ l ∈ w, l.input = .request .close) → b.alive = false

/-- What a bus with a logger has come to. -/
structure Keeps (id : SubscriberId) (capacity : Nat) (w : Legs) (s : LoggedBus) : Prop where
  own : s.logger.subscriber = id
  carries : Carries id capacity w s.bus
  /-- A logger that has not ended has written what was accepted but for what is unread. -/
  going : s.logger.ended = false → ∃ e, s.bus.exchange.endpoints.get? id = some e ∧
    s.logger.written ++ e.unread = accepted capacity w ∧
    (∀ m ∈ s.logger.written, m.isClose = false) ∧ e.unread.length ≤ capacity ∧
    (e.registered = true ∨ Cut id w)
  ended : s.logger.ended = true → s.bus.exchange.endpoints.get? id = none ∧
    s.logger.written = throughClose (accepted capacity w) ∧
    ((∃ m ∈ accepted capacity w, m.isClose = true) ∨ Cut id w)

section
variable {s s' : LoggedBus} {w : Legs} {m : Move} {as : List (Bus.Answer Event)}
  {id : SubscriberId} {capacity : Nat}

theorem accepted_append (capacity : Nat) (w v : Legs) :
    accepted capacity (w ++ v) = accepted capacity w ++ accepted capacity v := List.flatMap_append

theorem accepted_snoc (capacity : Nat) (w : Legs) (l : Leg LoggedBus Move (Bus.Answer Event)) :
    accepted capacity (w ++ [l]) = accepted capacity w ++ acceptedAt capacity l := by
  simp [accepted]

theorem Cut.mono (cut : Cut id w) (l : Leg LoggedBus Move (Bus.Answer Event)) : Cut id (w ++ [l]) := by
  obtain ⟨k, there, r, cuts⟩ := cut
  exact ⟨k, List.mem_append_left _ there, r, cuts⟩

theorem Carries.request {b b' : Bus Event} {r : Bus.Request Event} (carries : Carries id capacity w b)
    (taken : b.take? r = some (b', as)) :
    Carries id capacity (w ++ [⟨s, .request r, as, s'⟩]) b' := by
  obtain ⟨sound, bounded, issued, gone⟩ := carries
  refine ⟨sound.take? taken, (Bus.capacity_take? taken).trans bounded,
    Nat.lt_of_lt_of_le issued (Bus.nextId_take? sound taken).1, fun closed => ?_⟩
  rw [← Bool.not_eq_true]
  intro alive
  obtain ⟨before, other⟩ := Bus.alive_take? sound taken alive
  obtain ⟨l, there, closes⟩ := closed
  rcases List.mem_append.1 there with there | there
  · exact absurd (gone ⟨l, there, closes⟩) (by simp [before])
  · rw [List.mem_singleton.1 there] at closes
    exact other (Move.request.inj closes)

/-- Reading from a bus leaves alone what is not about endpoints. -/
theorem Carries.read {b b' : Bus Event} (carries : Carries id capacity w b) (sound : b'.Sound)
    {endpoints : Table SubscriberId (Endpoint Event)}
    (same : b'.exchange = { b.exchange with endpoints }) :
    Carries id capacity (w ++ [⟨s, .read, as, s'⟩]) b' := by
  refine ⟨sound, (congrArg Exchange.capacity same).trans carries.bounded,
    Nat.lt_of_lt_of_eq carries.issued (congrArg Exchange.nextId same).symm, fun closed => ?_⟩
  refine (congrArg Exchange.alive same).trans (carries.gone ?_)
  obtain ⟨l, there, closes⟩ := closed
  rcases List.mem_append.1 there with there | there
  · exact ⟨l, there, closes⟩
  · rw [List.mem_singleton.1 there] at closes
    contradiction

theorem Keeps.request (keeps : Keeps id capacity w s) {r : Bus.Request Event} {b : Bus Event}
    (others : r.isOwn id = false) (taken : s.bus.take? r = some (b, as)) :
    Keeps id capacity (w ++ [⟨s, .request r, as, { s with bus := b }⟩]) { s with bus := b } := by
  obtain ⟨own, carries, going, ended⟩ := keeps
  have sound := carries.sound
  have bounded := carries.bounded
  have endpoint := Bus.endpoint_of_others sound carries.issued others taken
  have grows : accepted capacity (w ++ [⟨s, .request r, as, { s with bus := b }⟩]) =
      accepted capacity w ++ Bus.acceptedAt s.bus.capacity id ⟨s.bus, r, as, b⟩ := by
    rw [accepted_snoc, acceptedAt, own, bounded]
  refine ⟨own, carries.request taken, fun h => ?_, fun h => ?_⟩
  · obtain ⟨e, there, written, opens, room, registered⟩ := going h
    rw [there] at endpoint
    refine ⟨_, endpoint, ?_, opens, bounded ▸ Bus.length_unread_le there (bounded ▸ room), ?_⟩
    · rw [grows, ← written, List.append_assoc]
    · cases cuts : r.cuts id with
      | false => exact registered.imp (fun member => by simp [member]) (Cut.mono · _)
      | true => exact .inr ⟨_, List.mem_append_right _ (List.mem_singleton_self _), r, rfl, cuts⟩
  · obtain ⟨absent, written, why⟩ := ended h
    have stranger : id ∉ s.bus.members := by
      rw [← sound.registered id, absent]
      exact Bool.false_ne_true
    have same : accepted capacity (w ++ [⟨s, .request r, as, { s with bus := b }⟩]) =
        accepted capacity w := by
      rw [grows, Bus.acceptedAt_of_stranger stranger, List.append_nil]
    rw [absent] at endpoint
    exact ⟨endpoint, by rw [same]; exact written, same ▸ why.imp_right (Cut.mono · _)⟩

/-- The logger reads. -/
theorem Keeps.read (keeps : Keeps id capacity w s) (h : s.logger.ended = false) :
    let s' := settle (s.logger.hear (s.bus.receive id).1) (s.bus.receive id).2
    Keeps id capacity (w ++ [⟨s, .read, [.received (s.bus.receive id).1], s'⟩]) s' := by
  intro s'
  obtain ⟨own, carries, going, -⟩ := keeps
  obtain ⟨e, there, written, opens, room, registered⟩ := going h
  obtain ⟨q, unread, shown⟩ := Option.map_eq_some_iff.1 ((Bus.get?_exchange ..).symm.trans there)
  obtain ⟨got, frame⟩ := Bus.exchange_receive carries.sound unread
  rw [shown] at got
  have sound := carries.sound.receive id
  have after : (s.bus.receive id).2.exchange.endpoints.get? id = some e.read.2 := by
    rw [frame, Table.get?_modify, if_pos rfl, there]
    rfl
  have same : accepted capacity (w ++ [⟨s, .read, [.received (s.bus.receive id).1], s'⟩]) =
      accepted capacity w := by
    rw [accepted_snoc]
    exact List.append_nil _
  have reader : s'.logger = s.logger.hear e.read.1 := congrArg s.logger.hear got
  have bus : s'.bus = if (s.logger.hear e.read.1).ended then (s.bus.receive id).2.drop id
      else (s.bus.receive id).2 := by
    simp only [s', settle, got, Logger.subscriber_hear, own]
  rcases Logger.hear_read h opens with
    ⟨goes, rest, opens⟩ | ⟨ends, all, why⟩
  · rw [goes, if_neg Bool.false_ne_true] at bus
    refine ⟨by rw [reader, Logger.subscriber_hear, own], bus ▸ carries.read sound frame,
      fun _ => ⟨e.read.2, bus ▸ after, ?_, reader ▸ opens, ?_, ?_⟩,
      fun ended => absurd (reader ▸ ended) (by simp [goes])⟩
    · rw [same, reader, rest, written]
    · rw [Logger.unread_read, List.length_tail]
      exact Nat.le_trans (Nat.sub_le ..) room
    · rw [Endpoint.registered_read]
      exact registered.imp_right (Cut.mono · _)
  · rw [ends, if_pos rfl] at bus
    have dropped : ((s.bus.receive id).2.drop id).exchange.endpoints.get? id = none := by
      rw [Bus.exchange_drop sound, Table.get?_erase, if_pos rfl]
    refine ⟨by rw [reader, Logger.subscriber_hear, own],
      bus ▸ carries.read (sound.drop id) ((Bus.exchange_drop sound id).trans (by rw [frame])),
      fun going => absurd (reader ▸ going) (by simp [ends]), fun _ => ⟨bus ▸ dropped, ?_, ?_⟩⟩
    · rw [same, reader, all, written]
    · rw [same, ← written]
      rcases why with ⟨m, unread, closing⟩ | left
      · exact .inl ⟨m, List.mem_append_right _ unread, closing⟩
      · exact .inr ((registered.resolve_left (by simp [left])).mono _)

theorem Keeps.step (keeps : Keeps id capacity w s) (taken : next? s m = some (s', as)) :
    Keeps id capacity (w ++ [⟨s, m, as, s'⟩]) s' := by
  obtain rfl := keeps.own
  cases m with
  | request r =>
    rw [next?, Option.ite_none_left_eq_some] at taken
    obtain ⟨⟨b, answers⟩, granted, step⟩ := Option.map_eq_some_iff.1 taken.2
    obtain ⟨rfl, rfl⟩ := Prod.mk.inj step
    exact keeps.request (Bool.not_eq_true _ ▸ taken.1) granted
  | read =>
    rw [next?, Option.ite_none_left_eq_some] at taken
    obtain ⟨rfl, rfl⟩ := Prod.mk.inj (Option.some.inj taken.2)
    exact keeps.read (Bool.not_eq_true _ ▸ taken.1)

theorem Keeps.onward {v : Legs} (keeps : Keeps id capacity w s) (trail : Trail next? s v s') :
    Keeps id capacity (w ++ v) s' := by
  induction trail with
  | rest => exact (List.append_nil w).symm ▸ keeps
  | step past taken ih => exact List.append_assoc .. ▸ ih.step taken

/-- A logger starts with an empty queue. -/
theorem keeps_opened {c : Nat} {w₀ : Bus.History Event} {b₀ b : Bus Event}
    (past : Trail Bus.take? (Bus.new c) w₀ b₀)
    (opening : b₀.take? .subscribe = some (b, [.subscribed id])) :
    Keeps id (max c 1) [] (opened b id) := by
  have capacity := Bus.capacity_of_trail past
  have supported : max c 1 ≤ maxCapacity := capacity ▸ Bus.supported_of_subscribe opening
  obtain ⟨sound, -⟩ := Bus.sound_of_trail supported past
  obtain ⟨grown, made, rest, same⟩ := Bus.exchange_subscribe sound
  rw [Bus.take?, Option.ite_none_right_eq_some, made] at opening
  obtain ⟨rfl, answer⟩ := Prod.mk.inj (Option.some.inj opening.2)
  obtain rfl : (⟨b₀.nextId⟩ : SubscriberId) = id := by simpa using answer
  have issued : grown.nextId = b₀.nextId + 1 := congrArg Exchange.nextId same
  refine ⟨rfl, ⟨rest, (congrArg Exchange.capacity same).trans capacity, ?_, by simp⟩,
    fun _ => ⟨⟨true, []⟩, ?_, rfl, by simp [opened], Nat.zero_le _, .inl rfl⟩,
    fun ended => absurd ended Bool.false_ne_true⟩
  · exact issued ▸ Nat.lt_succ_self _
  · show grown.exchange.endpoints.get? _ = _
    rw [same]
    exact Table.get?_put_self ..

/-! ### A closing event -/

/-- A closing event that is published while there is room is accepted, unless one was
accepted before or somebody ended the membership. -/
theorem Keeps.accepts_close (keeps : Keeps id capacity w s) {reason : String}
    (taken : next? s (.request (.publish (.close reason))) = some (s', as))
    (stays : ∀ l ∈ w, l.input ≠ .request (.unsubscribe id))
    (room : (s.bus.waiting id).length < capacity) :
    ∃ e ∈ accepted capacity (w ++ [⟨s, .request (.publish (.close reason)), as, s'⟩]),
      e.isClose = true := by
  rw [next?, Option.ite_none_left_eq_some] at taken
  obtain ⟨t, granted, -⟩ := Option.map_eq_some_iff.1 taken.2
  rw [Bus.take?, Option.ite_none_right_eq_some] at granted
  have uncut : ¬ Cut id w := by
    intro cut
    obtain ⟨l, there, r, input, cuts⟩ := cut
    cases r with
    | unsubscribe i =>
      obtain rfl : i = id := of_decide_eq_true cuts
      exact stays l there input
    | close => exact absurd granted.1 (by simp [keeps.carries.gone ⟨l, there, input⟩])
    | _ => exact absurd cuts Bool.false_ne_true
  rw [accepted_snoc]
  cases going : s.logger.ended with
  | true =>
    obtain ⟨m, there, closing⟩ := (keeps.ended going).2.2.resolve_right uncut
    exact ⟨m, List.mem_append_left _ there, closing⟩
  | false =>
    obtain ⟨e, there, -, -, -, registered⟩ := keeps.going going
    have member : id ∈ s.bus.members := by
      rw [← keeps.carries.sound.registered, there]
      exact registered.resolve_right uncut
    refine ⟨.close reason, List.mem_append_right _ ?_, rfl⟩
    have := keeps.own
    simp [acceptedAt, Bus.acceptedAt, this, member, room]

/-- While a closing event is to come, the logger has something to read. -/
theorem Keeps.has_next (keeps : Keeps id capacity w s) (going : s.logger.ended = false)
    (closing : ∃ m ∈ accepted capacity w, m.isClose = true) :
    ∃ e m rest, s.bus.exchange.endpoints.get? id = some e ∧ e.unread = m :: rest ∧
      (s.bus.receive id).1 = .message m := by
  obtain ⟨e, there, written, opens, -⟩ := keeps.going going
  cases queue : e.unread with
  | nil =>
    rw [queue, List.append_nil] at written
    obtain ⟨m, accepted, closes⟩ := closing
    exact absurd (opens m (written ▸ accepted)) (by simp [closes])
  | cons m rest =>
    have unread : s.bus.queues.get? id = some (m :: rest) := by
      rw [Bus.get?_queues, there, ← queue]
      rfl
    exact ⟨e, m, rest, there, queue, by rw [Bus.receive, unread]⟩

/-- While a closing event is to come, each read writes an event. -/
theorem Keeps.counts {v : Legs} (keeps : Keeps id capacity w s)
    (closing : ∃ m ∈ accepted capacity w, m.isClose = true) (trail : Trail next? s v s') :
    s'.logger.ended = true ∨
      (s.logger.ended = false ∧ s'.logger.written.length = s.logger.written.length + reads v) := by
  induction trail with
  | rest => cases going : s.logger.ended <;> simp [reads]
  | @step v t u m as past taken ih =>
    have now := keeps.onward past
    obtain ⟨c, there, closes⟩ := closing
    have yet : ∃ m ∈ accepted capacity (w ++ v), m.isClose = true :=
      ⟨c, accepted_append capacity w v ▸ List.mem_append_left _ there, closes⟩
    cases m with
    | request r =>
      rw [next?, Option.ite_none_left_eq_some] at taken
      obtain ⟨granted, -, step⟩ := Option.map_eq_some_iff.1 taken.2
      obtain ⟨rfl, -⟩ := Prod.mk.inj step
      simpa [reads, Move.isRead] using ih
    | read =>
      rw [next?, Option.ite_none_left_eq_some] at taken
      have going : t.logger.ended = false := Bool.not_eq_true _ ▸ taken.1
      obtain ⟨start, count⟩ := ih.resolve_left (by simp [going])
      obtain ⟨e, m, rest, -, -, got⟩ := now.has_next going yet
      have read : u.logger = t.logger.hear (.message m) := by
        rw [← (Prod.mk.inj (Option.some.inj taken.2)).1, now.own]
        exact congrArg t.logger.hear got
      refine .inr ⟨start, ?_⟩
      rw [read]
      simp [Logger.hear, reads, Move.isRead, count, Nat.add_assoc]

/-- A logger with a closing event to come has ended after as many reads as its queue has
places. -/
theorem Keeps.ends {v : Legs} (keeps : Keeps id capacity w s)
    (closing : ∃ m ∈ accepted capacity w, m.isClose = true) (trail : Trail next? s v s')
    (enough : capacity ≤ reads v) : s'.logger.ended = true := by
  rcases keeps.counts closing trail with ended | ⟨going, count⟩
  · exact ended
  cases going' : s'.logger.ended with
  | true => rfl
  | false =>
    obtain ⟨e, -, written, -, room, -⟩ := keeps.going going
    obtain ⟨e', -, written', opens, -⟩ := (keeps.onward trail).going going'
    -- Everything accepted before `v` is written, and no closing event is.
    have all : (accepted capacity w).length ≤ s'.logger.written.length := by
      rw [count, ← written, List.length_append]
      exact Nat.add_le_add_left (Nat.le_trans room enough) _
    have first : accepted capacity w <+: s'.logger.written :=
      List.prefix_of_prefix_length_le ⟨_, (accepted_append capacity w v).symm⟩ ⟨_, written'⟩ all
    obtain ⟨c, there, closes⟩ := closing
    exact absurd (opens c (first.subset there)) (by simp [closes])

/-- A logger with a closing event to come ends when it is left alone. -/
theorem Keeps.run (keeps : Keeps id capacity w s)
    (closing : ∃ m ∈ accepted capacity w, m.isClose = true) :
    (s.logger.run s.bus).1.ended = true ∧
      (s.logger.run s.bus).1.written = throughClose (accepted capacity w) := by
  cases going : s.logger.ended with
  | true =>
    have done : (s.logger.run s.bus).1 = s.logger := by rw [Logger.run, Logger.catchUp, going]; rfl
    exact ⟨by rw [done, going], by rw [done, (keeps.ended going).2.1]⟩
  | false =>
    obtain ⟨e, there, written, opens, -⟩ := keeps.going going
    have queue : s.bus.queues.get? s.logger.subscriber = some e.unread := by
      rw [keeps.own, Bus.get?_queues, there]
      rfl
    obtain ⟨all, ended⟩ := Logger.catchUp_eq going queue (Nat.lt_succ_self _)
    rw [← throughClose_append opens, written] at all
    rw [Logger.run, queue]
    refine ⟨ended ?_, all⟩
    obtain ⟨c, accepted, closes⟩ := closing
    rw [← written] at accepted
    rcases List.mem_append.1 accepted with read | unread
    · exact absurd (opens c read) (by simp [closes])
    · exact ⟨c, unread, closes⟩

end

/-- A logger that is on a bus when a closing event is published, and has room for it, has
one to read, or has read one. Then it never waits in vain, it ends after as many reads as
its queue has places, whatever else is asked of the bus, and it ends when it is left alone.
An ended logger has written what its endpoint accepted up to the first closing event. -/
theorem closing_ends_the_log {c : Nat} {w₀ : Bus.History Event} {b₀ b : Bus Event}
    {id : SubscriberId} {w : Legs} {s : LoggedBus} (past : Trail Bus.take? (Bus.new c) w₀ b₀)
    (opening : b₀.take? .subscribe = some (b, [.subscribed id]))
    (trail : Trail next? (opened b id) w s) :
    (∀ before l later reason, w = before ++ l :: later →
      l.input = .request (.publish (.close reason)) →
      (∀ m ∈ before, m.input ≠ .request (.unsubscribe id)) →
      (l.before.bus.waiting id).length < max c 1 →
      ∃ e ∈ accepted (max c 1) (before ++ [l]), e.isClose = true) ∧
    ((∃ e ∈ accepted (max c 1) w, e.isClose = true) →
      (s.logger.ended = false → ∃ e, (s.bus.receive id).1 = .message e) ∧
      (∀ v s', Trail next? s v s' → max c 1 ≤ reads v → s'.logger.ended = true) ∧
      (s.logger.run s.bus).1.ended = true ∧
      (s.logger.run s.bus).1.written = throughClose (accepted (max c 1) w)) ∧
    (s.logger.ended = true → s.logger.written = throughClose (accepted (max c 1) w)) := by
  have start := keeps_opened past opening
  have keeps : Keeps id (max c 1) w s := start.onward trail
  refine ⟨?_, fun closing => ⟨fun going => ?_, fun v s' onward enough => ?_, keeps.run closing⟩,
    fun ended => (keeps.ended ended).2.1⟩
  · rintro before ⟨t, m, as, u⟩ later reason rfl rfl stays room
    obtain ⟨reached, taken, -⟩ := trail.reach
    exact (start.onward reached).accepts_close taken stays room
  · obtain ⟨-, m, -, -, -, got⟩ := keeps.has_next going closing
    exact ⟨m, got⟩
  · exact keeps.ends closing onward enough

/-- An event that is not the last. -/
def login : Event := .auth (.ofNat 1) (.ofNat 1) "account" .loggedIn

def farewell : List Move := [.request (.publish login), .request (.publish (.close "done"))]

/-- Another closing event, for which there is no room, and two reads. -/
def afterwards : List Move := [.request (.publish (.close "again")), .read, .read]

theorem log_of_a_farewell :
    ∃ b w s, (Bus.new 2).take? .subscribe = some (b, [.subscribed ⟨1⟩]) ∧
      Trail next? (opened b ⟨1⟩) w s ∧ w.map Leg.input = farewell ++ afterwards ∧
      s.logger.ended = true ∧ s.logger.written = [login, .close "done"] := by
  let b : Bus Event := ⟨2, 2, [⟨1⟩], none, [(⟨1⟩, [])], true⟩
  have opening : (Bus.new 2).take? .subscribe = some (b, [.subscribed ⟨1⟩]) := rfl
  have trail := Trail.of_inputs next? (opened b ⟨1⟩) farewell
  obtain ⟨accepts, ends, -⟩ := closing_ends_the_log .rest opening trail
  have closing := accepts [_] _ [] "done" rfl rfl (List.forall_mem_singleton.2 nofun) (by decide)
  have onward := Trail.of_inputs next? (Trail.follow next? (opened b ⟨1⟩) farewell).2 afterwards
  have ended := (ends closing).2.1 _ _ onward (by decide)
  have written := (closing_ends_the_log .rest opening (trail.append onward)).2.2 ended
  exact ⟨b, _, _, opening, trail.append onward, rfl, ended, written⟩

/-- In a full queue of one place a closing event is lost, and its logger waits for another. -/
theorem log_outlasts_its_close :
    ∃ b w s, (Bus.new 1).take? .subscribe = some (b, [.subscribed ⟨1⟩]) ∧
      Trail next? (opened b ⟨1⟩) w s ∧
      w.map Leg.input = farewell ∧ accepted 1 w = [login] ∧ (s.logger.run s.bus).1.ended = false ∧
      (s.logger.run s.bus).1.written = [login] :=
  ⟨_, _, _, rfl, Trail.of_inputs next? _ farewell, rfl, rfl, rfl, rfl⟩

end LoggedBus

end Restock
