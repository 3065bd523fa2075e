import Restock.Proofs.Monitor.Steps
import Restock.Proofs.Task.Login
import Restock.World

/-! The tasks of a world.

Of a world at work only its pool and its tasks matter to an account. Here stands
what each operation of the world does to them; it does nothing else to either. A
step of a task is a trade between the task and the pool (`Trade`), and whatever a
world publishes in a step is what the task or the monitor that acts has told. -/
namespace Restock

namespace Happening

def event? : Happening → Option Event
  | .published e => some e
  | _ => none

end Happening

/-- The events among the happenings. -/
def eventsAmong (seen : List Happening) : List Event := seen.filterMap Happening.event?

def authsAmong (seen : List Happening) : List Auth := (eventsAmong seen).filterMap Event.auth?

theorem authsAmong_append (seen more : List Happening) :
    authsAmong (seen ++ more) = authsAmong seen ++ authsAmong more := by
  simp [authsAmong, eventsAmong, List.filterMap_append]

namespace Pool

/-- Claims are let go, one after the other. -/
def finishAll (p : Pool) (fs : List (Guard × Option Session)) : Pool :=
  fs.foldl (fun p f => (p.finish f.1 f.2).1) p

end Pool

/-- The events that the monitor of a group publishes. -/
def Event.ofMonitor (g : GroupId) : Event → Bool
  | .monitor h .. => h = g
  | .product wave => wave.groupId = g
  | _ => false

namespace Monitor

def Effect.event? : Effect → Option Event
  | .publish e => some e
  | _ => none

def eventsIn (es : List Effect) : List Event := es.filterMap Effect.event?

theorem eventsIn_append (es fs : List Effect) : eventsIn (es ++ fs) = eventsIn es ++ eventsIn fs :=
  List.filterMap_append

theorem tells_announce (m : Monitor) (s : MonitorStatus) (type : EventType) (payload : Json) :
    (eventsIn (m.announce s type payload).2).all (Event.ofMonitor m.groupId) = true := by
  simp [announce, eventsIn, Effect.event?, Event.ofMonitor]

theorem tells_turn (m : Monitor) (s : MonitorStatus) (type : EventType) (payload : Json) :
    (eventsIn (m.turn s type payload).2).all (Event.ofMonitor m.groupId) = true := by
  rcases turn_eq m s type payload with ⟨h, -⟩ | ⟨h, -⟩ <;> rw [h]
  · rfl
  · exact tells_announce ..

theorem tells_round (m : Monitor) :
    (eventsIn m.round.2).all (Event.ofMonitor m.groupId) = true := by
  unfold round
  split
  · rfl
  · rw [eventsIn_append, List.all_append, tells_turn]
    rfl

theorem tells_send (m : Monitor) (products : List Product) :
    (eventsIn (m.send products).2).all (Event.ofMonitor m.groupId) = true := by
  simp [send, announce, eventsIn, Effect.event?, Event.ofMonitor, waveOf]

theorem tells_finishCheck (m : Monitor) (c : StockCheck) :
    (eventsIn (m.finishCheck c).2).all (Event.ofMonitor m.groupId) = true := by
  cases c with
  | reports r =>
    rw [finishCheck]
    by_cases h : (Sighting.ofReports m.targets r).fresh m.reported = []
    · rw [sight_of_stale h]
      exact tells_turn (m.remember _) ..
    · rw [sight_of_fresh h]
      exact tells_send (m.remember _) _
  | failed | panicked | crashed => exact tells_turn { m with warmed := false } ..

/-- Monitors tell of themselves and of their waves. -/
theorem Does.tells {m n : Monitor} {i : Signal} {es : List Effect} (h : Does m i n es) :
    (eventsIn es).all (Event.ofMonitor m.groupId) = true := by
  cases h with
  | warm | backOff | crash | rest => rfl
  | begin | stop => exact tells_announce ..
  | round | retry => exact tells_round m
  | check => exact tells_finishCheck m _

/-- They have nothing to say of accounts. -/
theorem Does.auths {m n : Monitor} {i : Signal} {es : List Effect} (h : Does m i n es) :
    (eventsIn es).filterMap Event.auth? = [] := by
  refine List.filterMap_eq_nil_iff.2 fun e he => ?_
  have own := List.all_eq_true.1 h.tells e he
  cases e with
  | monitor | product => rfl
  | auth | close | task => contradiction

end Monitor

namespace World

/-- Places are given out one after the other. -/
def Placed (w : World) : Prop := w.buyers.keys = List.range w.buyers.length

theorem length_keys (w : World) : w.buyers.keys.length = w.buyers.length := List.length_map ..

theorem length_congr {w w' : World} (h : w'.buyers.keys = w.buyers.keys) :
    w'.buyers.length = w.buyers.length := by
  rw [← length_keys, h, length_keys]

theorem Placed.congr {w w' : World} (placed : w.Placed) (h : w'.buyers.keys = w.buyers.keys) :
    w'.Placed := by
  rw [Placed, h, placed, length_congr h]

theorem Placed.lt {w : World} (placed : w.Placed) {n : Nat} {t : Task} (h : w.task? n = some t) :
    n < w.buyers.length := by
  obtain ⟨b, hb, -⟩ := Option.map_eq_some_iff.1 h
  have known : n ∈ w.buyers.keys := (Table.mem_keys_iff ..).2 (by rw [hb]; rfl)
  rw [placed] at known
  exact List.mem_range.1 known

theorem task?_congr {w w' : World} (h : w'.buyers = w.buyers) (n : Nat) :
    w'.task? n = w.task? n := by
  rw [task?, task?, h]

/-- A new task gets the next place. -/
theorem addTask_eq {w : World} (placed : w.Placed) (t : Task) (feed : Nat) :
    (w.addTask t feed).2.Placed ∧ (w.addTask t feed).2.buyers.length = w.buyers.length + 1 ∧
      ∀ n, (w.addTask t feed).2.task? n =
        if w.buyers.length = n then some t else w.task? n := by
  have new : w.buyers.length ∉ w.buyers.keys := by
    rw [placed]
    simp
  have keys : (w.addTask t feed).2.buyers.keys = w.buyers.keys ++ [w.buyers.length] := by
    simp only [addTask, Table.keys_put, if_neg new]
  have length : (w.addTask t feed).2.buyers.length = w.buyers.length + 1 := by
    rw [← length_keys, keys, List.length_append, length_keys]
    rfl
  refine ⟨?_, length, fun n => ?_⟩
  · rw [Placed, keys, length, placed, List.range_succ]
  · simp only [task?, addTask, Table.get?_put]
    split <;> rfl

section
variable {w w' : World} {n : Nat} {seen : List Happening}

theorem events_withPool (w : World) (p : Pool) (changed : Bool) :
    eventsAmong (w.withPool p changed).2 = [] := by
  cases changed <;> rfl

theorem performTask_eq (w : World) (n : Nat) (es : List Task.Effect) :
    (perform (performTask n) w es).1.pool = w.pool.finishAll (Task.finishesIn es) ∧
      (perform (performTask n) w es).1.buyers = w.buyers ∧
      eventsAmong (perform (performTask n) w es).2 = Task.eventsIn es := by
  induction es generalizing w with
  | nil => exact ⟨rfl, rfl, rfl⟩
  | cons e es ih =>
    obtain ⟨hp, hb, he⟩ := ih (performTask n w e).1
    cases e with
    | publish e => exact ⟨hp, hb, congrArg (e :: ·) he⟩
    | call s => exact ⟨hp, hb, he⟩
    | finish g session =>
      refine ⟨hp, hb, ?_⟩
      have quiet : eventsAmong (performTask n w (.finish g session)).2 = [] :=
        events_withPool w _ _
      simp only [perform, eventsAmong, List.filterMap_append]
      rw [← eventsAmong, ← eventsAmong, quiet]
      exact he

theorem performMonitor_eq (w : World) (n : Nat) (es : List Monitor.Effect) :
    (perform (performMonitor n) w es).1.pool = w.pool ∧
      (perform (performMonitor n) w es).1.buyers = w.buyers ∧
      eventsAmong (perform (performMonitor n) w es).2 = Monitor.eventsIn es := by
  induction es generalizing w with
  | nil => exact ⟨rfl, rfl, rfl⟩
  | cons e es ih =>
    obtain ⟨hp, hb, he⟩ := ih (performMonitor n w e).1
    cases e with
    | publish e => exact ⟨hp, hb, congrArg (e :: ·) he⟩
    | feed | warm | check => exact ⟨hp, hb, he⟩

/-- The pool and the tasks are as they were, and nothing is said of accounts. -/
structure Still (w w' : World) (seen : List Happening) : Prop where
  pool : w'.pool = w.pool
  buyers : w'.buyers = w.buyers
  auths : authsAmong seen = []

theorem still_leaveFeed (w : World) (n : Nat) : Still w (w.leaveFeed n).1 (w.leaveFeed n).2 := by
  refine ⟨rfl, rfl, ?_⟩
  unfold leaveFeed
  dsimp only
  split <;> rfl

theorem still_of_stepMonitor {s : Monitor.Signal} (h : w.stepMonitor n s = some (w', seen)) :
    Still w w' seen := by
  obtain ⟨m, hm, h⟩ := Option.bind_eq_some_iff.1 h
  obtain ⟨⟨m', es⟩, acts, h⟩ := Option.bind_eq_some_iff.1 h
  obtain ⟨hp, hb, he⟩ := performMonitor_eq { w with monitors := w.monitors.put n m' } n es
  have auths := congrArg (List.filterMap Event.auth?) he
  rw [(Monitor.does_of_next? acts).auths, ← authsAmong] at auths
  dsimp only at h
  split at h
  · obtain ⟨rfl, rfl⟩ := Prod.ext_iff.1 (Option.some.inj h)
    refine ⟨hp, hb, ?_⟩
    rw [authsAmong_append, authsAmong_append, auths, (still_leaveFeed _ n).auths]
    rfl
  · obtain ⟨rfl, rfl⟩ := Prod.ext_iff.1 (Option.some.inj h)
    exact ⟨hp, hb, auths⟩

/-- Flags are raised, and only those of the activities in the list. -/
structure Raised (w w' : World) (as : List Activity) : Prop where
  pool : w'.pool = w.pool
  feeds : w'.feeds = w.feeds
  buyerKeys : w'.buyers.keys = w.buyers.keys
  monitorKeys : w'.monitors.keys = w.monitors.keys
  buyers : ∀ k, w'.buyers.get? k =
    if .task k ∈ as then (w.buyers.get? k).map fun b => { b with task := b.task.stop }
    else w.buyers.get? k
  monitors : ∀ n, w'.monitors.get? n =
    if .monitor n ∈ as then (w.monitors.get? n).map Monitor.stop else w.monitors.get? n

theorem raised_raise (w : World) (a : Activity) : Raised w (w.raise a) [a] := by
  cases a with
  | monitor m =>
    refine ⟨rfl, rfl, rfl, Table.keys_modify w.monitors m _, fun k => by simp [raise], fun n => ?_⟩
    simp [raise, Table.get?_modify, eq_comm]
  | task m =>
    refine ⟨rfl, rfl, by simp only [raise, Table.keys_modify], rfl, fun k => ?_,
      fun n => by simp [raise]⟩
    simp [raise, Table.get?_modify, eq_comm]

/-- A flag that is raised twice is raised. -/
theorem Raised.trans {w'' : World} {as bs : List Activity} (h : Raised w w' as)
    (h' : Raised w' w'' bs) : Raised w w'' (as ++ bs) where
  pool := h'.pool.trans h.pool
  feeds := h'.feeds.trans h.feeds
  buyerKeys := h'.buyerKeys.trans h.buyerKeys
  monitorKeys := h'.monitorKeys.trans h.monitorKeys
  buyers k := by
    rw [h'.buyers, h.buyers]
    by_cases first : Activity.task k ∈ as
    · cases w.buyers.get? k <;> simp [first, Task.stop]
    · simp [first]
  monitors n := by
    rw [h'.monitors, h.monitors]
    by_cases first : Activity.monitor n ∈ as
    · cases w.monitors.get? n <;> simp [first, Monitor.stop]
    · simp [first]

/-- A stop raises the flags of those that it reaches. -/
theorem raised_stop (w : World) (as : List Activity) : Raised w (w.stop as).1 as := by
  induction as generalizing w with
  | nil => exact ⟨rfl, rfl, rfl, rfl, fun k => by simp [stop], fun n => by simp [stop]⟩
  | cons a as ih => exact (raised_raise w a).trans (ih (w.raise a))

theorem Raised.tasks {as : List Activity} (h : Raised w w' as) (n : Nat) :
    w'.task? n = if .task n ∈ as then (w.task? n).map Task.stop else w.task? n := by
  rw [task?, task?, h.buyers]
  split
  · rw [Option.map_map, Option.map_map]
    rfl
  · rfl

/-- What a move brings to a task from the pool; only an election changes the pool. -/
inductive Brings (p : Pool) (t : Task) : Task.Signal → Pool → Prop
  | elected {k : AccountKey} (account : t.account? = some k) :
    Brings p t (.elected (p.claim k).1) (p.claim k).2
  | looked {k : AccountKey} (account : t.account? = some k) : Brings p t (.looked (p.look k)) p
  | other {i : Task.Signal} (unelected : ∀ c, i ≠ .elected c) (unlooked : ∀ l, i ≠ .looked l) :
    Brings p t i p

theorem brings_of_signal? {b : Buyer} {m : TaskMove} {i : Task.Signal} {p : Pool} {watch : Watch}
    (h : w.signal? b m = some (i, p, watch)) : Brings w.pool b.task i p := by
  cases m with
  | elect =>
    obtain ⟨k, hk, h⟩ := Option.bind_eq_some_iff.1 h
    obtain ⟨rfl, h⟩ := Prod.ext_iff.1 (Option.some.inj h)
    obtain ⟨rfl, -⟩ := Prod.ext_iff.1 h
    exact .elected hk
  | look =>
    obtain ⟨k, hk, h⟩ := Option.bind_eq_some_iff.1 h
    obtain ⟨rfl, h⟩ := Prod.ext_iff.1 (Option.some.inj h)
    obtain ⟨rfl, -⟩ := Prod.ext_iff.1 h
    exact .looked hk
  | _ =>
    obtain ⟨rfl, h⟩ := Prod.ext_iff.1 (Option.some.inj h)
    obtain ⟨rfl, -⟩ := Prod.ext_iff.1 h
    exact .other nofun nofun

/-- One task acts, and the others rest. -/
structure Turn (w : World) (n : Nat) (w' : World) (seen : List Happening) (t u : Task)
    (i : Task.Signal) (es : List Task.Effect) (p : Pool) : Prop where
  task : w.task? n = some t
  acts : t.next? i = some (u, es)
  brings : Brings w.pool t i p
  pool : w'.pool = p.finishAll (Task.finishesIn es)
  tasks : ∀ m, w'.task? m = if n = m then some u else w.task? m
  keys : w'.buyers.keys = w.buyers.keys
  events : eventsAmong seen = Task.eventsIn es

theorem turn_of_stepTask {m : TaskMove} (h : w.stepTask n m = some (w', seen)) :
    ∃ t u i es p, Turn w n w' seen t u i es p := by
  obtain ⟨b, hb, h⟩ := Option.bind_eq_some_iff.1 h
  obtain ⟨⟨i, p, watch⟩, hi, h⟩ := Option.bind_eq_some_iff.1 h
  obtain ⟨⟨u, es⟩, acts, h⟩ := Option.bind_eq_some_iff.1 h
  refine ⟨b.task, u, i, es, p, ?_⟩
  obtain ⟨hp, hbs, he⟩ := performTask_eq
    { w with pool := p, buyers := w.buyers.put n { b with task := u, watch } } n es
  obtain ⟨rfl, rfl⟩ := Prod.ext_iff.1 (Option.some.inj h)
  have known : n ∈ w.buyers.keys := (Table.mem_keys_iff ..).2 (by rw [hb]; rfl)
  refine ⟨by simp [task?, hb], acts, brings_of_signal? hi, hp, fun m => ?_, ?_, ?_⟩
  · simp only [task?, hbs, Table.get?_put]
    split <;> rfl
  · simp only [hbs, Table.keys_put, if_pos known]
  · rw [← he]
    dsimp only
    split
    · simp [eventsAmong, Happening.event?]
    · rfl

end

/-- What a step of a task does to the pool and to the task's claim, and what it tells.
A task claims or takes over only what it finds at its account, and only while its
flag is not raised. -/
inductive Trade (p : Pool) (t : Task) : Pool → Task → List Event → Prop
  | pass {u : Task} {events : List Event} (guard : u.guard = t.guard)
    (auths : events.filterMap Event.auth? = [])
    (sessionless : ¬ (t.phase.inLogin = true ∧ u.phase = .awaitingWave))
    (onward : u.phase.early = true → t.phase.early = true)
    (owner : u.phase.logsIn = t.phase.logsIn) : Trade p t p u events
  | claim {k : AccountKey} {u : Task} (account : t.account? = some k)
    (vacant : p.entryAt? k = none) (flag : t.stopping = false) (phase : t.phase = .electing)
    (guard : u.guard = some ⟨k, p.nextTicket⟩) (login : u.phase = .entering .login) :
    Trade p t (p.claim k).2 u []
  | adopt {k : AccountKey} {v : Session} {u : Task} {events : List Event}
    (account : t.account? = some k) (found : p.entryAt? k = some (.ready v))
    (flag : t.stopping = false) (login : t.phase.inLogin = true) (owns : t.guard = none)
    (guard : u.guard = none) (auths : events.filterMap Event.auth? = [t.auth .adopted])
    (phase : u.phase = .awaitingWave) (session : u.state.session = some v) : Trade p t p u events
  | share {g : Guard} {v : Session} {u : Task} {events : List Event}
    (login : t.phase.inLogin = true) (owns : t.guard = some g) (guard : u.guard = none)
    (auths : events.filterMap Event.auth? = [t.auth .loggedIn])
    (phase : u.phase = .awaitingWave) (session : u.state.session = some v) :
    Trade p t (p.finish g (some v)).1 u events
  | giveUp {g : Guard} {u : Task} {events : List Event} (failed : Bool) (owns : t.guard = some g)
    (guard : u.guard = none)
    (auths : events.filterMap Event.auth? = if failed then [t.auth .failed] else [])
    (fails : events.any (Event.fails t.context.taskId) = failed)
    (phase : u.phase = .ended ∨ (u.phase = .crashed ∧ failed = false)) :
    Trade p t (p.finish g none).1 u events

section
variable {w w' : World} {n : Nat} {seen : List Happening} {t u : Task} {i : Task.Signal}
  {es : List Task.Effect} {p : Pool}

theorem Brings.unchanged (h : Brings w.pool t i p) (unelected : ∀ g, i ≠ .elected (.claimed g)) :
    p = w.pool := by
  cases h with
  | elected => exact (Pool.claim_other fun g hg => unelected g (congrArg _ hg)).1
  | looked | other => rfl

theorem Turn.trade (h : Turn w n w' seen t u i es p) (sound : t.Sound) :
    Trade w.pool t w'.pool u (eventsAmong seen) := by
  rw [h.events, h.pool]
  have brings := h.brings
  cases (Task.does_of_next? h.acts).dealing sound with
  | pass unelected guard finishes auths sessionless onward owner =>
    rw [finishes, brings.unchanged unelected]
    refine .pass guard auths sessionless (fun early => ?_) owner
    -- No step leads back to the beginning.
    have begun := (Task.does_of_next? h.acts).begun
    simp only [Task.Phase.early, Bool.or_eq_true, beq_iff_eq, begun, false_or] at early
    rcases onward early with login | ⟨fresh, -⟩
    · exact Task.Phase.early_of_inLogin login
    · rw [fresh]
      rfl
  | @claim g elected phase flag guard silent login =>
    subst silent
    cases brings with
    | @elected k account =>
      obtain ⟨vacant, rfl⟩ := Pool.claim_granted (Task.Signal.elected.inj elected)
      exact .claim account vacant flag phase guard login
    | looked => contradiction
    | other unelected => exact absurd elected (unelected _)
  | @adopt v found login owns flag guard finishes auths phase session =>
    rw [finishes]
    cases brings with
    | @elected k account =>
      have found := found.resolve_right nofun
      have found : (w.pool.claim k).1 = .materialized v := Task.Signal.elected.inj found
      obtain ⟨same, ready⟩ := Pool.claim_other (p := w.pool) (k := k) (by rw [found]; nofun)
      rw [same]
      exact .adopt account (ready v found) flag login owns guard auths phase session
    | @looked k account =>
      have found := Task.Signal.looked.inj (found.resolve_left nofun)
      exact .adopt account (Pool.look_ready found) flag login owns guard auths phase session
    | other unelected unlooked =>
      rcases found with found | found
      · exact absurd found (unelected _)
      · exact absurd found (unlooked _)
  | share unelected login owns guard finishes auths phase session =>
    rw [finishes, brings.unchanged unelected]
    exact .share login owns guard auths phase session
  | giveUp failed unelected owns guard finishes auths fails phase =>
    rw [finishes, brings.unchanged unelected]
    exact .giveUp failed owns guard auths fails phase

/-- What a task tells of its account is what its login comes to. -/
theorem Trade.told {p' : Pool} {events : List Event} (h : Trade p t p' u events) (sound : t.Sound) :
    events.filterMap Event.auth? = (t.outcome? u events).toList.map t.auth := by
  cases h with
  | pass guard auths sessionless onward owner =>
    have gained : t.gained? u = none :=
      Task.gained?_eq_none fun login phase => sessionless ⟨login, phase⟩
    have unfailed : ¬ (t.guard.isSome = true ∧ u.phase = .ended) := by
      intro fails
      obtain ⟨owns, phase⟩ := fails
      rw [sound.guard, ← owner, phase] at owns
      contradiction
    have none : t.outcome? u events = none := by
      rw [Task.outcome?, gained, Option.isSome_none, if_neg Bool.false_ne_true]
      exact if_neg fun fails => unfailed ⟨fails.1, fails.2.1⟩
    rw [auths, none]
    rfl
  | claim account vacant flag phase guard login =>
    have gained : t.gained? u = none := Task.gained?_eq_none fun _ phase => by simp [login] at phase
    simp [Task.outcome?, gained, login]
  | adopt account found flag login owns guard auths phase session =>
    have gained := Task.gained?_eq_some login phase session
    rw [auths, Task.outcome?, gained, owns]
    rfl
  | share login owns guard auths phase session =>
    have gained := Task.gained?_eq_some login phase session
    rw [auths, Task.outcome?, gained, owns]
    rfl
  | giveUp failed owns guard auths fails phase =>
    have gained : t.gained? u = none := by
      refine Task.gained?_eq_none fun _ wave => ?_
      rw [wave] at phase
      simp at phase
    rw [auths, Task.outcome?, gained, owns, fails]
    rcases phase with phase | ⟨phase, rfl⟩
    · cases failed <;> simp [phase]
    · simp [phase]

theorem Trade.early {p' : Pool} {events : List Event} (h : Trade p t p' u events)
    (early : u.phase.early = true) : t.phase.early = true := by
  cases h with
  | pass _ _ _ onward => exact onward early
  | claim _ _ _ phase =>
    rw [phase]
    rfl
  | adopt _ _ _ login | share login => exact Task.Phase.early_of_inLogin login
  | giveUp _ _ _ _ _ phase =>
    rcases phase with phase | ⟨phase, -⟩ <;> rw [phase] at early <;> contradiction

end

end World

end Restock
