import Restock.Proofs.Monitor.RisingEdge
import Restock.Proofs.Task.Product
import Restock.Proofs.World.Tasks

/-! The feeds of a world.

What matters to a task of a world is the feed that it watches, and who may act. A
step of a world, whatever it is, puts waves at the end of what the feeds have got
and lets every task rest, raises its flag or lets it act; or it makes a new task,
which watches from there on (`Serves`). `World.take?` is a world as a machine in
which anybody who holds a feed may publish, and anything may happen to the bus and
the pool in between. -/
namespace Restock

namespace Happening

/-- The wave that goes to a feed. -/
def wave? (n : Nat) : Happening → Option Wave
  | .fed m v => if m = n then some v else none
  | _ => none

/-- The step that a task calls its driver for. -/
def call? (k : Nat) : Happening → Option Step
  | .calling m s => if m = k then some s else none
  | _ => none

end Happening

/-- The waves that go to a feed, in order. -/
def wavesAmong (n : Nat) (seen : List Happening) : List Wave := seen.filterMap (Happening.wave? n)

/-- The calls of a task, in order. -/
def callsAmong (k : Nat) (seen : List Happening) : List Step := seen.filterMap (Happening.call? k)

theorem wavesAmong_append (n : Nat) (seen more : List Happening) :
    wavesAmong n (seen ++ more) = wavesAmong n seen ++ wavesAmong n more := List.filterMap_append

theorem callsAmong_append (k : Nat) (seen more : List Happening) :
    callsAmong k (seen ++ more) = callsAmong k seen ++ callsAmong k more := List.filterMap_append

namespace Feed

variable {α : Type}

def publishAll (f : Feed α) (vs : List α) : Feed α := vs.foldl publish f

theorem version_publishAll (f : Feed α) (vs : List α) :
    (f.publishAll vs).version = f.version + vs.length := by
  induction vs generalizing f with
  | nil => rfl
  | cons v vs ih =>
    show ((f.publish v).publishAll vs).version = _
    rw [ih, List.length_cons]
    show f.version + 1 + vs.length = _
    omega

theorem latest_publishAll (f : Feed α) (vs : List α) :
    (f.publishAll vs).latest = vs.getLast?.or f.latest := by
  induction vs generalizing f with
  | nil => rfl
  | cons v vs ih =>
    show ((f.publish v).publishAll vs).latest = _
    rw [ih, List.getLast?_cons]
    cases vs.getLast? <;> rfl

end Feed

namespace World

/-- Feeds have places too; every task watches one of them, and every monitor sits at one. -/
structure Laid (w : World) : Prop where
  placed : w.Placed
  opened : w.feeds.keys = List.range w.feeds.length
  watched : ∀ k b, w.buyers.get? k = some b → b.feed ∈ w.feeds.keys
  manned : ∀ n ∈ w.monitors.keys, n ∈ w.feeds.keys

/-- Nobody acts and nothing is published; there may be new feeds and new tasks. -/
structure Grows (w w' : World) : Prop where
  laid : w'.Laid
  feeds : ∀ n f, w.feeds.get? n = some f →
    ∃ f', w'.feeds.get? n = some f' ∧ f'.version = f.version ∧ f'.latest = f.latest
  buyers : ∀ k, w'.buyers.get? k = w.buyers.get? k ∨
    (w.buyers.get? k = none ∧ ∃ c d n f, w'.feeds.get? n = some f ∧
      w'.buyers.get? k = some ⟨.new c d, n, f.subscribe⟩)

/-- What a task finds in the feed with a signal, and how its watch stands then. -/
inductive Reads (w : World) (b : Buyer) : Task.Signal → Watch → Prop
  | takes : Reads w b (.fed ((w.feed b.feed).next b.watch).1) ((w.feed b.feed).next b.watch).2
  | other {i : Task.Signal} (unfed : ∀ next, i ≠ .fed next) : Reads w b i b.watch

/-- What becomes of a place among the tasks, and the calls that the task makes. -/
inductive Fate (w w' : World) (seen : List Happening) (k : Nat) :
    Option Buyer → Option Buyer → Prop
  | rests (b : Option Buyer) (silent : callsAmong k seen = []) : Fate w w' seen k b b
  | stopped (b : Buyer) (silent : callsAmong k seen = []) :
    Fate w w' seen k (some b) (some { b with task := b.task.stop })
  | joins (c : TaskContext) (d : Decider) {n : Nat} {f : Feed Wave}
    (feed : w'.feeds.get? n = some f) (silent : callsAmong k seen = []) :
    Fate w w' seen k none (some ⟨.new c d, n, f.subscribe⟩)
  | acts {b : Buyer} {i : Task.Signal} {u : Task} {es : List Task.Effect} {watch : Watch}
    (acts : b.task.next? i = some (u, es)) (reads : Reads w b i watch)
    (quiet : ∀ n, wavesAmong n seen = [])
    (calls : callsAmong k seen = Task.callsIn es) :
    Fate w w' seen k (some b) (some ⟨u, b.feed, watch⟩)

/-- What a step does to the feeds and the tasks. -/
structure Serves (w w' : World) (seen : List Happening) : Prop where
  laid : w'.Laid
  feeds : ∀ n f, w.feeds.get? n = some f → ∃ f', w'.feeds.get? n = some f' ∧
    f'.version = f.version + (wavesAmong n seen).length ∧
    f'.latest = (wavesAmong n seen).getLast?.or f.latest
  products : ∀ n, ∀ v ∈ wavesAmong n seen, v.products ≠ []
  /-- Only a feed that is there gets waves. -/
  unopened : ∀ n, w.feeds.get? n = none → wavesAmong n seen = []
  buyers : ∀ k, Fate w w' seen k (w.buyers.get? k) (w'.buyers.get? k)

section
variable {w w' w'' : World} {n k : Nat} {seen : List Happening}

/-! ### Places -/

theorem laid_new (capacity : Nat) : (new capacity).Laid :=
  ⟨rfl, rfl, fun k b hb => absurd hb (by simp [new]), fun n hn => absurd hn List.not_mem_nil⟩

theorem length_feeds (w : World) : w.feeds.keys.length = w.feeds.length := List.length_map ..

theorem Laid.of_keys (laid : w.Laid) (buyers : w'.buyers.keys = w.buyers.keys)
    (feeds : w'.feeds.keys = w.feeds.keys)
    (monitors : ∀ n ∈ w'.monitors.keys, n ∈ w.feeds.keys)
    (same : ∀ k b, w'.buyers.get? k = some b → ∃ b', w.buyers.get? k = some b' ∧ b'.feed = b.feed) :
    w'.Laid := by
  refine ⟨laid.placed.congr buyers, ?_, fun k b hb => ?_, fun n hn => feeds ▸ monitors n hn⟩
  · rw [feeds, laid.opened, ← length_feeds w, ← length_feeds w', feeds]
  · obtain ⟨b', hb', feed⟩ := same k b hb
    rw [feeds, ← feed]
    exact laid.watched k b' hb'

/-! ### Growth -/

theorem Grows.refl (laid : w.Laid) : Grows w w :=
  ⟨laid, fun _ f hf => ⟨f, hf, rfl, rfl⟩, fun _ => .inl rfl⟩

theorem Grows.trans (h : Grows w w') (h' : Grows w' w'') : Grows w w'' := by
  refine ⟨h'.laid, fun n f hf => ?_, fun k => ?_⟩
  · obtain ⟨f', hf', version, latest⟩ := h.feeds n f hf
    obtain ⟨f'', hf'', version', latest'⟩ := h'.feeds n f' hf'
    exact ⟨f'', hf'', version'.trans version, latest'.trans latest⟩
  · rcases h.buyers k with same | ⟨absent, c, d, n, f, feed, joined⟩
    · rw [← same]
      exact h'.buyers k
    · rcases h'.buyers k with same | ⟨gone, -⟩
      · obtain ⟨f', feed', version, -⟩ := h'.feeds n f feed
        refine .inr ⟨absent, c, d, n, f', feed', ?_⟩
        rw [same, joined, Feed.subscribe, Feed.subscribe, version]
      · rw [joined] at gone
        contradiction

/-- A feed may get or lose holders. -/
theorem grows_holders (laid : w.Laid) {f : Feed Wave → Feed Wave} (buyers : w'.buyers = w.buyers)
    (feeds : w'.feeds = w.feeds.modify n f) (monitors : ∀ m ∈ w'.monitors.keys, m ∈ w.feeds.keys)
    (keeps : ∀ x, (f x).version = x.version ∧ (f x).latest = x.latest) : Grows w w' := by
  refine ⟨laid.of_keys (by rw [buyers]) (by rw [feeds, Table.keys_modify]) monitors fun k b hb => ?_,
    fun m x hx => ?_, fun k => .inl (by rw [buyers])⟩
  · exact ⟨b, buyers ▸ hb, rfl⟩
  · rw [feeds, Table.get?_modify, hx]
    split
    · exact ⟨f x, rfl, keeps x⟩
    · exact ⟨x, rfl, rfl, rfl⟩

theorem grows_aside (laid : w.Laid) (buyers : w'.buyers = w.buyers) (feeds : w'.feeds = w.feeds)
    (monitors : w'.monitors = w.monitors) : Grows w w' :=
  ⟨laid.of_keys (by rw [buyers]) (by rw [feeds]) (monitors ▸ laid.manned) fun k b hb => ⟨b, buyers ▸ hb, rfl⟩,
    fun n f hf => ⟨f, feeds ▸ hf, rfl, rfl⟩, fun k => .inl (by rw [buyers])⟩

theorem grows_leaveFeed (laid : w.Laid) (n : Nat) : Grows w (w.leaveFeed n).1 :=
  grows_holders (f := Feed.leave) (n := n) laid rfl rfl laid.manned fun _ => ⟨rfl, rfl⟩

theorem grows_addMonitor (laid : w.Laid) (m : Monitor) {f : Feed Wave}
    (feed : w.feeds.get? n = some f) : Grows w (w.addMonitor n m) := by
  have known : n ∈ w.feeds.keys := (Table.mem_keys_iff ..).2 (by rw [feed]; rfl)
  refine grows_holders (f := Feed.share) (n := n) laid rfl rfl (fun l hl => ?_) fun _ => ⟨rfl, rfl⟩
  have hl : l ∈ (w.monitors.put n m).keys := hl
  rw [Table.mem_keys_iff, Table.get?_put] at hl
  split at hl
  · next same => exact same ▸ known
  · exact laid.manned l ((Table.mem_keys_iff ..).2 hl)

theorem grows_openFeed (laid : w.Laid) :
    Grows w w.openFeed.2 ∧ w.openFeed.2.feeds.get? w.openFeed.1 = some .new := by
  have new : w.feeds.length ∉ w.feeds.keys := by
    rw [laid.opened]
    simp
  have keys : w.openFeed.2.feeds.keys = w.feeds.keys ++ [w.feeds.length] := by
    simp only [openFeed, Table.keys_put, if_neg new]
  refine ⟨⟨⟨laid.placed, ?_, fun k b hb => ?_, fun n hn => ?_⟩, fun n f hf => ⟨f, ?_, rfl, rfl⟩,
    fun k => .inl rfl⟩, ?_⟩
  · rw [← length_feeds, keys, List.length_append, length_feeds, laid.opened]
    exact List.range_succ.symm
  · rw [keys]
    exact List.mem_append_left _ (laid.watched k b hb)
  · rw [keys]
    exact List.mem_append_left _ (laid.manned n hn)
  · have known : n ∈ w.feeds.keys := (Table.mem_keys_iff ..).2 (by rw [hf]; rfl)
    refine (Table.get?_put ..).trans ((if_neg fun same => ?_).trans hf)
    exact new (same ▸ known)
  · exact Table.get?_put_self ..

/-- A new task watches from the wave that its feed has. -/
theorem grows_addTask (laid : w.Laid) (c : TaskContext) (d : Decider) {f : Feed Wave}
    (feed : w.feeds.get? n = some f) : Grows w (w.addTask (.new c d) n).2 := by
  have shown : ∀ k, (w.addTask (.new c d) n).2.buyers.get? k =
      if w.buyers.length = k then some ⟨.new c d, n, f.subscribe⟩ else w.buyers.get? k := by
    intro k
    have subscribed : (w.feed n).subscribe = f.subscribe := by rw [World.feed, feed]; rfl
    rw [← subscribed]
    exact Table.get?_put ..
  refine ⟨⟨(addTask_eq laid.placed _ n).1, laid.opened, fun k b hb => ?_, laid.manned⟩,
    fun m x hx => ⟨x, hx, rfl, rfl⟩, fun k => ?_⟩
  · rw [shown] at hb
    split at hb
    · obtain rfl := Option.some.inj hb
      have known : n ∈ w.feeds.keys := (Table.mem_keys_iff ..).2 (by rw [feed]; rfl)
      exact known
    · exact laid.watched k b hb
  · rw [shown]
    split
    · next hk =>
      subst hk
      refine .inr ⟨Option.not_isSome_iff_eq_none.1 fun taken => ?_, c, d, n, f, feed, rfl⟩
      have known := (Table.mem_keys_iff ..).2 taken
      rw [laid.placed] at known
      simp at known
    · exact .inl rfl

theorem Grows.serves (h : Grows w w') (quiet : ∀ n, wavesAmong n seen = [])
    (silent : ∀ k, callsAmong k seen = []) : Serves w w' seen := by
  refine ⟨h.laid, fun n f hf => ?_, fun n v hv => ?_, fun n _ => quiet n, fun k => ?_⟩
  · obtain ⟨f', hf', version, latest⟩ := h.feeds n f hf
    refine ⟨f', hf', ?_, ?_⟩
    · rw [version, quiet]
      rfl
    · rw [latest, quiet]
      rfl
  · rw [quiet] at hv
    contradiction
  · rcases h.buyers k with same | ⟨absent, c, d, n, f, feed, joined⟩
    · rw [same]
      exact .rests _ (silent k)
    · rw [absent, joined]
      exact .joins c d feed (silent k)

theorem Fate.grows {more : List Happening} {before after after' : Option Buyer}
    (fate : Fate w w' seen k before after) (h : Grows w' w'')
    (later : after' = after ∨ (after = none ∧ ∃ c d n f, w''.feeds.get? n = some f ∧
      after' = some ⟨.new c d, n, f.subscribe⟩))
    (waves : ∀ n, wavesAmong n more = wavesAmong n seen)
    (calls : callsAmong k more = callsAmong k seen) : Fate w w'' more k before after' := by
  rcases later with rfl | ⟨rfl, c, d, n, f, feed, rfl⟩
  · cases fate with
    | rests b silent => exact .rests _ (calls.trans silent)
    | stopped b silent => exact .stopped b (calls.trans silent)
    | joins c d feed silent =>
      obtain ⟨f', feed', version, -⟩ := h.feeds _ _ feed
      have watch : Feed.subscribe _ = f'.subscribe := congrArg Watch.mk version.symm
      rw [watch]
      exact .joins c d feed' (calls.trans silent)
    | acts acts reads quiet made =>
      exact .acts acts reads (fun n => (waves n).trans (quiet n)) (calls.trans made)
  · cases fate with
    | rests b silent => exact .joins c d feed (calls.trans silent)

/-- What comes after the waves of a step. -/
theorem Serves.grows {more : List Happening} (h : Serves w w' seen) (h' : Grows w' w'')
    (quiet : ∀ n, wavesAmong n more = []) (silent : ∀ k, callsAmong k more = []) :
    Serves w w'' (seen ++ more) := by
  have waves : ∀ n, wavesAmong n (seen ++ more) = wavesAmong n seen := by
    intro n
    rw [wavesAmong_append, quiet, List.append_nil]
  have calls : ∀ k, callsAmong k (seen ++ more) = callsAmong k seen := by
    intro k
    rw [callsAmong_append, silent, List.append_nil]
  refine ⟨h'.laid, fun n f hf => ?_, fun n => by rw [waves]; exact h.products n,
    fun n => by rw [waves]; exact h.unopened n,
    fun k => (h.buyers k).grows h' (h'.buyers k) waves (calls k)⟩
  obtain ⟨f', hf', version, latest⟩ := h.feeds n f hf
  obtain ⟨f'', hf'', version', latest'⟩ := h'.feeds n f' hf'
  rw [waves]
  exact ⟨f'', hf'', version'.trans version, latest'.trans latest⟩

/-! ### Stops and steps -/

theorem serves_stop (laid : w.Laid) (as : List Activity) : Serves w (w.stop as).1 [.stopped as] := by
  have raised := w.raised_stop as
  refine ⟨laid.of_keys raised.buyerKeys (by rw [raised.feeds]) (raised.monitorKeys ▸ laid.manned)
      fun k b hb => ?_,
    fun n f hf => ⟨f, raised.feeds ▸ hf, rfl, rfl⟩, fun n v hv => absurd hv List.not_mem_nil,
    fun n _ => rfl, fun k => ?_⟩
  · rw [raised.buyers] at hb
    split at hb
    · obtain ⟨b', before, rfl⟩ := Option.map_eq_some_iff.1 hb
      exact ⟨b', before, rfl⟩
    · exact ⟨b, hb, rfl⟩
  · rw [raised.buyers]
    split
    · cases w.buyers.get? k with
      | none => exact .rests _ rfl
      | some b => exact .stopped b rfl
    · exact .rests _ rfl

/-- A monitor feeds its own feed, and calls no driver. -/
theorem performMonitor_feeds (w : World) (n : Nat) (es : List Monitor.Effect) :
    (perform (performMonitor n) w es).1.feeds.keys = w.feeds.keys ∧
      (perform (performMonitor n) w es).1.monitors = w.monitors ∧
      (∀ m, (perform (performMonitor n) w es).1.feeds.get? m =
        if n = m then (w.feeds.get? m).map (Feed.publishAll · (es.filterMap Monitor.Effect.fed?))
        else w.feeds.get? m) ∧
      (∀ m, wavesAmong m (perform (performMonitor n) w es).2 =
        if n = m then es.filterMap Monitor.Effect.fed? else []) ∧
      ∀ k, callsAmong k (perform (performMonitor n) w es).2 = [] := by
  induction es generalizing w with
  | nil =>
    refine ⟨rfl, rfl, fun m => ?_, fun m => (ite_self _).symm, fun k => rfl⟩
    show w.feeds.get? m = if n = m then (w.feeds.get? m).map id else w.feeds.get? m
    rw [Option.map_id, id, ite_self]
  | cons e es ih =>
    obtain ⟨keys, monitors, feeds, waves, calls⟩ := ih (performMonitor n w e).1
    cases e with
    | publish | warm | check => exact ⟨keys, monitors, feeds, waves, calls⟩
    | feed v =>
      refine ⟨keys.trans (Table.keys_modify w.feeds n (·.publish v)), monitors, fun m => ?_,
        fun m => ?_, calls⟩
      · refine (feeds m).trans ?_
        simp only [performMonitor, feedWave, Table.get?_modify]
        split
        · rw [Option.map_map]
          rfl
        · rfl
      · show wavesAmong m ([.fed n v] ++
          (perform (performMonitor n) (performMonitor n w (.feed v)).1 es).2) = _
        rw [wavesAmong_append, waves]
        by_cases same : n = m
        · simp [wavesAmong, Happening.wave?, Monitor.Effect.fed?, same]
        · simp [wavesAmong, Happening.wave?, same]

theorem quiet_withPool (w : World) (p : Pool) (changed : Bool) :
    (∀ n, wavesAmong n (w.withPool p changed).2 = []) ∧
      ∀ k, callsAmong k (w.withPool p changed).2 = [] := by
  cases changed <;> exact ⟨fun n => rfl, fun k => rfl⟩

/-- A task feeds no feed. -/
theorem performTask_feeds (w : World) (k : Nat) (es : List Task.Effect) :
    (perform (performTask k) w es).1.feeds = w.feeds ∧
      (perform (performTask k) w es).1.monitors = w.monitors ∧
      (∀ n, wavesAmong n (perform (performTask k) w es).2 = []) ∧
      ∀ m, callsAmong m (perform (performTask k) w es).2 =
        if k = m then Task.callsIn es else [] := by
  induction es generalizing w with
  | nil => exact ⟨rfl, rfl, fun n => rfl, fun m => (ite_self _).symm⟩
  | cons e es ih =>
    obtain ⟨feeds, monitors, waves, calls⟩ := ih (performTask k w e).1
    cases e with
    | publish => exact ⟨feeds, monitors, waves, calls⟩
    | finish g session =>
      have quiet : (∀ n, wavesAmong n (performTask k w (.finish g session)).2 = []) ∧
          ∀ m, callsAmong m (performTask k w (.finish g session)).2 = [] := quiet_withPool w _ _
      refine ⟨feeds, monitors, fun n => ?_, fun m => ?_⟩
      · show wavesAmong n ((performTask k w (.finish g session)).2 ++
          (perform (performTask k) (performTask k w (.finish g session)).1 es).2) = _
        rw [wavesAmong_append, quiet.1, waves]
        rfl
      · show callsAmong m ((performTask k w (.finish g session)).2 ++
          (perform (performTask k) (performTask k w (.finish g session)).1 es).2) = _
        rw [callsAmong_append, quiet.2, calls]
        rfl
    | call s =>
      refine ⟨feeds, monitors, waves, fun m => ?_⟩
      show callsAmong m ([.calling k s] ++
        (perform (performTask k) (performTask k w (.call s)).1 es).2) = _
      rw [callsAmong_append, calls]
      by_cases same : k = m
      · simp [callsAmong, Happening.call?, Task.callsIn, Task.Effect.call?, same]
      · simp [callsAmong, Happening.call?, same]

/-- The waves of a monitor have products. -/
theorem products_of_next? {m m' : Monitor} {i : Monitor.Signal} {es : List Monitor.Effect}
    (h : m.next? i = some (m', es)) :
    ∀ v ∈ es.filterMap Monitor.Effect.fed?, v.products ≠ [] := by
  have taken : m.take? (.signal i) = some (m', es) := h
  cases hi : Monitor.checkOf? (.signal i) with
  | none =>
    rw [(Monitor.quiet_of_take? taken hi).2.1]
    exact fun v hv => absurd hv List.not_mem_nil
  | some c =>
    obtain ⟨-, rfl⟩ := Monitor.check_of_take? taken hi
    rw [(Monitor.waves_finishCheck m c).1]
    cases m.freshOf c with
    | nil => exact fun v hv => absurd hv List.not_mem_nil
    | cons p ps =>
      intro v hv
      rw [List.mem_singleton.1 hv]
      exact List.cons_ne_nil p ps

theorem quiet_leaveFeed (w : World) (n : Nat) :
    (∀ m, wavesAmong m (w.leaveFeed n).2 = []) ∧ ∀ k, callsAmong k (w.leaveFeed n).2 = [] := by
  unfold leaveFeed
  dsimp only
  split <;> exact ⟨fun n => rfl, fun k => rfl⟩

theorem serves_of_stepMonitor (laid : w.Laid) {i : Monitor.Signal}
    (h : w.stepMonitor n i = some (w', seen)) : Serves w w' seen := by
  obtain ⟨m, hm, h⟩ := Option.bind_eq_some_iff.1 h
  obtain ⟨⟨m', es⟩, acts, h⟩ := Option.bind_eq_some_iff.1 h
  obtain ⟨-, buyers, -⟩ := performMonitor_eq { w with monitors := w.monitors.put n m' } n es
  obtain ⟨keys, monitors, feeds, waves, calls⟩ :=
    performMonitor_feeds { w with monitors := w.monitors.put n m' } n es
  have manning : ∀ k ∈ (w.monitors.put n m').keys, k ∈ w.feeds.keys := by
    have known : n ∈ w.monitors.keys := (Table.mem_keys_iff ..).2 (by rw [hm]; rfl)
    rw [Table.keys_put, if_pos known]
    exact laid.manned
  have served : Serves w (perform (performMonitor n) { w with monitors := w.monitors.put n m' } es).1
      (perform (performMonitor n) { w with monitors := w.monitors.put n m' } es).2 := by
    refine ⟨laid.of_keys (by rw [buyers]) keys (by rw [monitors]; exact manning)
        fun k b hb => ⟨b, buyers ▸ hb, rfl⟩,
      fun k f hf => ?_, fun k v hv => ?_, fun k absent => ?_, fun k => ?_⟩
    · rw [feeds, waves]
      split
      · refine ⟨_, congrArg (Option.map _) hf, ?_, ?_⟩
        · exact Feed.version_publishAll f _
        · exact Feed.latest_publishAll f _
      · exact ⟨f, hf, rfl, rfl⟩
    · rw [waves] at hv
      split at hv
      · exact products_of_next? acts v hv
      · contradiction
    · rw [waves, if_neg]
      intro same
      subst same
      have opened := laid.manned n ((Table.mem_keys_iff ..).2 (by rw [hm]; rfl))
      rw [Table.mem_keys_iff, absent] at opened
      contradiction
    · rw [buyers]
      exact .rests _ (calls k)
  dsimp only at h
  split at h
  · obtain ⟨rfl, rfl⟩ := Prod.ext_iff.1 (Option.some.inj h)
    rw [List.append_assoc]
    obtain ⟨quiet, silent⟩ := quiet_leaveFeed
      (perform (performMonitor n) { w with monitors := w.monitors.put n m' } es).1 n
    refine served.grows (grows_leaveFeed served.laid n) (fun k => ?_) fun k => ?_
    · rw [wavesAmong_append, quiet]
      rfl
    · rw [callsAmong_append, silent]
      rfl
  · obtain ⟨rfl, rfl⟩ := Prod.ext_iff.1 (Option.some.inj h)
    exact served

/-- A task reads its feed only to take a wave. -/
theorem reads_of_signal? {b : Buyer} {m : TaskMove} {i : Task.Signal} {p : Pool} {watch : Watch}
    (h : w.signal? b m = some (i, p, watch)) : Reads w b i watch := by
  cases m with
  | elect | look =>
    obtain ⟨k, -, h⟩ := Option.bind_eq_some_iff.1 h
    obtain ⟨rfl, h⟩ := Prod.ext_iff.1 (Option.some.inj h)
    obtain ⟨-, rfl⟩ := Prod.ext_iff.1 h
    exact .other fun next same => by cases same
  | take =>
    obtain ⟨rfl, h⟩ := Prod.ext_iff.1 (Option.some.inj h)
    obtain ⟨-, rfl⟩ := Prod.ext_iff.1 h
    exact .takes
  | begin | notice | proceed | reply | rest =>
    obtain ⟨rfl, h⟩ := Prod.ext_iff.1 (Option.some.inj h)
    obtain ⟨-, rfl⟩ := Prod.ext_iff.1 h
    exact .other fun next same => by cases same

theorem serves_of_stepTask (laid : w.Laid) {m : TaskMove}
    (h : w.stepTask k m = some (w', seen)) : Serves w w' seen := by
  obtain ⟨b, hb, h⟩ := Option.bind_eq_some_iff.1 h
  obtain ⟨⟨i, p, watch⟩, hi, h⟩ := Option.bind_eq_some_iff.1 h
  obtain ⟨⟨u, es⟩, acts, h⟩ := Option.bind_eq_some_iff.1 h
  obtain ⟨-, buyers, -⟩ := performTask_eq
    { w with pool := p, buyers := w.buyers.put k { b with task := u, watch } } k es
  obtain ⟨feeds, monitors, waves, calls⟩ := performTask_feeds
    { w with pool := p, buyers := w.buyers.put k { b with task := u, watch } } k es
  have known : k ∈ w.buyers.keys := (Table.mem_keys_iff ..).2 (by rw [hb]; rfl)
  have served : Serves w (perform (performTask k)
        { w with pool := p, buyers := w.buyers.put k { b with task := u, watch } } es).1
      (perform (performTask k)
        { w with pool := p, buyers := w.buyers.put k { b with task := u, watch } } es).2 := by
    refine ⟨laid.of_keys ?_ (by rw [feeds]) (by rw [monitors]; exact laid.manned) fun m c hc => ?_,
      fun n f hf => ⟨f, ?_, ?_, ?_⟩, fun n v hv => ?_, fun n _ => waves n, fun m => ?_⟩
    · rw [buyers, Table.keys_put, if_pos known]
    · rw [buyers] at hc
      rcases Table.get?_of_put hc with ⟨rfl, rfl⟩ | ⟨-, hc⟩
      · exact ⟨b, hb, rfl⟩
      · exact ⟨c, hc, rfl⟩
    · rw [feeds]
      exact hf
    · rw [waves]
      rfl
    · rw [waves]
      rfl
    · rw [waves] at hv
      contradiction
    · rw [buyers, Table.get?_put]
      split
      · next same =>
        subst same
        rw [hb]
        exact .acts acts (reads_of_signal? hi) waves ((calls k).trans (if_pos rfl))
      · next other => exact .rests _ ((calls m).trans (if_neg other))
  obtain ⟨rfl, rfl⟩ := Prod.ext_iff.1 (Option.some.inj h)
  dsimp only
  split
  · exact served.grows (.refl served.laid) (fun n => rfl) fun k => rfl
  · exact served

theorem serves_of_step? (laid : w.Laid) {m : Move} (h : w.step? m = some (w', seen)) :
    Serves w w' seen := by
  cases m with
  | monitor n i => exact serves_of_stepMonitor laid h
  | task k m => exact serves_of_stepTask laid h

end

/-! ### Worlds as machines -/

/-- What happens in a world. -/
inductive Occasion
  | act (m : Move)
  | openFeed
  /-- A holder of a feed publishes. -/
  | feed (n : Nat) (wave : Wave)
  | share (n : Nat)
  | leave (n : Nat)
  | addMonitor (n : Nat) (m : Monitor)
  | addTask (c : TaskContext) (d : Decider) (feed : Nat)
  | stop (activities : List Activity)
  /-- Others publish on the bus, subscribe to it and read from it. -/
  | bus (b : Bus Event)
  /-- Others use the pool. -/
  | pool (p : Pool)

/-- Nobody holds a closed feed, and no wave is empty. -/
def take? (w : World) : Occasion → Option (World × List Happening)
  | .act m => w.step? m
  | .openFeed => some (w.openFeed.2, [])
  | .feed n v => if (w.feed n).isClosed ∨ v.products = [] then none else some (w.feedWave n v)
  | .share n =>
    if (w.feed n).isClosed then none
    else some ({ w with feeds := w.feeds.modify n Feed.share }, [])
  | .leave n => if (w.feed n).isClosed then none else some (w.leaveFeed n)
  | .addMonitor n m => if (w.feed n).isClosed then none else some (w.addMonitor n m, [])
  | .addTask c d n =>
    if (w.feed n).isClosed then none else some ((w.addTask (.new c d) n).2, [])
  | .stop as => some (w.stop as)
  | .bus b => some ({ w with bus := b }, [])
  | .pool p => some ({ w with pool := p }, [])

/-- There is a feed where one is open. -/
theorem feed_of_open {w : World} {n : Nat} (held : ¬ (w.feed n).isClosed = true) :
    ∃ f, w.feeds.get? n = some f := by
  cases hf : w.feeds.get? n with
  | some f => exact ⟨f, rfl⟩
  | none =>
    rw [feed, hf] at held
    exact absurd rfl held

section
variable {w w' : World} {seen : List Happening}

theorem serves_feedWave (laid : w.Laid) {n : Nat} {v : Wave} {f : Feed Wave}
    (feed : w.feeds.get? n = some f) (products : v.products ≠ []) :
    Serves w (w.feedWave n v).1 (w.feedWave n v).2 := by
  have waves : ∀ m, wavesAmong m (w.feedWave n v).2 = if n = m then [v] else [] := by
    intro m
    by_cases same : n = m
    · simp [feedWave, wavesAmong, Happening.wave?, same]
    · simp [feedWave, wavesAmong, Happening.wave?, same]
  have keys : (w.feedWave n v).1.feeds.keys = w.feeds.keys :=
    Table.keys_modify w.feeds n (·.publish v)
  have feeds : ∀ m, (w.feedWave n v).1.feeds.get? m =
      if n = m then (w.feeds.get? m).map (·.publish v) else w.feeds.get? m :=
    Table.get?_modify w.feeds n (·.publish v)
  refine ⟨laid.of_keys rfl keys laid.manned fun k b hb => ⟨b, hb, rfl⟩, fun m f hf => ?_,
    fun m u hu => ?_, fun m absent => ?_, fun k => .rests _ rfl⟩
  · rw [waves, feeds, hf]
    split
    · exact ⟨f.publish v, rfl, rfl, rfl⟩
    · exact ⟨f, rfl, rfl, rfl⟩
  · rw [waves] at hu
    split at hu
    · rw [List.mem_singleton.1 hu]
      exact products
    · contradiction
  · rw [waves, if_neg]
    intro same
    subst same
    rw [feed] at absent
    contradiction

theorem serves_of_take? (laid : w.Laid) {o : Occasion} (h : w.take? o = some (w', seen)) :
    Serves w w' seen := by
  cases o with
  | act m => exact serves_of_step? laid h
  | openFeed =>
    obtain ⟨rfl, rfl⟩ := Prod.mk.inj (Option.some.inj h)
    exact (grows_openFeed laid).1.serves (fun n => rfl) fun k => rfl
  | feed n v =>
    rw [take?, Option.ite_none_left_eq_some] at h
    obtain ⟨valid, h⟩ := h
    obtain ⟨rfl, rfl⟩ := Prod.ext_iff.1 (Option.some.inj h)
    obtain ⟨f, feed⟩ := feed_of_open fun closed => valid (.inl closed)
    exact serves_feedWave laid feed fun empty => valid (.inr empty)
  | share n =>
    rw [take?, Option.ite_none_left_eq_some] at h
    obtain ⟨rfl, rfl⟩ := Prod.mk.inj (Option.some.inj h.2)
    have grown : Grows w { w with feeds := w.feeds.modify n Feed.share } :=
      grows_holders laid rfl rfl laid.manned fun x => ⟨rfl, rfl⟩
    exact grown.serves (fun n => rfl) fun k => rfl
  | leave n =>
    rw [take?, Option.ite_none_left_eq_some] at h
    obtain ⟨rfl, rfl⟩ := Prod.ext_iff.1 (Option.some.inj h.2)
    obtain ⟨quiet, silent⟩ := quiet_leaveFeed w n
    exact (grows_leaveFeed laid n).serves quiet silent
  | addMonitor n m =>
    rw [take?, Option.ite_none_left_eq_some] at h
    obtain ⟨held, h⟩ := h
    obtain ⟨rfl, rfl⟩ := Prod.mk.inj (Option.some.inj h)
    obtain ⟨f, feed⟩ := feed_of_open held
    exact (grows_addMonitor laid m feed).serves (fun n => rfl) fun k => rfl
  | addTask c d n =>
    rw [take?, Option.ite_none_left_eq_some] at h
    obtain ⟨held, h⟩ := h
    obtain ⟨rfl, rfl⟩ := Prod.mk.inj (Option.some.inj h)
    obtain ⟨f, feed⟩ := feed_of_open held
    exact (grows_addTask laid c d feed).serves (fun n => rfl) fun k => rfl
  | stop as =>
    obtain ⟨rfl, rfl⟩ := Prod.ext_iff.1 (Option.some.inj h)
    exact serves_stop laid as
  | bus b | pool p =>
    obtain ⟨rfl, rfl⟩ := Prod.mk.inj (Option.some.inj h)
    refine Grows.serves ?_ (fun n => rfl) fun k => rfl
    exact grows_aside laid rfl rfl rfl

end

end World

end Restock
