import Restock.Proofs.Bus.Endpoints
import Restock.Proofs.Supervisor.Deliveries
import Restock.Supervisor.Status

/-! Observers are not heard.

Whoever works publishes on the bus, and nobody who works reads it: on another bus every
step is the same step, and the bus gets what was published (`take?_onBus`). So the acts
of a run, whatever its observers do in between and however much their queues hold, are a
run of a supervisor whose bus nobody listens to (`acts_of_trail`), and what leads a run
without a look at the bus leads it the same way there (`observers_are_unheard`). -/
namespace Restock

namespace World

/-- The bus after some events were published. -/
def heard (b : Bus Event) (events : List Event) : Bus Event :=
  events.foldl (fun b e => (b.publish e).2) b

theorem heard_append (b : Bus Event) (events more : List Event) :
    heard b (events ++ more) = heard (heard b events) more := List.foldl_append

/-- The same world with another bus. -/
def onBus (w : World) (b : Bus Event) : World := { w with bus := b }

/-- What a step comes to on another bus. -/
def overhear (b : Bus Event) (r : World × List Happening) : World × List Happening :=
  (r.1.onBus (heard b (eventsAmong r.2)), r.2)

/-- What is done next is done on the bus as the step left it. -/
theorem overhear_then {f : World → World × List Happening}
    (each : ∀ w b, f (w.onBus b) = overhear b (f w)) (b : Bus Event)
    (r : World × List Happening) :
    ((f (overhear b r).1).1, (overhear b r).2 ++ (f (overhear b r).1).2) =
      overhear b ((f r.1).1, r.2 ++ (f r.1).2) := by
  rw [overhear, each]
  simp only [overhear, eventsAmong, List.filterMap_append, heard_append]

/-- Nobody hears what is not told. -/
theorem overhear_silent (b : Bus Event) (r : World × List Happening) {more : List Happening}
    (silent : eventsAmong more = []) :
    ((overhear b r).1, (overhear b r).2 ++ more) = overhear b (r.1, r.2 ++ more) :=
  overhear_then (f := fun w => (w, more)) (fun w b => by rw [overhear, silent]; rfl) b r

section
variable (w : World) (b : Bus Event)

theorem leaveFeed_onBus (n : Nat) : (w.onBus b).leaveFeed n = overhear b (w.leaveFeed n) := by
  show ((w.leaveFeed n).1.onBus b, (w.leaveFeed n).2) = overhear b (w.leaveFeed n)
  have silent : eventsAmong (w.leaveFeed n).2 = [] := by
    unfold leaveFeed
    dsimp only
    split <;> rfl
  rw [overhear, silent]
  rfl

theorem withPool_onBus (p : Pool) (changed : Bool) :
    (w.onBus b).withPool p changed = overhear b (w.withPool p changed) := by
  rw [overhear, events_withPool]
  rfl

theorem raise_onBus (a : Activity) : (w.onBus b).raise a = (w.raise a).onBus b := by
  cases a <;> rfl

theorem stop_onBus (as : List Activity) : (w.onBus b).stop as = overhear b (w.stop as) := by
  have raised : ∀ w : World, as.foldl raise (w.onBus b) = (as.foldl raise w).onBus b := by
    induction as with
    | nil => exact fun _ => rfl
    | cons a as ih => exact fun w => by rw [List.foldl_cons, raise_onBus, ih, List.foldl_cons]
  show (as.foldl raise (w.onBus b), _) = _
  rw [raised]
  rfl

/-- If every effect is carried out in the same way on another bus, all of them are. -/
theorem perform_onBus {ε : Type} {f : World → ε → World × List Happening}
    (each : ∀ w b e, f (w.onBus b) e = overhear b (f w e)) (es : List ε) :
    perform f (w.onBus b) es = overhear b (perform f w es) := by
  induction es generalizing w b with
  | nil => rfl
  | cons e es ih =>
    simp only [perform, each]
    exact overhear_then (f := fun w => perform f w es) ih b (f w e)

theorem performMonitor_onBus (n : Nat) (e : Monitor.Effect) :
    performMonitor n (w.onBus b) e = overhear b (performMonitor n w e) := by
  cases e <;> rfl

theorem performTask_onBus (n : Nat) (e : Task.Effect) :
    performTask n (w.onBus b) e = overhear b (performTask n w e) := by
  cases e with
  | publish | call => rfl
  | finish guard session => exact withPool_onBus ..

theorem stepMonitor_onBus (n : Nat) (s : Monitor.Signal) :
    (w.onBus b).stepMonitor n s = (w.stepMonitor n s).map (overhear b) := by
  unfold stepMonitor
  show ((w.monitors.get? n).bind fun m => _) = _
  cases w.monitors.get? n with
  | none => rfl
  | some m =>
    cases acts : m.next? s with
    | none => simp [acts]
    | some r =>
      obtain ⟨m', effects⟩ := r
      have performed := perform_onBus { w with monitors := w.monitors.put n m' } b
        (fun w b e => performMonitor_onBus w b n e) effects
      simp only [onBus] at performed
      simp only [acts, Option.bind_eq_bind, Option.bind_some, onBus, performed]
      generalize perform (performMonitor n) _ effects = r
      by_cases ended : m'.ended = true
      · simp only [ended, if_true, Option.map_some, Option.some.injEq, List.append_assoc]
        refine overhear_then (f := fun w => ((w.leaveFeed n).1,
          (w.leaveFeed n).2 ++ [.ended (.monitor n)])) (fun w b => ?_) b r
        rw [leaveFeed_onBus]
        exact overhear_silent b (w.leaveFeed n) rfl
      · simp only [ended]
        rfl

theorem signal?_onBus (u : Buyer) (m : TaskMove) : (w.onBus b).signal? u m = w.signal? u m := by
  cases m <;> rfl

theorem stepTask_onBus (n : Nat) (m : TaskMove) :
    (w.onBus b).stepTask n m = (w.stepTask n m).map (overhear b) := by
  unfold stepTask
  show ((w.buyers.get? n).bind fun m => _) = _
  cases w.buyers.get? n with
  | none => rfl
  | some u =>
    show (((w.onBus b).signal? u m).bind fun r => _) = _
    rw [signal?_onBus]
    cases brings : w.signal? u m with
    | none => simp [brings]
    | some r => 
      obtain ⟨signal, pool, watch⟩ := r
      cases acts : u.task.next? signal with
      | none => simp [acts, brings]
      | some r =>
        obtain ⟨task, effects⟩ := r
        have performed := perform_onBus
          { w with pool, buyers := w.buyers.put n { u with task, watch } } b
          (fun w b e => performTask_onBus w b n e) effects
        simp only [onBus] at performed
        simp only [brings, acts, Option.bind_eq_bind, Option.bind_some, onBus, performed]
        generalize perform (performTask n) _ effects = r
        by_cases ended : task.ended = true
        · simp only [ended, if_true, Option.map_some]
          exact congrArg some (overhear_silent b r rfl)
        · simp only [ended]
          rfl

theorem step?_onBus (m : Move) : (w.onBus b).step? m = (w.step? m).map (overhear b) := by
  cases m with
  | monitor n s => exact stepMonitor_onBus w b n s
  | task n m => exact stepTask_onBus w b n m

end

end World

namespace Supervisor

/-- The same supervisor with another bus. -/
def onBus (s : Supervisor) (capacity : UInt64) (b : Bus Event) : Supervisor :=
  { s with settings := { s.settings with busCapacity := capacity }, world := s.world.onBus b }

/-- What a step comes to on another bus. -/
def overhear (capacity : UInt64) (b : Bus Event) (r : Supervisor × List Happening) :
    Supervisor × List Happening :=
  (r.1.onBus capacity (World.heard b (eventsAmong r.2)), r.2)

section
variable (s : Supervisor) (capacity : UInt64) (b : Bus Event)

theorem spawnTasks_onBus (g : GroupId) (monitor : Nat) (retailer : String)
    (owned : Table TaskId Nat) (cs : List TaskConfig) :
    (s.onBus capacity b).spawnTasks g monitor retailer owned cs =
      ((s.spawnTasks g monitor retailer owned cs).1,
        (s.spawnTasks g monitor retailer owned cs).2.onBus capacity b) := by
  induction cs generalizing s owned with
  | nil => rfl
  | cons c cs ih => exact ih (s.spawnTask g monitor retailer c).2.2 _

theorem enlist_onBus (g : GroupId) (group : Group) :
    (s.onBus capacity b).enlist g group = overhear capacity b (s.enlist g group) := by
  unfold enlist
  cases hg : s.groups.get? g with
  | none =>
    simp only [show (s.onBus capacity b).groups.get? g = none from hg]
    rfl
  | some old =>
    simp only [show (s.onBus capacity b).groups.get? g = some old from hg]
    rw [show (s.onBus capacity b).world = s.world.onBus b from rfl, World.leaveFeed_onBus]
    rfl

theorem spawned_onBus (c : GroupConfig) :
    (s.onBus capacity b).spawned c =
      ((s.spawned c).1, (s.spawned c).2.onBus capacity b) :=
  spawnTasks_onBus s.opened capacity b ..

/-- What a group that may be started comes to. -/
def launch (s : Supervisor) (c : GroupConfig) : Supervisor × List Happening :=
  { (s.spawned c).2 with
    world := (s.spawned c).2.world.addMonitor s.world.openFeed.1
      (.ofConfig s.ids.nextGroup.1 c) }.enlist s.ids.nextGroup.1
    ⟨c, s.world.openFeed.1, (s.spawned c).1⟩

theorem launch_onBus (c : GroupConfig) :
    (s.onBus capacity b).launch c = overhear capacity b (s.launch c) := by
  unfold launch
  rw [spawned_onBus]
  exact enlist_onBus { (s.spawned c).2 with
    world := (s.spawned c).2.world.addMonitor s.world.openFeed.1
      (.ofConfig s.ids.nextGroup.1 c) } capacity b _ _

theorem startGroup_onBus (c : GroupConfig) :
    (s.onBus capacity b).startGroup c = (s.startGroup c).map fun r =>
      (r.1, overhear capacity b r.2) := by
  unfold startGroup
  simp only [bind, Except.bind, throw, throwThe, MonadExceptOf.throw]
  simp only [show (s.onBus capacity b).closed = s.closed from rfl,
    show (s.onBus capacity b).registry = s.registry from rfl,
    show (s.onBus capacity b).nameTaken c.name = s.nameTaken c.name from rfl]
  split
  · rfl
  split
  · rfl
  split
  · rfl
  split
  · rfl
  · exact congrArg (fun r => Except.ok (s.ids.nextGroup.1, r)) (launch_onBus s capacity b c)

theorem addTask_onBus (g : GroupId) (c : TaskConfig) :
    (s.onBus capacity b).addTask g c = (s.addTask g c).map fun r =>
      (r.1, r.2.onBus capacity b) := by
  unfold addTask
  simp only [bind, Except.bind, throw, throwThe, MonadExceptOf.throw]
  split
  · rfl
  · rw [show (s.onBus capacity b).groups = s.groups from rfl]
    cases s.groups.get? g with
    | none => rfl
    | some group => rfl

theorem raise_onBus (as : List Activity) :
    (s.onBus capacity b).raise as = overhear capacity b (s.raise as) := by
  unfold raise
  rw [show (s.onBus capacity b).world = s.world.onBus b from rfl, World.stop_onBus]
  rfl

theorem stopTask_onBus (t : TaskId) :
    (s.onBus capacity b).stopTask t = (s.stopTask t).map fun r =>
      (r.1, overhear capacity b r.2) := by
  unfold stopTask
  rw [show (s.onBus capacity b).owner? t = s.owner? t from rfl]
  cases s.owner? t with
  | none => rfl
  | some r =>
    obtain ⟨g, n⟩ := r
    have raised := raise_onBus ({ s with groups := s.groups.modify g fun group =>
      { group with tasks := group.tasks.erase t } }.await (.stopTask t n)).2 capacity b [.task n]
    exact congrArg (fun r => Except.ok (s.nextCall, r)) raised

theorem stopGroup_onBus (g : GroupId) :
    (s.onBus capacity b).stopGroup g = (s.stopGroup g).map fun r =>
      (r.1, overhear capacity b r.2) := by
  unfold stopGroup
  rw [show (s.onBus capacity b).groups = s.groups from rfl]
  cases s.groups.get? g with
  | none => rfl
  | some group =>
    have raised := raise_onBus ({ s with
      groups := s.groups.erase g
      lineup := s.lineup.mapTasksOf group.monitor fun _ => [] }.await (.stopGroup g group)).2
      capacity b (inOrder (s.lineup.group group.monitor) group.activities)
    exact congrArg (fun r => Except.ok (s.nextCall, r)) raised

theorem shutdown_onBus :
    (s.onBus capacity b).shutdown = (s.shutdown.1, overhear capacity b s.shutdown.2) := by
  unfold shutdown
  rw [show (s.onBus capacity b).closed = s.closed from rfl]
  split
  · rfl
  · have raised := raise_onBus ({ s with closed := true, groups := [], lineup := .empty }.await
      (.shutdown s.groups [])).2 capacity b (inOrder s.lineup.everybody s.everyActivity)
    exact congrArg (fun r => (s.nextCall, r)) raised

theorem collect_onBus (g : GroupId) (group : Group) :
    (s.onBus capacity b).collect g group =
      ((s.collect g group).1, overhear capacity b (s.collect g group).2) := by
  have forgotten : (s.world.onBus b).forgetGroup g = World.overhear b (s.world.forgetGroup g) :=
    World.withPool_onBus ..
  have left := World.overhear_then (f := fun w => w.leaveFeed group.monitor)
    (fun w b => World.leaveFeed_onBus w b group.monitor) b (s.world.forgetGroup g)
  unfold collect
  simp only [show (s.onBus capacity b).world = s.world.onBus b from rfl, forgotten]
  exact congrArg (fun r => (group.tasks.values.filterMap s.reportAt?,
    { s.onBus capacity b with world := r.1 }, r.2)) left

theorem settle?_onBus (n : Nat) :
    (s.onBus capacity b).settle? n = (s.settle? n).map (overhear capacity b) := by
  unfold settle?
  rw [show (s.onBus capacity b).pending = s.pending from rfl]
  rcases s.pending.get? n with _ | ⟨t, place⟩ | ⟨g, group⟩ | ⟨_ | ⟨⟨g, group⟩, left⟩, reports⟩
  · rfl
  · simp only [show (s.onBus capacity b).world.running (.task place) =
      s.world.running (.task place) from rfl]
    split <;> rfl
  · simp only [show (s.onBus capacity b).wound group = s.wound group from rfl, collect_onBus]
    split <;> rfl
  · rfl
  · simp only [show (s.onBus capacity b).wound group = s.wound group from rfl, collect_onBus]
    split <;> rfl

theorem act?_onBus (m : Move) :
    (s.onBus capacity b).act? m = (s.act? m).map (overhear capacity b) := by
  unfold act?
  rw [show (s.onBus capacity b).world = s.world.onBus b from rfl, World.step?_onBus]
  cases s.world.step? m with
  | none => rfl
  | some r => 
    simp only [Option.map_some, World.overhear]
    split <;> rfl

/-- Every step is the same step on another bus, which gets what was published. -/
theorem take?_onBus (o : Occasion) :
    (s.onBus capacity b).take? o = (s.take? o).map (overhear capacity b) := by
  cases o with
  | act m => exact act?_onBus s capacity b m
  | settle n => exact settle?_onBus s capacity b n
  | shutdown => exact congrArg (fun r => some r.2) (shutdown_onBus s capacity b)
  | startGroup c =>
    simp only [take?, startGroup_onBus]
    cases s.startGroup c <;> rfl
  | addTask g c =>
    simp only [take?, addTask_onBus]
    cases s.addTask g c <;> rfl
  | stopTask t =>
    simp only [take?, stopTask_onBus]
    cases s.stopTask t <;> rfl
  | stopGroup g =>
    simp only [take?, stopGroup_onBus]
    cases s.stopGroup g <;> rfl

end

/-! ### With observers and without -/

/-- All of a supervisor but its bus: the pool, the feeds, the monitors and the tasks with
their statuses, the groups, the calls and their answers. -/
def deaf (s : Supervisor) : Supervisor := s.onBus 1 (.new 1)

/-- A supervisor whose bus nobody listens to. -/
def blind? (s : Supervisor) (o : Occasion) : Option (Supervisor × List Happening) :=
  (s.take? o).map fun r => (r.1.deaf, r.2)

/-- What happens around a supervisor: an occasion, or something is asked of its bus. -/
inductive Affair
  | occasion (o : Occasion)
  | observe (r : Bus.Request Event)

/-- A supervisor and its observers. -/
def heed? (s : Supervisor) : Affair → Option (Supervisor × List Happening)
  | .occasion o => s.take? o
  | .observe r =>
    (s.world.bus.take? r).map fun x => (s.onBus s.settings.busCapacity x.1, [])

/-- What a leg is to those who cannot see the bus. -/
def acted? : Leg Supervisor Affair Happening → Option (Leg Supervisor Occasion Happening)
  | ⟨s, .occasion o, es, t⟩ => some ⟨s.deaf, o, es, t.deaf⟩
  | ⟨_, .observe _, _, _⟩ => none

/-- The acts of a run, without what its observers did. -/
def actsOf (w : List (Leg Supervisor Affair Happening)) : List (Leg Supervisor Occasion Happening) :=
  w.filterMap acted?

section
variable {s s' t : Supervisor}

theorem eq_onBus_of_deaf (same : s.deaf = t.deaf) :
    t = s.onBus t.settings.busCapacity t.world.bus :=
  calc t = t.deaf.onBus t.settings.busCapacity t.world.bus := rfl
    _ = s.deaf.onBus t.settings.busCapacity t.world.bus := by rw [same]
    _ = s.onBus t.settings.busCapacity t.world.bus := rfl

/-- What comes next does not depend on the bus. -/
theorem blind?_of_deaf (same : s.deaf = t.deaf) (o : Occasion) : s.blind? o = t.blind? o := by
  rw [eq_onBus_of_deaf same, blind?, blind?, take?_onBus]
  cases s.take? o <;> rfl

/-- The acts of a run are a run without observers. -/
theorem acts_of_trail {w : List (Leg Supervisor Affair Happening)} (h : Trail heed? s w t) :
    Trail blind? s.deaf (actsOf w) t.deaf ∧ effectsOf (actsOf w) = effectsOf w := by
  induction h with
  | rest => exact ⟨.rest, rfl⟩
  | @step w t u i es past taken ih =>
    obtain ⟨trail, effects⟩ := ih
    cases i with
    | occasion o =>
      have acts : actsOf (w ++ [⟨t, .occasion o, es, u⟩]) =
          actsOf w ++ [⟨t.deaf, o, es, u.deaf⟩] := by
        simp [actsOf, acted?]
      have next : t.deaf.blind? o = some (u.deaf, es) := by
        rw [← blind?_of_deaf (show t.deaf = t.deaf.deaf from rfl), blind?,
          show t.take? o = some (u, es) from taken]
        rfl
      rw [acts]
      refine ⟨trail.step next, ?_⟩
      rw [effectsOf_append, effectsOf_append, effects]
      rfl
    | observe r =>
      obtain ⟨x, -, hx⟩ := Option.map_eq_some_iff.1 taken
      obtain ⟨rfl, rfl⟩ := Prod.mk.inj hx
      have acts : actsOf (w ++ [⟨t, .observe r, [], t.onBus t.settings.busCapacity x.1⟩]) =
          actsOf w := by
        simp [actsOf, acted?]
      rw [acts, effectsOf_append, effects]
      exact ⟨trail, (List.append_nil _).symm⟩

end

/-- **Observers cannot influence the activities.** Two supervisors have the same retailers,
ids and settings, but for the capacity of the bus. Whoever leads them, the collaborators
with their answers, the callers and the scheduler, sees all of them but the bus, and anything
may be asked of either bus at any time. Then the acts of one run are the beginning of the acts
of the other; as far as both have come they went through the same pools, statuses and answers
with the same calls, waves and publications, and either can go on as the other can. -/
theorem observers_are_unheard (registry : Registry Unit) (settings : Settings) (capacity : UInt64)
    (ids : IdSource) (lead : List (Leg Supervisor Occasion Happening) → Option Occasion)
    {w v : List (Leg Supervisor Affair Happening)} {s t : Supervisor}
    (h : Trail heed? (.new registry settings ids) w s)
    (h' : Trail heed? (.new registry { settings with busCapacity := capacity } ids) v t)
    (led : Trail.Led lead (actsOf w)) (led' : Trail.Led lead (actsOf v)) :
    (actsOf w <+: actsOf v ∨ actsOf v <+: actsOf w) ∧
      ((actsOf w).length = (actsOf v).length →
        actsOf w = actsOf v ∧ effectsOf w = effectsOf v ∧ s.deaf = t.deaf ∧
          s.world.pool = t.world.pool ∧ s.status = t.status ∧ s.answers = t.answers ∧
          ∀ o, s.blind? o = t.blind? o) := by
  obtain ⟨first, effects⟩ := acts_of_trail h
  obtain ⟨second, effects'⟩ := acts_of_trail h'
  have second : Trail blind? (Supervisor.new registry settings ids).deaf (actsOf v) t.deaf := second
  refine ⟨?_, fun length => ?_⟩
  · rcases Nat.le_total (actsOf w).length (actsOf v).length with shorter | shorter
    · exact .inl (Trail.led_prefix first second led led' shorter)
    · exact .inr (Trail.led_prefix second first led' led shorter)
  · obtain ⟨acts, same⟩ := Trail.led_determined first second led led' length
    have all := eq_onBus_of_deaf same
    refine ⟨acts, by rw [← effects, ← effects', acts], same, ?_, ?_, ?_, blind?_of_deaf same⟩
    · rw [all]; rfl
    · rw [all]; rfl
    · rw [all]; rfl

/-- The group starts, its monitor makes its first check, and the task takes the wave. -/
def opening : List Occasion := .startGroup stand :: firstWave

/-- Somebody subscribes and never reads, and another comes and goes. -/
def idleObservers : List Affair :=
  [.observe .subscribe, .observe .subscribe, .observe (.drop ⟨2⟩)] ++ opening.map .occasion

theorem overflow_of_idle_observers :
    ∃ w v s t, Trail heed? (.new ⟨[("shop", ())]⟩ .standard shop.ids) w s ∧
      Trail heed? (.new ⟨[("shop", ())]⟩ { Settings.standard with busCapacity := 1 } shop.ids) v t ∧
      actsOf w = actsOf v ∧ (eventsAmong (effectsOf w)).length = 5 ∧
      (t.world.bus.queues.get? ⟨1⟩).map List.length = some 1 := by
  have h := Trail.of_inputs heed? (.new ⟨[("shop", ())]⟩ .standard shop.ids)
    (opening.map .occasion)
  have h' := Trail.of_inputs heed?
    (.new ⟨[("shop", ())]⟩ { Settings.standard with busCapacity := 1 } shop.ids) idleObservers
  have law := observers_are_unheard _ _ _ _ (fun past => opening[past.length]?) h h'
    (Trail.led_of_inputs ⟨[], rfl⟩) (Trail.led_of_inputs ⟨[], rfl⟩)
  exact ⟨_, _, _, _, h, h', (law.2 rfl).1, by decide, by decide⟩

end Supervisor

end Restock
