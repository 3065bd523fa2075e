import Restock.Proofs.Supervisor.Staff
import Restock.Proofs.World.Activities
import Restock.Proofs.World.Delivery

/-! A supervisor serves its groups.

Whatever a supervisor does, its world serves the feeds and the tasks, as every world
does (`World.Serves`), and each of its monitors has a duty: it rests, is told to stop,
begins, or acts, and only the monitor that sits at a feed sends waves to it (`Duty`).
So a task watches the monitor of its own group, whichever way it has come into the
group (`InService`). -/
namespace Restock

namespace Monitor

/-- Everything of a monitor that stays as its group has set it up. -/
def setUp (m : Monitor) : GroupId × String × List WatchTarget := (m.groupId, m.retailer, m.targets)

end Monitor

namespace Supervisor

/-- What becomes of a monitor, and the waves that its feed gets. -/
inductive Duty (o : Occasion) (seen : List Happening) (n : Nat) :
    Option Monitor → Option Monitor → Prop
  | rests (m : Option Monitor) (quiet : wavesAmong n seen = []) : Duty o seen n m m
  | stopped (m : Monitor) (quiet : wavesAmong n seen = []) : Duty o seen n (some m) (some m.stop)
  | begins {c : GroupConfig} (called : o = .startGroup c) (valid : c.validate = .ok ()) (g : GroupId)
    (quiet : wavesAmong n seen = []) : Duty o seen n none (some (.ofConfig g c))
  | acts {m m' : Monitor} {i : Monitor.Signal} {es : List Monitor.Effect}
    (called : o = .act (.monitor n i)) (acts : m.next? i = some (m', es))
    (waves : wavesAmong n seen = es.filterMap Monitor.Effect.fed?) :
    Duty o seen n (some m) (some m')

/-- The monitor at a place belongs to the group. -/
def Posted (s : Supervisor) (n : Nat) (g : GroupId) : Prop :=
  ∃ m, s.world.monitors.get? n = some m ∧ m.groupId = g

/-- Groups know their monitors, and tasks watch the monitors of their groups. -/
structure InService (s : Supervisor) : Prop where
  laid : s.world.Laid
  groups : ∀ g group, s.groups.get? g = some group → s.Posted group.monitor g
  buyers : ∀ k b, s.world.buyers.get? k = some b → s.Posted b.feed b.task.context.groupId

structure Attends (o : Occasion) (s s' : Supervisor) (seen : List Happening) : Prop where
  serves : s.world.Serves s'.world seen
  duties : ∀ n, Duty o seen n (s.world.monitors.get? n) (s'.world.monitors.get? n)
  service : s'.InService

section
variable {s s' : Supervisor} {o : Occasion} {seen : List Happening} {n k : Nat} {g : GroupId}

theorem Duty.setUp {m : Monitor} {x : Option Monitor} (duty : Duty o seen n (some m) x) :
    ∃ m', x = some m' ∧ m'.setUp = m.setUp := by
  cases duty with
  | rests => exact ⟨m, rfl, rfl⟩
  | stopped => exact ⟨m.stop, rfl, rfl⟩
  | @acts _ m' i es called acts =>
    have alike := (Monitor.does_of_next? acts).alike
    refine ⟨m', rfl, ?_⟩
    rw [Monitor.setUp, alike.groupId, alike.retailer, alike.targets]
    rfl

theorem Posted.mono (posted : s.Posted n g)
    (duties : ∀ n, Duty o seen n (s.world.monitors.get? n) (s'.world.monitors.get? n)) :
    s'.Posted n g := by
  obtain ⟨m, hm, rfl⟩ := posted
  have duty := duties n
  rw [hm] at duty
  obtain ⟨m', hm', same⟩ := duty.setUp
  exact ⟨m', hm', congrArg Prod.fst same⟩

/-- What a step owes to the service beside its duties: new groups have their monitors,
and so have new tasks. -/
theorem InService.attends (service : s.InService) (serves : s.world.Serves s'.world seen)
    (duties : ∀ n, Duty o seen n (s.world.monitors.get? n) (s'.world.monitors.get? n))
    (groups : ∀ g group, s'.groups.get? g = some group → s'.Posted group.monitor g ∨
      ∃ group', s.groups.get? g = some group' ∧ group'.monitor = group.monitor)
    (joined : ∀ k b, s.world.buyers.get? k = none → s'.world.buyers.get? k = some b →
      s'.Posted b.feed b.task.context.groupId) : Attends o s s' seen := by
  refine ⟨serves, duties, serves.laid, fun g group hg => ?_, fun k b hb => ?_⟩
  · rcases groups g group hg with posted | ⟨group', hg', same⟩
    · exact posted
    · exact same ▸ (service.groups g group' hg').mono duties
  · have fate := serves.buyers k
    rw [hb] at fate
    cases before : s.world.buyers.get? k with
    | none => exact joined k b before hb
    | some b' =>
      have posted := (service.buyers k b' before).mono duties
      rw [before] at fate
      cases fate with
      | rests | stopped => exact posted
      | acts acts =>
        rw [(Task.does_of_next? acts).same.1]
        exact posted

/-- A step that leaves the monitors alone and brings nobody new. -/
theorem InService.still (service : s.InService) (serves : s.world.Serves s'.world seen)
    (monitors : s'.world.monitors = s.world.monitors) (quiet : ∀ n, wavesAmong n seen = [])
    (groups : ∀ g group, s'.groups.get? g = some group →
      ∃ group', s.groups.get? g = some group' ∧ group'.monitor = group.monitor)
    (buyers : ∀ k, s.world.buyers.get? k = none → s'.world.buyers.get? k = none) :
    Attends o s s' seen := by
  refine service.attends serves (fun n => ?_) (fun g group hg => .inr (groups g group hg))
    fun k b before after => ?_
  · rw [monitors]
    exact .rests _ (quiet n)
  · rw [buyers k before] at after
    contradiction

/-! ### Acts -/

theorem attends_act {m : Move} (service : s.InService) (h : s.act? m = some (s', seen)) :
    Attends (.act m) s s' seen := by
  obtain ⟨w, hw, rfl, groups, -⟩ := act?_ok h
  have serves := World.serves_of_step? service.laid hw
  have known : ∀ g group, s'.groups.get? g = some group →
      ∃ group', s.groups.get? g = some group' ∧ group'.monitor = group.monitor :=
    fun g group hg => ⟨group, groups ▸ hg, rfl⟩
  cases m with
  | monitor n i =>
    obtain ⟨m, m', es, hm, acts, monitors, buyers, waves, -⟩ := World.posts_of_stepMonitor hw
    refine service.attends serves (fun l => ?_) (fun g group hg => .inr (known g group hg))
      fun k b before after => ?_
    · rw [monitors, Table.get?_put]
      split
      · next same =>
        subst same
        rw [hm]
        exact .acts rfl acts ((waves n).trans (if_pos rfl))
      · next other => exact .rests _ ((waves l).trans (if_neg other))
    · rw [buyers, before] at after
      contradiction
  | task k m =>
    obtain ⟨monitors, quiet⟩ := World.posts_of_stepTask hw
    obtain ⟨t, u, i, es, p, turn⟩ := World.turn_of_stepTask hw
    refine service.still serves monitors quiet known fun j absent => ?_
    cases after : s'.world.buyers.get? j with
    | none => rfl
    | some b =>
      have there : j ∈ s'.world.buyers.keys := (Table.mem_keys_iff ..).2 (by rw [after]; rfl)
      rw [turn.keys, Table.mem_keys_iff, absent] at there
      contradiction

/-! ### New tasks and groups -/

theorem spawnTask_world {monitor : Nat} (retailer : String) (c : TaskConfig) {f : Feed Wave}
    (laid : s.world.Laid) (feed : s.world.feeds.get? monitor = some f) :
    s.world.Grows (s.spawnTask g monitor retailer c).2.2.world ∧
      ∀ k b, s.world.buyers.get? k = none →
        (s.spawnTask g monitor retailer c).2.2.world.buyers.get? k = some b →
        b.feed = monitor ∧ b.task.context.groupId = g := by
  refine ⟨World.grows_addTask laid _ _ feed, fun k b absent there => ?_⟩
  rw [show (s.spawnTask g monitor retailer c).2.2.world.buyers.get? k = _ from
    Table.get?_put ..] at there
  split at there
  · obtain rfl := Option.some.inj there
    exact ⟨rfl, rfl⟩
  · rw [absent] at there
    contradiction

theorem spawnTasks_world {monitor : Nat} (retailer : String) {f : Feed Wave}
    (owned : Table TaskId Nat) (cs : List TaskConfig) (laid : s.world.Laid)
    (feed : s.world.feeds.get? monitor = some f) :
    s.world.Grows (s.spawnTasks g monitor retailer owned cs).2.world ∧
      (s.spawnTasks g monitor retailer owned cs).2.world.feeds = s.world.feeds ∧
      (s.spawnTasks g monitor retailer owned cs).2.world.monitors = s.world.monitors ∧
      ∀ k b, s.world.buyers.get? k = none →
        (s.spawnTasks g monitor retailer owned cs).2.world.buyers.get? k = some b →
        b.feed = monitor ∧ b.task.context.groupId = g := by
  induction cs generalizing s owned with
  | nil =>
    refine ⟨.refl laid, rfl, rfl, fun k b absent there => ?_⟩
    rw [show s.world.buyers.get? k = some b from there] at absent
    contradiction
  | cons c cs ih =>
    obtain ⟨grows, joined⟩ := spawnTask_world (g := g) retailer c laid feed
    obtain ⟨more, feeds, monitors, later⟩ := @ih (s.spawnTask g monitor retailer c).2.2
      (owned.put (s.spawnTask g monitor retailer c).1 (s.spawnTask g monitor retailer c).2.1)
      grows.laid feed
    refine ⟨grows.trans more, feeds, monitors, fun k b absent there => ?_⟩
    cases first : (s.spawnTask g monitor retailer c).2.2.world.buyers.get? k with
    | none => exact later k b first there
    | some b' =>
      obtain ⟨watches, belongs⟩ := joined k b' absent first
      rcases more.buyers k with same | ⟨gone, -⟩
      · obtain rfl := Option.some.inj (first.symm.trans (same.symm.trans there))
        exact ⟨watches, belongs⟩
      · rw [first] at gone
        contradiction

theorem enlist_world (s : Supervisor) (g : GroupId) (group : Group) (laid : s.world.Laid) :
    s.world.Grows (s.enlist g group).1.world ∧
      (s.enlist g group).1.world.monitors = s.world.monitors ∧
      (∀ n, wavesAmong n (s.enlist g group).2 = []) ∧
      ∀ k, callsAmong k (s.enlist g group).2 = [] := by
  cases hg : s.groups.get? g with
  | none =>
    simp only [enlist, hg]
    exact ⟨.refl laid, rfl, fun n => rfl, fun k => rfl⟩
  | some old =>
    simp only [enlist, hg]
    obtain ⟨quiet, silent⟩ := World.quiet_leaveFeed s.world old.monitor
    exact ⟨World.grows_leaveFeed laid _, rfl, quiet, silent⟩

/-- A new group gets a new feed, its monitor sits there, and its tasks watch it. -/
theorem startGroup_world {c : GroupConfig} (laid : s.world.Laid)
    (h : s.startGroup c = .ok (g, s', seen)) :
    s.world.Grows s'.world ∧
      s'.world.monitors = s.world.monitors.put s.world.feeds.length (.ofConfig g c) ∧
      (∀ n, wavesAmong n seen = []) ∧ (∀ k, callsAmong k seen = []) ∧
      ∀ k b, s.world.buyers.get? k = none → s'.world.buyers.get? k = some b →
        b.feed = s.world.feeds.length ∧ b.task.context.groupId = g := by
  obtain ⟨rfl, hs⟩ := startGroup_ok h
  obtain ⟨opens, feed⟩ := World.grows_openFeed laid
  obtain ⟨grows, feeds, monitors, joined⟩ := spawnTasks_world (s := s.opened)
    (g := s.ids.groupId s.ids.groups) c.retailer [] c.tasks opens.laid feed
  have manned := World.grows_addMonitor grows.laid (.ofConfig (s.ids.groupId s.ids.groups) c)
    (feeds.symm ▸ feed)
  obtain ⟨ends, posts, quiet, silent⟩ := enlist_world { (s.spawned c).2 with
    world := (s.spawned c).2.world.addMonitor s.world.openFeed.1
      (.ofConfig (s.ids.groupId s.ids.groups) c) } (s.ids.groupId s.ids.groups)
    ⟨c, s.world.openFeed.1, (s.spawned c).1⟩ manned.laid
  have still := (startGroup_frame h).2.1
  rw [← hs] at ends posts quiet silent
  refine ⟨((opens.trans grows).trans manned).trans ends, posts.trans ?_, quiet, silent,
    fun k b absent there => joined k b absent (still.buyers ▸ there)⟩
  exact congrArg (Table.put · _ _) monitors

theorem valid_of_startGroup {c : GroupConfig} (h : s.startGroup c = .ok (g, s', seen)) :
    s.closed = false ∧ c.validate = .ok () := by
  unfold startGroup at h
  simp only [bind, Except.bind, throw, throwThe, MonadExceptOf.throw] at h
  split at h
  · contradiction
  next opened =>
  cases valid : c.validate with
  | error f =>
    rw [valid] at h
    contradiction
  | ok => exact ⟨by simpa using opened, rfl⟩

theorem attends_startGroup {c : GroupConfig} (service : s.InService)
    (h : s.startGroup c = .ok (g, s', seen)) : Attends (.startGroup c) s s' seen := by
  obtain ⟨grows, monitors, quiet, silent, joined⟩ := startGroup_world service.laid h
  obtain ⟨-, -, groups, -⟩ := startGroup_frame h
  have posted : s'.Posted s.world.feeds.length g := by
    refine ⟨.ofConfig g c, ?_, rfl⟩
    rw [monitors]
    exact Table.get?_put_self ..
  have vacant : s.world.monitors.get? s.world.feeds.length = none := by
    refine Option.not_isSome_iff_eq_none.1 fun taken => ?_
    have known := service.laid.manned _ ((Table.mem_keys_iff ..).2 taken)
    rw [service.laid.opened] at known
    simp at known
  refine service.attends (grows.serves quiet silent) (fun n => ?_) (fun g' group hg => ?_)
    fun k b absent there => ?_
  · rw [monitors, Table.get?_put]
    split
    · next same =>
      subst same
      rw [vacant]
      exact .begins rfl (valid_of_startGroup h).2 g (quiet _)
    · exact .rests _ (quiet n)
  · rw [groups] at hg
    rcases Table.get?_of_put hg with ⟨rfl, rfl⟩ | ⟨-, hg⟩
    · exact .inl posted
    · exact .inr ⟨group, hg, rfl⟩
  · obtain ⟨watches, belongs⟩ := joined k b absent there
    rw [watches, belongs]
    exact posted

/-- A new task watches the monitor of its group. -/
theorem addTask_world {c : TaskConfig} {t : TaskId} (service : s.InService)
    (h : s.addTask g c = .ok (t, s')) :
    s.world.Grows s'.world ∧ s'.world.monitors = s.world.monitors ∧
      ∀ k b, s.world.buyers.get? k = none → s'.world.buyers.get? k = some b →
        s'.Posted b.feed b.task.context.groupId := by
  obtain ⟨group, hg, rfl⟩ := addTask_ok h
  obtain ⟨m, hm, same⟩ := service.groups g group hg
  have known := service.laid.manned _ ((Table.mem_keys_iff ..).2 (by rw [hm]; rfl))
  obtain ⟨f, feed⟩ := Option.isSome_iff_exists.1 ((Table.mem_keys_iff ..).1 known)
  obtain ⟨grows, joined⟩ := spawnTask_world (g := g) group.config.retailer c service.laid feed
  refine ⟨grows, rfl, fun k b absent there => ?_⟩
  obtain ⟨watches, belongs⟩ := joined k b absent there
  rw [watches, belongs]
  exact ⟨m, hm, same⟩

theorem attends_addTask {c : TaskConfig} {t : TaskId} (service : s.InService)
    (h : s.addTask g c = .ok (t, s')) : Attends (.addTask g c) s s' [] := by
  obtain ⟨grows, monitors, joined⟩ := addTask_world service h
  refine service.attends (grows.serves (fun n => rfl) fun k => rfl) (fun n => ?_)
    (fun g' group' hg' => ?_) joined
  · rw [monitors]
    exact .rests _ rfl
  · obtain ⟨group, hg, rfl⟩ := addTask_ok h
    rcases Table.get?_of_put hg' with ⟨rfl, rfl⟩ | ⟨-, found⟩
    · exact .inr ⟨group, hg, rfl⟩
    · exact .inr ⟨group', found, rfl⟩

/-! ### Stops -/

theorem InService.stop (service : s.InService) (as : List Activity)
    (world : s'.world = (s.world.stop as).1)
    (groups : ∀ g group, s'.groups.get? g = some group →
      ∃ group', s.groups.get? g = some group' ∧ group'.monitor = group.monitor) :
    Attends o s s' [.stopped as] := by
  have raised := s.world.raised_stop as
  refine service.attends (by rw [world]; exact World.serves_stop service.laid as) (fun n => ?_)
    (fun g group hg => .inr (groups g group hg)) fun k b absent there => ?_
  · rw [world, raised.monitors]
    split
    · cases s.world.monitors.get? n with
      | none => exact .rests _ rfl
      | some m => exact .stopped m rfl
    · exact .rests _ rfl
  · rw [world, raised.buyers, absent] at there
    split at there <;> contradiction

theorem attends_stopTask {t : TaskId} {call : Nat} (service : s.InService)
    (h : s.stopTask t = .ok (call, s', seen)) : Attends (.stopTask t) s s' seen := by
  obtain ⟨g, n, -, rfl, world, -, groups, -⟩ := stopTask_ok h
  refine service.stop _ world fun g' group hg => ?_
  rw [groups, Table.get?_modify] at hg
  split at hg
  · obtain ⟨group', found, rfl⟩ := Option.map_eq_some_iff.1 hg
    exact ⟨group', found, rfl⟩
  · exact ⟨group, hg, rfl⟩

theorem attends_stopGroup {call : Nat} (service : s.InService)
    (h : s.stopGroup g = .ok (call, s', seen)) : Attends (.stopGroup g) s s' seen := by
  obtain ⟨group, as, -, -, rfl, world, -, groups, -⟩ := stopGroup_ok h
  refine service.stop as world fun g' group' hg => ?_
  rw [groups] at hg
  exact ⟨group', Table.get?_of_erase hg, rfl⟩

theorem attends_shutdown (service : s.InService) :
    Attends .shutdown s s.shutdown.2.1 s.shutdown.2.2 := by
  cases hc : s.closed with
  | true =>
    rw [shutdown_closed hc]
    exact service.still ((World.Grows.refl service.laid).serves (fun n => rfl) fun k => rfl) rfl
      (fun n => rfl) (fun g group hg => ⟨group, hg, rfl⟩) fun k absent => absent
  | false =>
    obtain ⟨as, -, seen, world, -, groups, -⟩ := shutdown_open hc
    rw [seen]
    refine service.stop as world fun g group hg => ?_
    rw [groups] at hg
    contradiction

/-! ### Pending calls -/

theorem collect_world (g : GroupId) (group : Group) (laid : s.world.Laid) :
    s.world.Serves (s.collect g group).2.1.world (s.collect g group).2.2 ∧
      (s.collect g group).2.1.world.monitors = s.world.monitors ∧
      ∀ n, wavesAmong n (s.collect g group).2.2 = [] := by
  obtain ⟨quiet, silent⟩ := World.quiet_withPool s.world (s.world.pool.removeGroup g).1
    ((s.world.pool.removeGroup g).2 != 0)
  obtain ⟨quiet', silent'⟩ := World.quiet_leaveFeed (s.world.forgetGroup g).1 group.monitor
  have forgets : s.world.Grows (s.world.forgetGroup g).1 := World.grows_aside laid rfl rfl rfl
  have grows := forgets.trans (World.grows_leaveFeed forgets.laid group.monitor)
  have none : ∀ n, wavesAmong n (s.collect g group).2.2 = [] := by
    intro n
    show wavesAmong n ((s.world.forgetGroup g).2 ++
      ((s.world.forgetGroup g).1.leaveFeed group.monitor).2) = []
    rw [wavesAmong_append, quiet']
    exact (List.append_nil _).trans (quiet n)
  refine ⟨grows.serves none fun k => ?_, rfl, none⟩
  show callsAmong k ((s.world.forgetGroup g).2 ++
    ((s.world.forgetGroup g).1.leaveFeed group.monitor).2) = []
  rw [callsAmong_append, silent']
  exact (List.append_nil _).trans (silent k)

theorem attends_settle {n : Nat} (service : s.InService) (h : Settles s n s' seen) :
    Attends (.settle n) s s' seen := by
  have same : ∀ g group, s.groups.get? g = some group →
      ∃ group', s.groups.get? g = some group' ∧ group'.monitor = group.monitor :=
    fun g group hg => ⟨group, hg, rfl⟩
  cases h with
  | stopTask =>
    exact service.still ((World.Grows.refl service.laid).serves (fun n => rfl) fun k => rfl) rfl
      (fun n => rfl) same fun k absent => absent
  | @stopGroup g group | @wind g group =>
    obtain ⟨serves, monitors, quiet⟩ := collect_world g group service.laid
    exact service.still serves monitors quiet same fun k absent => absent
  | close =>
    have aside : s.world.Grows (s.world.publish (.close "supervisor shutdown")).1 :=
      World.grows_aside service.laid rfl rfl rfl
    exact service.still (aside.serves (fun n => rfl) fun k => rfl) rfl (fun n => rfl) same
      fun k absent => absent

/-! ### Steps and trails -/

theorem attends_of_take? (service : s.InService) (h : s.take? o = some (s', seen)) :
    Attends o s s' seen := by
  cases grants_of_take? h with
  | act acts => exact attends_act service acts
  | startGroup ok => exact attends_startGroup service ok
  | addTask ok => exact attends_addTask service ok
  | stopTask ok => exact attends_stopTask service ok
  | stopGroup ok => exact attends_stopGroup service ok
  | shutdown => exact attends_shutdown service
  | settle settles => exact attends_settle service settles

theorem inService_new (registry : Registry Unit) (settings : Settings) (ids : IdSource) :
    (Supervisor.new registry settings ids).InService :=
  ⟨World.laid_new _, fun g group hg => by simp [Supervisor.new] at hg,
    fun k b hb => by simp [Supervisor.new, World.new] at hb⟩

end

end Supervisor

end Restock
