import Restock.Proofs.Supervisor.Service

/-! Custody.

Somebody answers for every activity that runs. While its flag is down, that is the
group it belongs to; and from the moment the flag is raised, it is a pending call,
which waits until the activity has ended (`Custody`). So stopping never leaves anybody
behind: a group, a task or all groups are handed over to the call that stops them, in
the step that raises their flags. -/
namespace Restock

/-! ### Lines -/

theorem mem_of_mem_leaveLine {α : Type} {line : List α} {leaves : α → Bool} {x : α}
    (h : x ∈ leaveLine line leaves) : x ∈ line := by
  unfold leaveLine at h
  split at h
  · next i last _ found =>
    rcases List.mem_or_eq_of_mem_set ((List.dropLast_sublist _).subset h) with h | rfl
    · exact h
    · exact List.mem_of_getLast? found
  · exact h

namespace Lineup

variable {l : Lineup} {m n k t : Nat}

theorem mem_tasksOf_iff : k ∈ l.tasksOf m ↔ ∃ r ∈ l.ranks, r.isGroup m = true ∧ k ∈ r.tasks := by
  simp [tasksOf, and_assoc]

theorem mem_tasks_mapTasks {r : Rank} {f : List Nat → List Nat} (shrinks : ∀ ts, ∀ k ∈ f ts, k ∈ ts)
    (h : k ∈ (r.mapTasks f).tasks) : k ∈ r.tasks := by
  cases r with
  | group n ts => exact shrinks ts k h
  | task t => exact h

theorem isGroup_mapTasks (r : Rank) (f : List Nat → List Nat) :
    (r.mapTasks f).isGroup m = r.isGroup m := by
  cases r <;> rfl

/-- Whoever leaves brings nobody into the line of a group. -/
theorem mem_of_mem_leave {a : Activity} (h : k ∈ (l.leave a).tasksOf m) : k ∈ l.tasksOf m := by
  rw [mem_tasksOf_iff] at h ⊢
  obtain ⟨r, hr, group, there⟩ := h
  cases a with
  | task t =>
    obtain ⟨r, stood, rfl⟩ := List.mem_map.1 hr
    rw [isGroup_mapTasks] at group
    exact ⟨r, mem_of_mem_leaveLine stood, group,
      mem_tasks_mapTasks (fun ts k hk => mem_of_mem_leaveLine hk) there⟩
  | monitor n =>
    rcases List.mem_append.1 (mem_of_mem_leaveLine hr) with hr | hr
    · exact ⟨r, hr, group, there⟩
    · obtain ⟨t, -, rfl⟩ := List.mem_map.1 hr
      contradiction

theorem mem_of_mem_leaveAll {as : List Activity} (h : k ∈ (as.foldl leave l).tasksOf m) :
    k ∈ l.tasksOf m := by
  induction as generalizing l with
  | nil => exact h
  | cons a as ih => exact mem_of_mem_leave (ih h)

theorem mem_of_mem_empty (h : k ∈ (l.mapTasksOf n fun _ => []).tasksOf m) : k ∈ l.tasksOf m := by
  rw [mem_tasksOf_iff] at h ⊢
  obtain ⟨r, hr, group, there⟩ := h
  obtain ⟨r, stood, same⟩ := List.mem_map.1 hr
  split at same <;> subst same
  · rw [isGroup_mapTasks] at group
    exact ⟨r, stood, group, mem_tasks_mapTasks (fun ts k hk => absurd hk List.not_mem_nil) there⟩
  · exact ⟨r, stood, group, there⟩

theorem mem_of_mem_joinGroup (h : k ∈ (l.joinGroup n).tasksOf m) : k ∈ l.tasksOf m := by
  rw [mem_tasksOf_iff] at h ⊢
  obtain ⟨r, hr, group, there⟩ := h
  rcases List.mem_append.1 hr with hr | hr
  · exact ⟨r, hr, group, there⟩
  · rw [List.mem_singleton.1 hr] at there
    contradiction

theorem mem_joinTask (h : k ∈ (l.joinTask n t).tasksOf m) : k ∈ l.tasksOf m ∨ (m = n ∧ k = t) := by
  rw [mem_tasksOf_iff] at h ⊢
  obtain ⟨r, hr, group, there⟩ := h
  obtain ⟨r, stood, same⟩ := List.mem_map.1 hr
  split at same <;> subst same
  · next joined =>
    cases r with
    | task t => contradiction
    | group n' ts =>
      rcases List.mem_append.1 there with before | last
      · exact .inl ⟨_, stood, group, before⟩
      · refine .inr ⟨?_, List.mem_singleton.1 last⟩
        have first : n' = m := of_decide_eq_true group
        have second : n' = n := of_decide_eq_true joined
        omega
  · exact .inl ⟨r, stood, group, there⟩

end Lineup

namespace Supervisor

/-- A pending call waits for the activity. -/
def Awaited (s : Supervisor) (a : Activity) : Prop :=
  ∃ n c, s.pending.get? n = some c ∧ a ∈ c.activities

/-- In the line of a group stand tasks that watch its monitor. -/
def Lined (s : Supervisor) : Prop :=
  ∀ m k, k ∈ s.lineup.tasksOf m → ∃ b, s.world.buyers.get? k = some b ∧ b.feed = m

structure Custody (s : Supervisor) : Prop where
  staffed : s.Staffed
  service : s.InService
  lined : s.Lined
  numbered : ∀ n c, s.pending.get? n = some c → n < s.nextCall
  led : ∀ n, s.world.Active false (.monitor n) →
    ∃ g group, s.groups.get? g = some group ∧ group.monitor = n
  awaited : ∀ a, s.world.Active true a → s.Awaited a

section
variable {s s' : Supervisor} {o : Occasion} {seen : List Happening} {n k : Nat} {g : GroupId}
  {a : Activity}

/-- An activity whose flag is down belongs to a running group. -/
theorem Custody.listed (custody : s.Custody) (active : s.world.Active false a) :
    ∃ g group, s.groups.get? g = some group ∧ a ∈ group.activities := by
  cases a with
  | monitor n =>
    obtain ⟨g, group, hg, rfl⟩ := custody.led n active
    exact ⟨g, group, hg, List.mem_cons_self⟩
  | task n =>
    obtain ⟨t, ht, -, flag⟩ := active
    obtain ⟨group, hg, listed⟩ := Option.bind_eq_some_iff.1 (custody.staffed.crew.listed ht flag)
    refine ⟨_, group, hg, List.mem_cons_of_mem _ (List.mem_map_of_mem ?_)⟩
    exact Table.mem_values_of_get? listed

/-! ### The lineup -/

theorem Lined.step (lined : s.Lined) (serves : s.world.Serves s'.world seen)
    (lineup : ∀ m k, k ∈ s'.lineup.tasksOf m → k ∈ s.lineup.tasksOf m) : s'.Lined := by
  intro m k hk
  obtain ⟨b, hb, feed⟩ := lined m k (lineup m k hk)
  have fate := serves.buyers k
  rw [hb] at fate
  generalize s'.world.buyers.get? k = after at fate ⊢
  cases fate with
  | rests => exact ⟨b, rfl, feed⟩
  | stopped => exact ⟨_, rfl, feed⟩
  | acts => exact ⟨_, rfl, feed⟩

theorem lined_spawnTask (placed : s.world.Placed) (lined : s.Lined) (g : GroupId) (monitor : Nat)
    (retailer : String) (c : TaskConfig) : (s.spawnTask g monitor retailer c).2.2.Lined := by
  intro m k hk
  have buyers : (s.spawnTask g monitor retailer c).2.2.world.buyers.get? k = _ := Table.get?_put ..
  rw [buyers]
  rcases Lineup.mem_joinTask hk with hk | ⟨rfl, rfl⟩
  · obtain ⟨b, hb, feed⟩ := lined m k hk
    have known := (Table.mem_keys_iff ..).2 (Option.isSome_of_eq_some hb)
    rw [placed, List.mem_range] at known
    rw [if_neg (by omega)]
    exact ⟨b, hb, feed⟩
  · exact ⟨_, if_pos rfl, rfl⟩

theorem lined_spawnTasks (placed : s.world.Placed) (lined : s.Lined) (g : GroupId) (monitor : Nat)
    (retailer : String) (owned : Table TaskId Nat) (cs : List TaskConfig) :
    (s.spawnTasks g monitor retailer owned cs).2.Lined := by
  induction cs generalizing s owned with
  | nil => exact lined
  | cons c cs ih =>
    exact ih (World.addTask_eq placed _ monitor).1 (lined_spawnTask placed lined g monitor retailer c) _

/-! ### The desk -/

/-- What a supervisor keeps of its calls. -/
def desk (s : Supervisor) : Bool × Table Nat Call × Nat := (s.closed, s.pending, s.nextCall)

theorem desk_eq_iff : s'.desk = s.desk ↔
    s'.closed = s.closed ∧ s'.pending = s.pending ∧ s'.nextCall = s.nextCall := by
  simp [desk]

theorem desk_spawnTasks (g : GroupId) (monitor : Nat) (retailer : String)
    (owned : Table TaskId Nat) (cs : List TaskConfig) :
    (s.spawnTasks g monitor retailer owned cs).2.desk = s.desk := by
  induction cs generalizing s owned with
  | nil => rfl
  | cons c cs ih => exact ih _

theorem desk_enlist (s : Supervisor) (g : GroupId) (group : Group) :
    (s.enlist g group).1.desk = s.desk ∧
      ∀ m k, k ∈ (s.enlist g group).1.lineup.tasksOf m → k ∈ s.lineup.tasksOf m := by
  cases hg : s.groups.get? g with
  | none | some =>
    simp only [enlist, hg]
    exact ⟨rfl, fun m k hk => Lineup.mem_of_mem_leaveAll hk⟩

/-- A start files no call, and the tasks of the group line up with their monitor. -/
theorem desk_startGroup {c : GroupConfig} (laid : s.world.Laid) (lined : s.Lined)
    (h : s.startGroup c = .ok (g, s', seen)) : s'.desk = s.desk ∧ s'.Lined := by
  obtain ⟨-, still, -⟩ := startGroup_frame h
  obtain ⟨-, hs⟩ := startGroup_ok h
  obtain ⟨rfl, -⟩ := Prod.ext_iff.1 hs
  obtain ⟨desk, lineup⟩ := desk_enlist { (s.spawned c).2 with
    world := (s.spawned c).2.world.addMonitor s.world.openFeed.1 (.ofConfig g c) } g
    ⟨c, s.world.openFeed.1, (s.spawned c).1⟩
  refine ⟨desk.trans (desk_spawnTasks (s := s.opened) ..), fun m k hk => ?_⟩
  have opened : s.opened.Lined := fun m k hk => lined m k (Lineup.mem_of_mem_joinGroup hk)
  have spawned : (s.spawned c).2.Lined := 
    lined_spawnTasks (s := s.opened) laid.placed opened _ _ _ _ _
  rw [still.buyers]
  exact spawned m k (lineup m k hk)

theorem desk_addTask {c : TaskConfig} {t : TaskId} (h : s.addTask g c = .ok (t, s')) :
    s'.desk = s.desk := by
  obtain ⟨group, -, rfl⟩ := addTask_ok h
  rfl

/-- An act files no call, and it brings nobody into a line. -/
theorem desk_act {m : Move} (h : s.act? m = some (s', seen)) :
    s'.desk = s.desk ∧ ∀ m k, k ∈ s'.lineup.tasksOf m → k ∈ s.lineup.tasksOf m := by
  obtain ⟨⟨w, seen⟩, hw, h⟩ := Option.map_eq_some_iff.1 h
  obtain ⟨rfl, rfl⟩ := Prod.ext_iff.1 h
  dsimp only
  split
  · exact ⟨rfl, fun m k hk => Lineup.mem_of_mem_leaveAll hk⟩
  · exact ⟨rfl, fun m k hk => hk⟩

/-- A call that is filed is the last one. -/
theorem numbered_put (numbered : ∀ n c, s.pending.get? n = some c → n < s.nextCall) {c : Call}
    (pending : s'.pending = s.pending.put s.nextCall c) (nextCall : s'.nextCall = s.nextCall + 1) :
    ∀ n c, s'.pending.get? n = some c → n < s'.nextCall := by
  intro n c' hn
  rw [pending] at hn
  rcases Table.get?_of_put hn with ⟨rfl, -⟩ | ⟨-, hn⟩
  · omega
  · have := numbered n c' hn
    omega

theorem Awaited.put (h : s.Awaited a)
    (numbered : ∀ n c, s.pending.get? n = some c → n < s.nextCall) {c : Call}
    (pending : s'.pending = s.pending.put s.nextCall c) : s'.Awaited a := by
  obtain ⟨n, c', hn, ha⟩ := h
  have := numbered n c' hn
  refine ⟨n, c', ?_, ha⟩
  rw [pending, Table.get?_put, if_neg (by omega)]
  exact hn

/-- A call is carried on only past activities that have ended. -/
theorem Awaited.settle (h : s.Awaited a) (runs : s.world.running a = true)
    (settles : Settles s n s' seen) : s'.Awaited a := by
  obtain ⟨m, c, hm, ha⟩ := h
  have wound : ∀ {group : Group}, s.wound group = true → a ∉ group.activities := by
    intro group wound there
    have finished := List.all_eq_true.1 wound a there
    rw [runs] at finished
    contradiction
  -- Whatever becomes of the call that is carried on, the others stay.
  have other : n ≠ m → s'.pending.get? m = s.pending.get? m := by
    intro apart
    cases settles with
    | stopTask | stopGroup | close => exact (Table.get?_erase ..).trans (if_neg apart)
    | wind => exact (Table.get?_put ..).trans (if_neg apart)
  by_cases same : n = m
  · subst same
    cases settles with
    | stopTask pending ended =>
      obtain rfl := Option.some.inj (hm.symm.trans pending)
      obtain rfl := List.mem_singleton.1 ha
      rw [runs] at ended
      contradiction
    | stopGroup pending finished =>
      obtain rfl := Option.some.inj (hm.symm.trans pending)
      exact absurd ha (wound finished)
    | close pending =>
      obtain rfl := Option.some.inj (hm.symm.trans pending)
      contradiction
    | wind pending finished =>
      obtain rfl := Option.some.inj (hm.symm.trans pending)
      rcases List.mem_append.1 ha with ha | ha
      · exact absurd ha (wound finished)
      · exact ⟨n, _, Table.get?_put_self .., ha⟩
  · exact ⟨m, c, (other same).trans hm, ha⟩

theorem numbered_settle (numbered : ∀ n c, s.pending.get? n = some c → n < s.nextCall)
    (settles : Settles s n s' seen) : ∀ n c, s'.pending.get? n = some c → n < s'.nextCall := by
  intro m c hm
  cases settles with
  | stopTask | stopGroup | close => exact numbered m c (Table.get?_of_erase hm)
  | @wind g group left reports pending =>
    rcases Table.get?_of_put hm with ⟨rfl, -⟩ | ⟨-, hm⟩
    · exact numbered n _ pending
    · exact numbered m c hm

/-- Carrying a call on leaves the groups, the monitors and the tasks alone. -/
theorem settles_frame (settles : Settles s n s' seen) :
    s'.groups = s.groups ∧ s'.world.monitors = s.world.monitors ∧
      s'.world.buyers = s.world.buyers ∧
      ∀ m k, k ∈ s'.lineup.tasksOf m → k ∈ s.lineup.tasksOf m := by
  cases settles with
  | stopTask | stopGroup => exact ⟨rfl, rfl, rfl, fun m k hk => Lineup.mem_of_mem_leaveAll hk⟩
  | close | wind => exact ⟨rfl, rfl, rfl, fun m k hk => hk⟩

/-! ### Steps -/

/-- A step in which nobody is stopped and nobody is new. -/
theorem Custody.calm (custody : s.Custody) (staffed : s'.Staffed) (attends : Attends o s s' seen)
    (lineup : ∀ m k, k ∈ s'.lineup.tasksOf m → k ∈ s.lineup.tasksOf m)
    (active : ∀ flag a, s'.world.Active flag a → s.world.Active flag a)
    (groups : s'.groups = s.groups)
    (numbered : ∀ n c, s'.pending.get? n = some c → n < s'.nextCall)
    (awaited : ∀ a, s.world.running a = true → s.Awaited a → s'.Awaited a) : s'.Custody where
  staffed := staffed
  service := attends.service
  lined := custody.lined.step attends.serves lineup
  numbered := numbered
  led n alive := by
    rw [groups]
    exact custody.led n (active false _ alive)
  awaited a stopped := by
    have before := active true a stopped
    exact awaited a (World.running_iff.2 ⟨true, before⟩) (custody.awaited a before)

/-- A stop hands those over to its call whose flags were down. -/
theorem Custody.stop (custody : s.Custody) (staffed : s'.Staffed) (attends : Attends o s s' seen)
    {as : List Activity} {c : Call} (world : s'.world = (s.world.stop as).1)
    (lineup : ∀ m k, k ∈ s'.lineup.tasksOf m → k ∈ s.lineup.tasksOf m)
    (pending : s'.pending = s.pending.put s.nextCall c) (nextCall : s'.nextCall = s.nextCall + 1)
    (handed : ∀ a ∈ as, s.world.Active false a → a ∈ c.activities)
    (groups : ∀ g group, s.groups.get? g = some group → s.world.Active false (.monitor group.monitor) →
      .monitor group.monitor ∈ as ∨
        ∃ group', s'.groups.get? g = some group' ∧ group'.monitor = group.monitor) : s'.Custody where
  staffed := staffed
  service := attends.service
  lined := custody.lined.step attends.serves lineup
  numbered := numbered_put custody.numbered pending nextCall
  led n alive := by
    rw [world] at alive
    rcases World.active_stop alive with ⟨-, raised, -⟩ | ⟨spared, alive⟩
    · contradiction
    · obtain ⟨g, group, hg, rfl⟩ := custody.led n alive
      obtain ⟨group', hg', same⟩ := (groups g group hg alive).resolve_left spared
      exact ⟨g, group', hg', same⟩
  awaited a stopped := by
    rw [world] at stopped
    rcases World.active_stop stopped with ⟨reached, -, flag, before⟩ | ⟨-, before⟩
    · cases flag with
      | true => exact (custody.awaited a before).put custody.numbered pending
      | false =>
        refine ⟨s.nextCall, c, ?_, handed a reached before⟩
        rw [pending]
        exact Table.get?_put_self ..
    · exact (custody.awaited a before).put custody.numbered pending

theorem custody_startGroup {c : GroupConfig} (custody : s.Custody) (fresh : s'.Fresh)
    (staffed : s'.Staffed) (attends : Attends o s s' seen)
    (h : s.startGroup c = .ok (g, s', seen)) : s'.Custody := by
  obtain ⟨desk, lined⟩ := desk_startGroup custody.service.laid custody.lined h
  obtain ⟨-, pending, nextCall⟩ := desk_eq_iff.1 desk
  obtain ⟨grows, monitors, -⟩ := startGroup_world custody.service.laid h
  obtain ⟨rfl, -, groups, -, ids⟩ := startGroup_frame h
  have unissued : s.groups.get? (s.ids.groupId s.ids.groups) = none := by
    refine (custody.staffed.unissued fun i hi => ?_).1
    have apart := fresh.groups i s.ids.groups
    rw [ids] at apart
    exact apart hi (Nat.lt_succ_self _)
  refine ⟨staffed, attends.service, lined, ?_, fun n alive => ?_, fun a stopped => ?_⟩
  · rw [pending, nextCall]
    exact custody.numbered
  · rw [World.Active, monitors, Table.get?_put] at alive
    rw [groups]
    split at alive
    · next same => exact ⟨_, _, Table.get?_put_self .., same⟩
    · obtain ⟨g, group, hg, leads⟩ := custody.led n alive
      refine ⟨g, group, (Table.get?_put ..).trans ((if_neg fun same => ?_).trans hg), leads⟩
      rw [← same, unissued] at hg
      contradiction
  · have before : s.world.Active true a := by
      cases a with
      | task k => exact grows.active stopped
      | monitor n =>
        rw [World.Active, monitors, Table.get?_put] at stopped
        split at stopped
        · obtain ⟨m, sits, -, flag⟩ := stopped
          obtain rfl := Option.some.inj sits
          contradiction
        · exact stopped
    obtain ⟨n, call, hn, there⟩ := custody.awaited a before
    exact ⟨n, call, pending ▸ hn, there⟩

theorem custody_addTask {c : TaskConfig} {t : TaskId} (custody : s.Custody) (staffed : s'.Staffed)
    (attends : Attends o s s' seen) (h : s.addTask g c = .ok (t, s')) : s'.Custody := by
  obtain ⟨grows, monitors, -⟩ := addTask_world custody.service h
  obtain ⟨group, hg, rfl⟩ := addTask_ok h
  have lined := lined_spawnTask custody.service.laid.placed custody.lined g group.monitor
    group.config.retailer c
  refine ⟨staffed, attends.service, fun m k hk => lined m k (Lineup.mem_of_mem_leaveAll hk),
    custody.numbered, fun n alive => ?_, fun a stopped => ?_⟩
  · obtain ⟨g', group', hg', leads⟩ := custody.led n alive
    by_cases same : g = g'
    · subst same
      obtain rfl := Option.some.inj (hg.symm.trans hg')
      exact ⟨g, _, Table.get?_put_self .., leads⟩
    · exact ⟨g', group', (Table.get?_put ..).trans ((if_neg same).trans hg'), leads⟩
  · refine custody.awaited a ?_
    cases a with
    | task k => exact grows.active stopped
    | monitor n => exact stopped

theorem custody_stopTask {t : TaskId} {call : Nat} (custody : s.Custody) (staffed : s'.Staffed)
    (attends : Attends o s s' seen) (h : s.stopTask t = .ok (call, s', seen)) : s'.Custody := by
  obtain ⟨g, n, -, rfl, world, -, groups, pending, lineup, -, nextCall⟩ := stopTask_ok h
  refine custody.stop staffed attends world (fun m k hk => lineup ▸ hk) pending nextCall
    (fun a reached _ => reached) fun g' group hg _ => .inr ?_
  rw [groups, Table.get?_modify, hg]
  split
  · exact ⟨_, rfl, rfl⟩
  · exact ⟨group, rfl, rfl⟩

/-- A task in the line of a group belongs to the group. -/
theorem Custody.member {group : Group} (custody : s.Custody) (hg : s.groups.get? g = some group)
    (stands : k ∈ s.lineup.tasksOf group.monitor) (active : s.world.Active false (.task k)) :
    .task k ∈ group.activities := by
  obtain ⟨b, hb, feed⟩ := custody.lined _ k stands
  obtain ⟨m, hm, belongs⟩ := custody.service.buyers k b hb
  obtain ⟨m', hm', leads⟩ := custody.service.groups g group hg
  rw [feed] at hm
  obtain rfl := Option.some.inj (hm.symm.trans hm')
  obtain ⟨t, ht, -, flag⟩ := active
  have task : s.world.task? k = some b.task := by rw [World.task?, hb]; rfl
  obtain rfl := Option.some.inj (task.symm.trans ht)
  have listed := custody.staffed.crew.listed task flag
  rw [listed?, ← belongs, leads, hg] at listed
  exact List.mem_cons_of_mem _ (List.mem_map_of_mem (Table.mem_values_of_get? listed))

theorem custody_stopGroup {call : Nat} (custody : s.Custody) (staffed : s'.Staffed)
    (attends : Attends o s s' seen) (h : s.stopGroup g = .ok (call, s', seen)) : s'.Custody := by
  obtain ⟨group, as, hg, reached, rfl, world, -, groups, pending, lineup, -, nextCall⟩ :=
    stopGroup_ok h
  refine custody.stop staffed attends world (fun m k hk => ?_) pending nextCall
    (fun a ha active => ?_) fun g' group' hg' _ => ?_
  · rw [lineup] at hk
    exact Lineup.mem_of_mem_empty hk
  · rw [reached] at ha
    rcases List.mem_append.1 ha with ha | ha
    · -- The line of the group is reached first.
      rcases List.mem_append.1 ha with ha | ha
      · obtain ⟨k, hk, rfl⟩ := List.mem_map.1 ha
        exact custody.member hg (List.mem_reverse.1 hk) active
      · rw [List.mem_singleton.1 ha]
        exact List.mem_cons_self
    · exact (List.mem_filter.1 ha).1
  · by_cases same : g = g'
    · subst same
      obtain rfl := Option.some.inj (hg.symm.trans hg')
      rw [reached]
      exact .inl (mem_inOrder List.mem_cons_self)
    · refine .inr ⟨group', ?_, rfl⟩
      rw [groups, Table.get?_erase, if_neg same]
      exact hg'

theorem custody_shutdown (custody : s.Custody) (staffed : s.shutdown.2.1.Staffed)
    (attends : Attends o s s.shutdown.2.1 s.shutdown.2.2) : s.shutdown.2.1.Custody := by
  cases hc : s.closed with
  | true =>
    have down := shutdown_closed hc
    generalize s.shutdown.2 = result at *
    subst down
    refine custody.calm staffed attends (fun m k hk => hk) (fun flag a active => active) rfl
      (fun n c hn => ?_) fun a _ waits => ?_
    · exact Nat.lt_succ_of_lt (custody.numbered n c (Table.get?_of_erase hn))
    · obtain ⟨n, c, hn, there⟩ := waits
      have before := custody.numbered n c hn
      exact ⟨n, c, (Table.get?_erase ..).trans ((if_neg (by omega)).trans hn), there⟩
  | false =>
    obtain ⟨as, reached, -, world, -, groups, pending, lineup, -, nextCall⟩ := shutdown_open hc
    refine custody.stop staffed attends world (fun m k hk => ?_) pending nextCall
      (fun a _ active => ?_) fun g group hg alive => .inl (reached _ ?_)
    · rw [lineup] at hk
      contradiction
    · obtain ⟨g, group, hg, there⟩ := custody.listed active
      exact List.mem_flatMap.2 ⟨(g, group), Table.mem_of_get? hg, there⟩
    · obtain ⟨m, hm, -⟩ := alive
      refine List.mem_append_left _ (List.mem_map_of_mem ((Table.mem_keys_iff ..).2 ?_))
      rw [hm]
      rfl

theorem custody_settle (custody : s.Custody) (staffed : s'.Staffed) (attends : Attends o s s' seen)
    (settles : Settles s n s' seen) : s'.Custody := by
  obtain ⟨groups, monitors, buyers, lineup⟩ := settles_frame settles
  exact custody.calm staffed attends lineup (fun flag a => (World.active_congr monitors buyers).1)
    groups (numbered_settle custody.numbered settles) fun a runs waits => waits.settle runs settles

theorem Custody.step (custody : s.Custody) (fresh : s'.Fresh) (h : s.take? o = some (s', seen)) :
    s'.Custody := by
  have staffed := (advance_of_take? custody.staffed fresh h).staffed
  have attends := attends_of_take? custody.service h
  cases grants_of_take? h with
  | startGroup ok => exact custody_startGroup custody fresh staffed attends ok
  | addTask ok => exact custody_addTask custody staffed attends ok
  | stopTask ok => exact custody_stopTask custody staffed attends ok
  | stopGroup ok => exact custody_stopGroup custody staffed attends ok
  | shutdown => exact custody_shutdown custody staffed attends
  | settle settles => exact custody_settle custody staffed attends settles
  | act acts =>
    obtain ⟨desk, lineup⟩ := desk_act acts
    obtain ⟨-, pending, nextCall⟩ := desk_eq_iff.1 desk
    obtain ⟨w, hw, rfl, groups, -⟩ := act?_ok acts
    refine custody.calm staffed attends lineup (fun flag a => World.active_of_step? hw) groups ?_
      fun a _ waits => ?_
    · rw [pending, nextCall]
      exact custody.numbered
    · rw [Awaited, pending]
      exact waits

theorem custody_new (registry : Registry Unit) (settings : Settings) (taskId : Nat → TaskId)
    (groupId : Nat → GroupId) :
    (Supervisor.new registry settings ⟨taskId, groupId, 0, 0⟩).Custody where
  staffed := staffed_new ..
  service := inService_new ..
  lined m k hk := by contradiction
  numbered n c hn := by contradiction
  led n alive := by
    obtain ⟨m, hm, -⟩ := alive
    contradiction
  awaited a stopped := by
    cases a <;> obtain ⟨x, hx, -⟩ := stopped <;> contradiction

end

end Supervisor

end Restock
