import Restock.Proofs.Supervisor.Assembly
import Restock.Proofs.Supervisor.Reports
import Restock.Supervisor.Status

/-! What the view of a supervisor shows.

A group is started only under a name that no running group has, and keeps its
configuration while it runs (`origin_of_take?`), so no two running groups share a name
(`NamesApart`). The ids of the groups and of their tasks are apart by the rolls. The view
sorts by name and by id, so its order is strict, and nobody is missing from it or listed
twice: `view_is_exact`. The counts are kept while the list is made, one task at a time
(`counts_foldl`). -/
namespace Restock

namespace TaskCounts

/-- The counts after some tasks: each is counted once, by its status if it has ended. -/
theorem counts_foldl (tasks : List Task) (c : TaskCounts) :
    let after := tasks.foldl (fun c t => c.record t.status t.ended) c
    after.total = c.total + tasks.length ∧
      after.running = c.running + tasks.countP (!·.ended) ∧
      after.checkedOut = c.checkedOut + tasks.countP (fun t => t.ended && t.status = .checkedOut) ∧
      after.cardDeclined =
        c.cardDeclined + tasks.countP (fun t => t.ended && t.status = .cardDeclined) ∧
      after.checkoutFailed =
        c.checkoutFailed + tasks.countP (fun t => t.ended && t.status = .checkoutFailed) := by
  induction tasks generalizing c with
  | nil => exact ⟨rfl, rfl, rfl, rfl, rfl⟩
  | cons t tasks ih =>
    obtain ⟨total, running, checkedOut, cardDeclined, checkoutFailed⟩ :=
      ih (c.record t.status t.ended)
    rw [total_record] at total
    simp only [List.foldl_cons, List.countP_cons, List.length_cons, total, running, checkedOut,
      cardDeclined, checkoutFailed]
    refine ⟨by omega, ?_⟩
    cases ended : t.ended
    · simp [record]
      omega
    · cases status : t.status <;> simp [record] <;> omega

end TaskCounts

namespace World

/-- The run of a task is over, and left it with a status. -/
def finished (w : World) (status : TaskStatus) (n : Nat) : Bool :=
  (w.task? n).any fun t => t.ended && t.status = status

end World

namespace Supervisor

/-- The view of a running group shows its tasks by id, each once, and counts them. -/
structure Depicts (s : Supervisor) (group : Group) (v : GroupStatus) : Prop where
  name : v.name = group.config.name
  retailer : v.retailer = group.config.retailer
  ordered : (v.tasks.map Prod.fst).Pairwise fun a b => a.ulid < b.ulid
  complete : (v.tasks.map Prod.fst).Perm group.tasks.keys
  total : v.counts.total = v.tasks.length
  running : v.counts.running = group.tasks.values.countP fun n => s.world.running (.task n)
  checkedOut : v.counts.checkedOut = group.tasks.values.countP (s.world.finished .checkedOut)
  cardDeclined : v.counts.cardDeclined = group.tasks.values.countP (s.world.finished .cardDeclined)
  checkoutFailed :
    v.counts.checkoutFailed = group.tasks.values.countP (s.world.finished .checkoutFailed)

/-- Names and ids are apart, and the view shows every running group, by name and once. -/
structure Exact (s : Supervisor) : Prop where
  ids : s.groups.keys.Nodup
  names : (s.groups.values.map fun group => group.config.name).Nodup
  tasks : ∀ {g g' group group' t}, s.groups.get? g = some group → s.groups.get? g' = some group' →
    t ∈ group.tasks.keys → t ∈ group'.tasks.keys → g = g'
  ordered : (s.status.map GroupStatus.name).Pairwise (· < ·)
  complete : (s.status.map GroupStatus.groupId).Perm s.groups.keys
  depicted : ∀ v ∈ s.status, ∃ group, s.groups.get? v.groupId = some group ∧ s.Depicts group v
  /-- Asked about one group or task, the supervisor says what the view shows, or nothing. -/
  monitorStatus : ∀ g m, s.monitorStatus? g = some m ↔
    ∃ v ∈ s.status, v.groupId = g ∧ v.monitor = m
  taskStatus : ∀ t status, s.taskStatus? t = some status ↔ ∃ v ∈ s.status, (t, status) ∈ v.tasks

/-- No two running groups share a name. -/
def NamesApart (s : Supervisor) : Prop :=
  ∀ g g' group group', s.groups.get? g = some group → s.groups.get? g' = some group' →
    group.config.name = group'.config.name → g = g'

section
variable {s s' : Supervisor} {o : Occasion} {seen : List Happening} {g : GroupId} {group : Group}
  {t : TaskId} {n : Nat}

/-! ### Names -/

/-- A running group is new, under a name that was free, or ran before with the same
configuration. -/
theorem origin_of_take? (taken : s.take? o = some (s', seen))
    (running : s'.groups.get? g = some group) :
    (s.closed = false ∧ g = s.ids.groupId s.ids.groups ∧
      ∀ other ∈ s.groups.values, other.config.name ≠ group.config.name) ∨
    ∃ old, s.groups.get? g = some old ∧ old.config = group.config := by
  have kept : s'.groups = s.groups → ∃ old, s.groups.get? g = some old ∧
      old.config = group.config := fun same => ⟨group, same ▸ running, rfl⟩
  cases grants_of_take? taken with
  | act acts =>
    obtain ⟨-, -, -, groups, -⟩ := act?_ok acts
    exact .inr (kept groups)
  | settle settles => exact .inr (kept (settles_frame settles).1)
  | startGroup ok =>
    obtain ⟨up, -, -, free⟩ := startGroup_ok_iff.1 ⟨_, _, _, ok⟩
    obtain ⟨new, -, groups, -⟩ := startGroup_frame ok
    rw [groups] at running
    rcases Table.get?_of_put running with ⟨rfl, rfl⟩ | ⟨-, before⟩
    · exact .inl ⟨up, new, free⟩
    · exact .inr ⟨group, before, rfl⟩
  | addTask ok =>
    obtain ⟨old, there, rfl⟩ := addTask_ok ok
    rcases Table.get?_of_put running with ⟨rfl, rfl⟩ | ⟨-, before⟩
    · exact .inr ⟨old, there, rfl⟩
    · exact .inr ⟨group, before, rfl⟩
  | stopTask ok =>
    obtain ⟨g, n, -, -, -, -, groups, -⟩ := stopTask_ok ok
    rw [groups, Table.get?_modify] at running
    split at running
    · obtain ⟨old, there, rfl⟩ := Option.map_eq_some_iff.1 running
      exact .inr ⟨old, there, rfl⟩
    · exact .inr ⟨group, running, rfl⟩
  | stopGroup ok =>
    obtain ⟨-, -, -, -, -, -, -, groups, -⟩ := stopGroup_ok ok
    rw [groups] at running
    exact .inr ⟨group, Table.get?_of_erase running, rfl⟩
  | shutdown =>
    cases up : s.closed with
    | true => exact .inr (kept (by rw [shutdown_closed up]; rfl))
    | false =>
      obtain ⟨-, -, -, -, -, none, -⟩ := shutdown_open up
      rw [none] at running
      contradiction

theorem NamesApart.step (apart : s.NamesApart) (taken : s.take? o = some (s', seen)) :
    s'.NamesApart := by
  intro g g' group group' running running' same
  rcases origin_of_take? taken running with ⟨-, new, free⟩ | ⟨old, before, config⟩
  · rcases origin_of_take? taken running' with ⟨-, new', -⟩ | ⟨old', before', config'⟩
    · exact new.trans new'.symm
    · exact absurd (by rw [config', same]) (free old' (Table.mem_values_of_get? before'))
  · rcases origin_of_take? taken running' with ⟨-, -, free⟩ | ⟨old', before', config'⟩
    · exact absurd (by rw [config, same]) (free old (Table.mem_values_of_get? before))
    · exact apart _ _ _ _ before before' (by rw [config, config', same])

theorem namesApart_of_trail {registry : Registry Unit} {settings : Settings} {ids : IdSource}
    {h : List (Leg Supervisor Occasion Happening)}
    (trail : Trail take? (.new registry settings ids) h s) : s.NamesApart := by
  induction trail with
  | rest =>
    intro g g' group group' running
    contradiction
  | step past taken ih => exact ih.step taken

/-- The names of the running groups, one for each. -/
theorem NamesApart.nodup (apart : s.NamesApart) (ids : s.groups.keys.Nodup) :
    (s.groups.map fun e => e.2.config.name).Nodup := by
  refine List.Nodup.map_on (fun e he e' he' same => ?_) (List.Nodup.of_map _ ids)
  obtain ⟨g, group⟩ := e
  obtain ⟨g', group'⟩ := e'
  have running : s.groups.get? g = some group := Table.get?_of_mem ids he
  have running' : s.groups.get? g' = some group' := Table.get?_of_mem ids he'
  obtain rfl := apart _ _ _ _ running running' same
  rw [Option.some.inj (running.symm.trans running')]

/-! ### The tasks of a group -/

/-- The tasks of a group are all there, under their ids. -/
theorem taskIds_of_roll (roll : s.world.Roll g group.tasks) :
    (group.tasks.values.filterMap s.world.task?).map (fun t => t.context.taskId) =
      group.tasks.keys := by
  obtain ⟨apart, named⟩ := roll
  have there : ∀ e ∈ group.tasks, ∃ u, s.world.task? e.2 = some u ∧ u.context.taskId = e.1 := by
    intro e he
    obtain ⟨u, hu, id, -⟩ := named (Table.get?_of_mem apart he)
    exact ⟨u, hu, id⟩
  rw [Table.values, Table.keys, List.filterMap_map]
  generalize (group.tasks : List (TaskId × Nat)) = tasks at there ⊢
  induction tasks with
  | nil => rfl
  | cons e tasks ih =>
    obtain ⟨u, hu, id⟩ := there e List.mem_cons_self
    have rest := ih fun e he => there e (List.mem_cons_of_mem _ he)
    have first : (s.world.task? ∘ fun e : TaskId × Nat => e.2) e = some u := hu
    rw [List.filterMap_cons_some first, List.map_cons, List.map_cons, id, rest]

theorem mem_tasksOf_iff {u : Task} :
    u ∈ s.tasksOf group ↔ ∃ n ∈ group.tasks.values, s.world.task? n = some u := by
  rw [tasksOf, List.mem_mergeSort, List.mem_filterMap]

/-- What is counted among the tasks of a group is counted at their places. -/
theorem countP_tasksOf (p : Task → Bool) :
    (s.tasksOf group).countP p = group.tasks.values.countP fun n => (s.world.task? n).any p := by
  rw [tasksOf, (List.mergeSort_perm _ _).countP_eq, List.countP_filterMap]
  refine List.countP_congr fun n _ => ?_
  cases s.world.task? n <;> rfl

/-- The tasks of a group are shown in the order of their ids. -/
theorem sorted_tasksOf (roll : s.world.Roll g group.tasks) :
    ((s.tasksOf group).map fun t => t.context.taskId).Pairwise fun a b => a.ulid < b.ulid := by
  have alike : Function.Injective fun i : TaskId => i.ulid.number.toNat := by
    rintro ⟨⟨a⟩⟩ ⟨⟨b⟩⟩ same
    obtain rfl : a = b := BitVec.eq_of_toNat_eq same
    rfl
  have apart := (roll.apart).map alike
  rw [← taskIds_of_roll roll, List.map_map] at apart
  have sorted := sorted_by_key _ (fun a b : Task =>
    decide (a.context.taskId.ulid ≤ b.context.taskId.ulid)) (fun a b => decide_eq_true_iff) apart
  rw [List.pairwise_map] at sorted ⊢
  exact sorted

theorem depicts_groupStatus (roll : s.world.Roll g group.tasks) :
    s.Depicts group (s.groupStatus g group) := by
  have ids := taskIds_of_roll roll
  have shown : (s.groupStatus g group).tasks.map Prod.fst =
      (s.tasksOf group).map fun t => t.context.taskId := List.map_map ..
  have perm : ((s.tasksOf group).map fun t => t.context.taskId).Perm group.tasks.keys := by
    rw [← ids]
    exact (List.mergeSort_perm ..).map _
  obtain ⟨total, running, checkedOut, cardDeclined, checkoutFailed⟩ :=
    TaskCounts.counts_foldl (s.tasksOf group) .zero
  refine ⟨rfl, rfl, ?_, shown ▸ perm, ?_, ?_, ?_, ?_, ?_⟩
  · rw [shown]
    exact sorted_tasksOf roll
  · rw [groupStatus, List.length_map]
    exact total.trans (Nat.zero_add _)
  · exact running.trans ((Nat.zero_add _).trans (countP_tasksOf _))
  · exact checkedOut.trans ((Nat.zero_add _).trans (countP_tasksOf _))
  · exact cardDeclined.trans ((Nat.zero_add _).trans (countP_tasksOf _))
  · exact checkoutFailed.trans ((Nat.zero_add _).trans (countP_tasksOf _))

/-! ### What is shown -/

theorem mem_status_iff (ids : s.groups.keys.Nodup) {v : GroupStatus} :
    v ∈ s.status ↔ ∃ g group, s.groups.get? g = some group ∧ s.groupStatus g group = v := by
  rw [status, List.mem_mergeSort, List.mem_map]
  constructor
  · rintro ⟨⟨g, group⟩, there, rfl⟩
    exact ⟨g, group, Table.get?_of_mem ids there, rfl⟩
  · rintro ⟨g, group, running, rfl⟩
    exact ⟨(g, group), Table.mem_of_get? running, rfl⟩

/-- A task that is listed is found. -/
theorem owner?_of_listed (listed : s.listed? g t = some n) :
    ∃ g' n', s.owner? t = some (g', n') := by
  obtain ⟨group, hg, there⟩ := Option.bind_eq_some_iff.1 listed
  have found : (s.owner? t).isSome = true := by
    refine List.findSome?_isSome_iff.2 ⟨(g, group), Table.mem_of_get? hg, ?_⟩
    rw [Option.isSome_map, there]
    rfl
  obtain ⟨⟨g', n'⟩, owner⟩ := Option.isSome_iff_exists.1 found
  exact ⟨g', n', owner⟩

theorem monitorStatus?_eq_some_iff (rolls : s.Rolls) {m : MonitorStatus} :
    s.monitorStatus? g = some m ↔ ∃ v ∈ s.status, v.groupId = g ∧ v.monitor = m := by
  constructor
  · intro asked
    obtain ⟨group, hg, asked⟩ := Option.bind_eq_some_iff.1 asked
    obtain ⟨x, hx, shown⟩ := Option.bind_eq_some_iff.1 asked
    refine ⟨_, (mem_status_iff rolls.groups).2 ⟨g, group, hg, rfl⟩, rfl, ?_⟩
    rw [groupStatus, hx]
    exact Option.some.inj shown
  · rintro ⟨v, there, rfl, rfl⟩
    obtain ⟨g, group, hg, rfl⟩ := (mem_status_iff rolls.groups).1 there
    obtain ⟨x, hx, -⟩ := (rolls.running hg).monitor
    simp [monitorStatus?, groupStatus, hg, hx]

theorem taskStatus?_eq_some_iff (rolls : s.Rolls) (staffed : s.Staffed) (fresh : s.Fresh)
    {status : TaskStatus} :
    s.taskStatus? t = some status ↔ ∃ v ∈ s.status, (t, status) ∈ v.tasks := by
  constructor
  · intro asked
    obtain ⟨⟨g, n⟩, owner, asked⟩ := Option.bind_eq_some_iff.1 asked
    obtain ⟨u, hu, shown⟩ := Option.bind_eq_some_iff.1 asked
    obtain ⟨group, hg, listed⟩ :=
      Option.bind_eq_some_iff.1 (listed_of_owner? rolls.groups owner)
    obtain ⟨u', hu', id, -⟩ := (rolls.running hg).roll.named listed
    obtain rfl := Option.some.inj (hu.symm.trans hu')
    refine ⟨_, (mem_status_iff rolls.groups).2 ⟨g, group, hg, rfl⟩, List.mem_map.2 ⟨u, ?_, ?_⟩⟩
    · exact mem_tasksOf_iff.2 ⟨n, Table.mem_values_of_get? listed, hu⟩
    · rw [id, Option.some.inj shown]
  · rintro ⟨v, there, listed⟩
    obtain ⟨g, group, hg, rfl⟩ := (mem_status_iff rolls.groups).1 there
    obtain ⟨u, among, shown⟩ := List.mem_map.1 listed
    obtain ⟨rfl, rfl⟩ := Prod.mk.inj shown
    obtain ⟨n, hn, hu⟩ := mem_tasksOf_iff.1 among
    obtain ⟨listed, -⟩ := (rolls.running hg).roll.get?_of_mem hn hu
    obtain ⟨g', n', owner⟩ := owner?_of_listed (by rw [listed?, hg]; exact listed)
    -- Whoever is found under the id is the same task.
    obtain ⟨u', hu', id, -⟩ := rolls.listed (listed_of_owner? rolls.groups owner)
    obtain rfl := staffed.alone fresh hu' hu id
    simp [taskStatus?, owner, hu]

end

section
variable {registry : Registry Unit} {settings : Settings} {taskId : Nat → TaskId}
  {groupId : Nat → GroupId} {h : List (Leg Supervisor Occasion Happening)} {s : Supervisor}

/-- Whatever was asked of a supervisor and whatever its activities did, no name and no id is
in use twice, and the view shows every running group and every task of it once and in order. -/
theorem view_is_exact (trail : Trail take? (.new registry settings ⟨taskId, groupId, 0, 0⟩) h s)
    (fresh : s.Fresh) : s.Exact := by
  obtain ⟨custody, rolls⟩ := rolls_of_trail trail fresh
  have names := (namesApart_of_trail trail).nodup rolls.groups
  refine ⟨rolls.groups, ?_, fun {g g' group group' t} hg hg' there there' => ?_, ?_, ?_,
    fun v there => ?_, fun g m => monitorStatus?_eq_some_iff rolls,
    fun t status => taskStatus?_eq_some_iff rolls custody.staffed fresh⟩
  · rw [Table.values, List.map_map]
    exact names
  · obtain ⟨n, listed⟩ := Option.isSome_iff_exists.1 ((Table.mem_keys_iff ..).1 there)
    obtain ⟨n', listed'⟩ := Option.isSome_iff_exists.1 ((Table.mem_keys_iff ..).1 there')
    obtain ⟨u, hu, id, belongs⟩ := (rolls.running hg).roll.named listed
    obtain ⟨u', hu', id', belongs'⟩ := (rolls.running hg').roll.named listed'
    obtain rfl := custody.staffed.alone fresh hu hu' (id.trans id'.symm)
    obtain rfl := Option.some.inj (hu.symm.trans hu')
    exact belongs.symm.trans belongs'
  · refine sorted_by_key _ _ (fun a b => decide_eq_true_iff) ?_
    rw [List.map_map]
    exact names
  · rw [status]
    refine ((List.mergeSort_perm ..).map _).trans ?_
    rw [List.map_map]
    rfl
  · obtain ⟨g, group, hg, rfl⟩ := (mem_status_iff rolls.groups).1 there
    exact ⟨group, hg, depicts_groupStatus (rolls.running hg).roll⟩

end

/-- Of the first of two groups one task panics and the other is stopped. -/
def openingDay : List Occasion :=
  [.startGroup pair, .startGroup { pair with name := "annex" }, .act (.task 0 .begin),
    .act (.task 1 .begin), .act (.task 0 .elect), .act (.task 0 .proceed),
    .act (.task 0 (.reply .empty .crashed)), .stopTask (.ofNat 1)]

theorem view_of_an_opening_day :
    ∃ h s, Trail take? store h s ∧ s.Fresh ∧ s.Exact ∧
      s.groups.values.map (fun group => group.config.name) = ["demo", "annex"] ∧
      s.taskStatus? (.ofNat 0) = some .loggingIn ∧ s.taskStatus? (.ofNat 1) = none ∧
      ∃ v ∈ s.status, v.name = "demo" ∧ v.counts.running = 0 ∧ v.counts.total = 1 := by
  have trail := Trail.of_inputs take? store openingDay
  have fresh : (Trail.follow take? store openingDay).2.Fresh := by
    have tasks : ∀ j < 4, ∀ i < j, store.ids.taskId i ≠ store.ids.taskId j := by decide
    have groups : ∀ j < 2, ∀ i < j, store.ids.groupId i ≠ store.ids.groupId j := by decide
    exact ⟨fun i j hij hj => tasks j hj i hij, fun i j hij hj => groups j hj i hij⟩
  have exact := view_is_exact trail fresh
  refine ⟨_, _, trail, fresh, exact, by decide, by decide, by decide, ?_⟩
  have first : (.ofNat 0 : GroupId) ∈ (Trail.follow take? store openingDay).2.groups.keys := by
    decide
  obtain ⟨v, there, id⟩ := List.mem_map.1 (exact.complete.mem_iff.2 first)
  obtain ⟨group, running, depicts⟩ := exact.depicted v there
  rw [id] at running
  obtain rfl := Option.some.inj running
  have length : v.tasks.length = 1 := by
    rw [← List.length_map Prod.fst]
    exact depicts.complete.length_eq
  exact ⟨v, there, depicts.name, depicts.running.trans (by decide), depicts.total.trans length⟩

end Supervisor

end Restock
