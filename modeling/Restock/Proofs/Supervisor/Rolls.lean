import Restock.Proofs.Supervisor.Custody

/-! The rolls of a supervisor.

A group lists its tasks under their ids and at their places, and its monitor is its own
(`World.Enrolled`). The world forgets nobody, and whoever has ended stays as it ended
(`World.Lasts`), so a roll stays right when it goes over to the call that winds the group
down. No two monitors have one group, and a call keeps its number: until it is carried
on it stands as it was filed (`Deals.elsewhere`), and once it is answered it stays so
(`Deals.keeps`). -/
namespace Restock

/-- The group of a task stays, and so do its end and its report. -/
def Task.Lasts (t u : Task) : Prop :=
  u.context = t.context ∧ (t.ended = true → u.ended = true ∧ u.report? = t.report?)

/-- The group of a monitor stays, and so does its end. -/
def Monitor.Lasts (m m' : Monitor) : Prop :=
  m'.groupId = m.groupId ∧ (m.ended = true → m'.ended = true)

namespace World

/-- Nobody is forgotten, and whoever has ended stays as it ended. -/
structure Lasts (w w' : World) : Prop where
  tasks : ∀ {k t}, w.task? k = some t → ∃ u, w'.task? k = some u ∧ t.Lasts u
  monitors : ∀ {n m}, w.monitors.get? n = some m → ∃ m', w'.monitors.get? n = some m' ∧ m.Lasts m'

/-- The activity was put to work, and its run is over. -/
def Over (w : World) : Activity → Prop
  | .monitor n => ∃ m, w.monitors.get? n = some m ∧ m.ended = true
  | .task n => ∃ t, w.task? n = some t ∧ t.ended = true

/-- The tasks in the list are there, under their ids, and belong to the group. -/
structure Roll (w : World) (g : GroupId) (tasks : Table TaskId Nat) : Prop where
  apart : tasks.keys.Nodup
  named : ∀ {t k}, tasks.get? t = some k →
    ∃ u, w.task? k = some u ∧ u.context.taskId = t ∧ u.context.groupId = g

/-- The group lists tasks of its own, and its monitor is its own. -/
structure Enrolled (w : World) (g : GroupId) (group : Group) : Prop where
  roll : w.Roll g group.tasks
  monitor : ∃ m, w.monitors.get? group.monitor = some m ∧ m.groupId = g

/-- What a call takes along is in order. -/
def Files (w : World) : Call → Prop
  | .stopTask t k => ∃ u, w.task? k = some u ∧ u.context.taskId = t
  | .stopGroup g group => w.Enrolled g group
  | .shutdown left _ => (Table.keys left).Nodup ∧ ∀ e ∈ left, w.Enrolled e.1 e.2

section
variable {w w' : World} {g : GroupId} {group : Group} {tasks : Table TaskId Nat} {a : Activity}

theorem Lasts.ended (lasts : w.Lasts w') (h : w.Over a) : w'.Over a := by
  cases a with
  | monitor n =>
    obtain ⟨m, hm, ended⟩ := h
    obtain ⟨m', hm', -, same⟩ := lasts.monitors hm
    exact ⟨m', hm', same ended⟩
  | task n =>
    obtain ⟨t, ht, ended⟩ := h
    obtain ⟨u, hu, -, same⟩ := lasts.tasks ht
    exact ⟨u, hu, (same ended).1⟩

theorem Over.not_running (h : w.Over a) : w.running a = false := by
  cases a with
  | monitor n | task n =>
    obtain ⟨x, hx, ended⟩ := h
    simp [running, hx, ended]

theorem Roll.mono (roll : w.Roll g tasks) (lasts : w.Lasts w') : w'.Roll g tasks := by
  refine ⟨roll.apart, fun {t k} hk => ?_⟩
  obtain ⟨u, hu, named, belongs⟩ := roll.named hk
  obtain ⟨v, hv, same, -⟩ := lasts.tasks hu
  exact ⟨v, hv, same ▸ named, same ▸ belongs⟩

theorem Roll.still (roll : w.Roll g tasks) (buyers : w'.buyers = w.buyers) : w'.Roll g tasks := by
  refine ⟨roll.apart, fun {t k} hk => ?_⟩
  rw [task?_congr buyers]
  exact roll.named hk

theorem Enrolled.mono (enrolled : w.Enrolled g group) (lasts : w.Lasts w') : w'.Enrolled g group := by
  obtain ⟨m, hm, leads⟩ := enrolled.monitor
  obtain ⟨m', hm', same, -⟩ := lasts.monitors hm
  exact ⟨enrolled.roll.mono lasts, m', hm', same.trans leads⟩

theorem Files.mono {c : Call} (files : w.Files c) (lasts : w.Lasts w') : w'.Files c := by
  cases c with
  | stopTask t k =>
    obtain ⟨u, hu, named⟩ := files
    obtain ⟨v, hv, same, -⟩ := lasts.tasks hu
    exact ⟨v, hv, same ▸ named⟩
  | stopGroup g group => exact Enrolled.mono files lasts
  | shutdown left reports => exact ⟨files.1, fun e he => (files.2 e he).mono lasts⟩

/-- A task is listed under its own id only. -/
theorem Roll.get?_of_mem {t : Task} {k : Nat} (roll : w.Roll g tasks) (hk : k ∈ tasks.values)
    (ht : w.task? k = some t) : tasks.get? t.context.taskId = some k ∧ t.context.groupId = g := by
  obtain ⟨⟨i, k⟩, there, rfl⟩ := List.mem_map.1 hk
  have listed := Table.get?_of_mem roll.apart there
  obtain ⟨u, hu, rfl, belongs⟩ := roll.named listed
  obtain rfl := Option.some.inj (ht.symm.trans hu)
  exact ⟨listed, belongs⟩

/-- A group that has wound down has ended. -/
theorem Enrolled.ended (enrolled : w.Enrolled g group) (stopped : w.running a = false)
    (there : a ∈ group.activities) : w.Over a := by
  rcases List.mem_cons.1 there with rfl | there
  · obtain ⟨m, hm, -⟩ := enrolled.monitor
    refine ⟨m, hm, ?_⟩
    simpa [running, hm] using stopped
  · obtain ⟨k, hk, rfl⟩ := List.mem_map.1 there
    obtain ⟨⟨t, k⟩, listed, rfl⟩ := List.mem_map.1 hk
    obtain ⟨u, hu, -⟩ := enrolled.roll.named (Table.get?_of_mem enrolled.roll.apart listed)
    refine ⟨u, hu, ?_⟩
    simpa [running, hu] using stopped

end

end World

namespace Supervisor

/-- The lists of groups and calls are in order. -/
structure Rolls (s : Supervisor) : Prop where
  groups : s.groups.keys.Nodup
  running : ∀ {g group}, s.groups.get? g = some group → s.world.Enrolled g group
  issued : ∀ {n m}, s.world.monitors.get? n = some m →
    ∃ i, i < s.ids.groups ∧ s.ids.groupId i = m.groupId
  alone : ∀ {m n x y}, s.world.monitors.get? m = some x → s.world.monitors.get? n = some y →
    x.groupId = y.groupId → m = n
  calls : ∀ {n c}, s.pending.get? n = some c → s.world.Files c
  answered : ∀ {n a}, s.answers.get? n = some a → n < s.nextCall ∧ s.pending.get? n = none

section
variable {s s' : Supervisor} {o : Occasion} {seen : List Happening} {n k : Nat} {g : GroupId}
  {group : Group} {t : TaskId}

/-! ### Whoever has ended -/

theorem Attends.lasts (attends : Attends o s s' seen) : s.world.Lasts s'.world := by
  refine ⟨fun {k t} ht => ?_, fun {n m} hm => ?_⟩
  · obtain ⟨b, hb, rfl⟩ := Option.map_eq_some_iff.1 ht
    have fate := attends.serves.buyers k
    rw [hb] at fate
    rw [World.task?]
    generalize s'.world.buyers.get? k = after at fate ⊢
    cases fate with
    | rests => exact ⟨b.task, rfl, rfl, fun ended => ⟨ended, rfl⟩⟩
    | stopped => exact ⟨b.task.stop, rfl, rfl, fun ended => ⟨ended, rfl⟩⟩
    | @acts _ i u es watch acts =>
      refine ⟨u, rfl, (Task.does_of_next? acts).same.1, fun ended => ?_⟩
      rw [Task.next?_of_finished ended i] at acts
      contradiction
  · have duty := attends.duties n
    rw [hm] at duty
    generalize s'.world.monitors.get? n = after at duty ⊢
    cases duty with
    | rests => exact ⟨m, rfl, rfl, id⟩
    | stopped => exact ⟨m.stop, rfl, rfl, id⟩
    | @acts _ m' i es called acts =>
      have does := Monitor.does_of_next? acts
      refine ⟨m', rfl, does.alike.groupId, fun ended => ?_⟩
      rw [does.running] at ended
      contradiction

/-! ### New tasks and groups -/

theorem roll_spawnTask {owned : Table TaskId Nat} (placed : s.world.Placed) (monitor : Nat)
    (retailer : String) (c : TaskConfig) (roll : s.world.Roll g owned) :
    (s.spawnTask g monitor retailer c).2.2.world.Roll g
      (owned.put (s.spawnTask g monitor retailer c).1 (s.spawnTask g monitor retailer c).2.1) := by
  have added := (World.addTask_eq placed (.new ⟨s.ids.taskId s.ids.tasks, g, retailer, c.credential,
    c.profile, c.proxy⟩ c.retry.decide) monitor).2.2
  refine ⟨Table.nodup_put _ _ _ roll.apart, fun {t k} hk => ?_⟩
  rcases Table.get?_of_put hk with ⟨rfl, rfl⟩ | ⟨-, hk⟩
  · exact ⟨_, (added _).trans (if_pos rfl), rfl, rfl⟩
  · obtain ⟨u, hu, named⟩ := roll.named hk
    have lt := placed.lt hu
    exact ⟨u, (added k).trans ((if_neg (by omega)).trans hu), named⟩

theorem roll_spawnTasks {owned : Table TaskId Nat} (placed : s.world.Placed) (monitor : Nat)
    (retailer : String) (cs : List TaskConfig) (roll : s.world.Roll g owned) :
    (s.spawnTasks g monitor retailer owned cs).2.world.Roll g
      (s.spawnTasks g monitor retailer owned cs).1 := by
  induction cs generalizing s owned with
  | nil => exact roll
  | cons c cs ih =>
    exact ih (World.addTask_eq placed _ monitor).1 (roll_spawnTask placed monitor retailer c roll)

theorem enrolled_startGroup {c : GroupConfig} (custody : s.Custody)
    (attends : Attends o s s' seen) (h : s.startGroup c = .ok (g, s', seen)) :
    s'.world.Enrolled g ⟨c, s.world.openFeed.1, (s.spawned c).1⟩ := by
  obtain ⟨rfl, still, groups, -⟩ := startGroup_frame h
  have empty : s.opened.world.Roll (s.ids.groupId s.ids.groups) [] :=
    ⟨List.nodup_nil, fun hk => by contradiction⟩
  have roll : (s.spawned c).2.world.Roll (s.ids.groupId s.ids.groups) (s.spawned c).1 :=
    roll_spawnTasks (s := s.opened) custody.service.laid.placed _ _ _ empty
  refine ⟨roll.still still.buyers, attends.service.groups _ ⟨c, s.world.openFeed.1, (s.spawned c).1⟩ ?_⟩
  rw [groups]
  exact Table.get?_put_self ..

/-! ### The desk -/

theorem answers_act {m : Move} (h : s.act? m = some (s', seen)) : s'.answers = s.answers := by
  obtain ⟨⟨w, seen⟩, -, h⟩ := Option.map_eq_some_iff.1 h
  obtain ⟨rfl, rfl⟩ := Prod.ext_iff.1 h
  dsimp only
  split <;> rfl

theorem answers_spawnTasks (g : GroupId) (monitor : Nat) (retailer : String)
    (owned : Table TaskId Nat) (cs : List TaskConfig) :
    (s.spawnTasks g monitor retailer owned cs).2.answers = s.answers := by
  induction cs generalizing s owned with
  | nil => rfl
  | cons c cs ih => exact ih _

theorem answers_startGroup {c : GroupConfig} (h : s.startGroup c = .ok (g, s', seen)) :
    s'.answers = s.answers := by
  obtain ⟨-, hs⟩ := startGroup_ok h
  obtain ⟨rfl, -⟩ := Prod.ext_iff.1 hs
  exact answers_spawnTasks (s := s.opened) ..

theorem answers_addTask {c : TaskConfig} (h : s.addTask g c = .ok (t, s')) :
    s'.answers = s.answers := by
  obtain ⟨group, -, rfl⟩ := addTask_ok h
  rfl

theorem answers_stopTask {call : Nat} (h : s.stopTask t = .ok (call, s', seen)) :
    s'.answers = s.answers := by
  unfold stopTask at h
  split at h
  · contradiction
  · simp only [Except.ok.injEq, Prod.mk.injEq] at h
    obtain ⟨-, rfl, -⟩ := h
    rfl

theorem answers_stopGroup {call : Nat} (h : s.stopGroup g = .ok (call, s', seen)) :
    s'.answers = s.answers := by
  unfold stopGroup at h
  split at h
  · contradiction
  · simp only [Except.ok.injEq, Prod.mk.injEq] at h
    obtain ⟨-, rfl, -⟩ := h
    rfl

theorem answers_shutdown (h : s.closed = false) : s.shutdown.2.1.answers = s.answers := by
  simp only [shutdown, h, Bool.false_eq_true, if_false]
  rfl

/-- A call takes a task, a group or all groups off the lists. -/
inductive Takes (s s' : Supervisor) : Call → Prop
  | task {g : GroupId} {t : TaskId} {k : Nat} (owner : s.owner? t = some (g, k))
    (groups : s'.groups = s.groups.modify g fun group =>
      { group with tasks := group.tasks.erase t }) : Takes s s' (.stopTask t k)
  | group {g : GroupId} {group : Group} (running : s.groups.get? g = some group)
    (groups : s'.groups = s.groups.erase g) : Takes s s' (.stopGroup g group)
  | everything (groups : s'.groups = []) : Takes s s' (.shutdown s.groups [])

/-- What a step is to the lists and the calls. -/
inductive Deals (s s' : Supervisor) (o : Occasion) (seen : List Happening) : Prop
  | rests (groups : s'.groups = s.groups) (pending : s'.pending = s.pending)
    (nextCall : s'.nextCall = s.nextCall) (answers : s'.answers = s.answers)
  /-- New tasks are listed beside those that are there. -/
  | enlists {g : GroupId} {group : Group} (groups : s'.groups = s.groups.put g group)
    (enrolled : s'.world.Enrolled g group)
    (kept : ∀ {t k}, s.listed? g t = some k → group.tasks.get? t = some k)
    (new : ∀ {t k}, group.tasks.get? t = some k → s.listed? g t = some k ∨ s.world.task? k = none)
    (pending : s'.pending = s.pending) (nextCall : s'.nextCall = s.nextCall)
    (answers : s'.answers = s.answers)
  | files {c : Call} (takes : Takes s s' c) (pending : s'.pending = s.pending.put s.nextCall c)
    (nextCall : s'.nextCall = s.nextCall + 1) (answers : s'.answers = s.answers)
  /-- A shutdown that has nothing to do is answered at once. -/
  | declines (groups : s'.groups = s.groups) (pending : s'.pending = s.pending.erase s.nextCall)
    (nextCall : s'.nextCall = s.nextCall + 1)
    (answers : s'.answers = s.answers.put s.nextCall (.reports []))
  | settles {n : Nat} (called : o = .settle n) (settles : Settles s n s' seen)

theorem deals_startGroup {c : GroupConfig} (rolls : s.Rolls) (custody : s.Custody)
    (fresh : s'.Fresh) (attends : Attends o s s' seen) (h : s.startGroup c = .ok (g, s', seen)) :
    Deals s s' o seen := by
  have enrolled := enrolled_startGroup custody attends h
  obtain ⟨-, pending, nextCall⟩ :=
    desk_eq_iff.1 (desk_startGroup custody.service.laid custody.lined h).1
  obtain ⟨rfl, -, groups, -, ids⟩ := startGroup_frame h
  have apart : ∀ i, i < s.ids.groups → s.ids.groupId i ≠ s.ids.groupId s.ids.groups := by
    intro i hi
    have apart := fresh.groups i s.ids.groups hi
    rw [ids] at apart
    exact apart (Nat.lt_succ_self _)
  refine .enlists groups enrolled (fun {t k} hk => ?_) (fun {t k} hk => .inr ?_) pending nextCall
    (answers_startGroup h)
  · rw [listed?, (custody.staffed.unissued apart).1] at hk
    contradiction
  · -- The group of an old task is an old group.
    cases before : s.world.task? k with
    | none => rfl
    | some u =>
      obtain ⟨v, hv, -, belongs⟩ := enrolled.roll.named hk
      obtain ⟨v', hv', same, -⟩ := attends.lasts.tasks before
      obtain rfl := Option.some.inj (hv.symm.trans hv')
      obtain ⟨b, hb, rfl⟩ := Option.map_eq_some_iff.1 before
      obtain ⟨m, hm, leads⟩ := custody.service.buyers k b hb
      obtain ⟨i, hi, issued⟩ := rolls.issued hm
      exact absurd (issued.trans (leads.trans (same ▸ belongs))) (apart i hi)

theorem deals_addTask {c : TaskConfig} (rolls : s.Rolls) (custody : s.Custody) (fresh : s'.Fresh)
    (attends : Attends o s s' seen) (h : s.addTask g c = .ok (t, s')) : Deals s s' o seen := by
  obtain ⟨-, pending, nextCall⟩ := desk_eq_iff.1 (desk_addTask h)
  have answers := answers_addTask h
  obtain ⟨group, hg, rfl⟩ := addTask_ok h
  have crew := custody.staffed.crew
  obtain ⟨roll, m, hm, leads⟩ := rolls.running hg
  have enrolled := roll_spawnTask crew.placed group.monitor group.config.retailer c roll
  refine .enlists rfl ⟨enrolled, m, hm, leads⟩ (fun {t k} hk => ?_) (fun {t k} hk => ?_) pending
    nextCall answers
  · rw [listed?, hg] at hk
    refine (Table.get?_put ..).trans ((if_neg ?_).trans hk)
    obtain ⟨u, hu, rfl, -⟩ := roll.named hk
    rw [crew.named hu]
    have lt := crew.placed.lt hu
    rw [crew.count] at lt
    exact (fresh.tasks k _ lt (Nat.lt_succ_self _)).symm
  · rcases Table.get?_of_put hk with ⟨-, rfl⟩ | ⟨-, hk⟩
    · refine .inr (Option.not_isSome_iff_eq_none.1 fun there => ?_)
      obtain ⟨u, hu⟩ := Option.isSome_iff_exists.1 there
      exact Nat.lt_irrefl _ (crew.placed.lt hu)
    · rw [listed?, hg]
      exact .inl hk

theorem deals_of_take? (rolls : s.Rolls) (custody : s.Custody) (fresh : s'.Fresh)
    (h : s.take? o = some (s', seen)) : Deals s s' o seen := by
  have attends := attends_of_take? custody.service h
  cases grants_of_take? h with
  | settle settles => exact .settles rfl settles
  | act acts =>
    obtain ⟨-, pending, nextCall⟩ := desk_eq_iff.1 (desk_act acts).1
    obtain ⟨w, -, -, groups, -⟩ := act?_ok acts
    exact .rests groups pending nextCall (answers_act acts)
  | startGroup ok => exact deals_startGroup rolls custody fresh attends ok
  | addTask ok => exact deals_addTask rolls custody fresh attends ok
  | stopTask ok =>
    obtain ⟨g, n, owner, -, -, -, groups, pending, -, -, nextCall⟩ := stopTask_ok ok
    exact .files (.task owner groups) pending nextCall (answers_stopTask ok)
  | stopGroup ok =>
    obtain ⟨group, as, hg, -, -, -, -, groups, pending, -, -, nextCall⟩ := stopGroup_ok ok
    exact .files (.group hg groups) pending nextCall (answers_stopGroup ok)
  | shutdown =>
    cases hc : s.closed with
    | true =>
      rw [shutdown_closed hc]
      exact .declines rfl rfl rfl rfl
    | false =>
      obtain ⟨as, -, -, -, -, groups, pending, -, -, nextCall⟩ := shutdown_open hc
      exact .files (.everything groups) pending nextCall (answers_shutdown hc)

/-- Only a call that is pending is carried on. -/
theorem Settles.pending (settles : Settles s n s' seen) : ∃ c, s.pending.get? n = some c := by
  cases settles with
  | stopTask pending | stopGroup pending | close pending | wind pending => exact ⟨_, pending⟩

/-- Until it is carried on, a call stands as it was filed or answered. -/
theorem Deals.elsewhere (deals : Deals s s' o seen) (lt : n < s.nextCall) (other : o ≠ .settle n) :
    s'.pending.get? n = s.pending.get? n ∧ s'.answers.get? n = s.answers.get? n := by
  cases deals with
  | rests _ pending _ answers | enlists _ _ _ _ pending _ answers => exact ⟨by rw [pending], by rw [answers]⟩
  | files _ pending _ answers =>
    rw [pending, answers, Table.get?_put, if_neg (by omega)]
    exact ⟨rfl, rfl⟩
  | declines _ pending _ answers =>
    rw [pending, answers, Table.get?_put, Table.get?_erase, if_neg (by omega), if_neg (by omega)]
    exact ⟨rfl, rfl⟩
  | @settles m called settles =>
    have apart : m ≠ n := fun same => other (same ▸ called)
    cases settles with
    | stopTask | stopGroup | close =>
      exact ⟨(Table.get?_erase ..).trans (if_neg apart), (Table.get?_put ..).trans (if_neg apart)⟩
    | wind => exact ⟨(Table.get?_put ..).trans (if_neg apart), rfl⟩

theorem Deals.count (deals : Deals s s' o seen) : s.nextCall ≤ s'.nextCall := by
  cases deals with
  | rests _ _ nextCall | enlists _ _ _ _ _ nextCall => exact Nat.le_of_eq nextCall.symm
  | files _ _ nextCall | declines _ _ nextCall => omega
  | settles _ settles => cases settles <;> exact Nat.le_refl _

/-! ### Steps -/

/-- The owner of a task lists it. -/
theorem listed_of_owner? (groups : s.groups.keys.Nodup) (owner : s.owner? t = some (g, k)) :
    s.listed? g t = some k := by
  obtain ⟨⟨g', group⟩, there, found⟩ := List.exists_of_findSome?_eq_some owner
  obtain ⟨k', listed, same⟩ := Option.map_eq_some_iff.1 found
  obtain ⟨rfl, rfl⟩ := Prod.mk.inj same
  rw [listed?, Table.get?_of_mem groups there]
  exact listed

/-- What is taken off the lists is in order. -/
theorem Takes.files {c : Call} (takes : Takes s s' c) (rolls : s.Rolls) : s.world.Files c := by
  cases takes with
  | task owner =>
    obtain ⟨group, hg, listed⟩ := Option.bind_eq_some_iff.1 (listed_of_owner? rolls.groups owner)
    obtain ⟨u, hu, named, -⟩ := (rolls.running hg).roll.named listed
    exact ⟨u, hu, named⟩
  | group running => exact rolls.running running
  | everything => exact ⟨rolls.groups, fun e he => rolls.running (Table.get?_of_mem rolls.groups he)⟩

/-- The groups that are listed are in order. -/
theorem Deals.running (deals : Deals s s' o seen) (rolls : s.Rolls)
    (lasts : s.world.Lasts s'.world) :
    s'.groups.keys.Nodup ∧
      ∀ {g group}, s'.groups.get? g = some group → s'.world.Enrolled g group := by
  have same : s'.groups = s.groups → s'.groups.keys.Nodup ∧
      ∀ {g group}, s'.groups.get? g = some group → s'.world.Enrolled g group := by
    intro groups
    rw [groups]
    exact ⟨rolls.groups, fun hg => (rolls.running hg).mono lasts⟩
  cases deals with
  | rests groups | declines groups => exact same groups
  | settles _ settles => exact same (settles_frame settles).1
  | enlists groups enrolled =>
    rw [groups]
    refine ⟨Table.nodup_put _ _ _ rolls.groups, fun {g group} hg => ?_⟩
    rcases Table.get?_of_put hg with ⟨rfl, rfl⟩ | ⟨-, hg⟩
    · exact enrolled
    · exact (rolls.running hg).mono lasts
  | files takes =>
    cases takes with
    | everything groups =>
      rw [groups]
      exact ⟨List.nodup_nil, fun hg => by contradiction⟩
    | group _ groups =>
      rw [groups]
      exact ⟨Table.nodup_erase _ _ rolls.groups,
        fun hg => (rolls.running (Table.get?_of_erase hg)).mono lasts⟩
    | task _ groups =>
      rw [groups]
      refine ⟨Table.nodup_modify _ _ _ rolls.groups, fun {g group} hg => ?_⟩
      rw [Table.get?_modify] at hg
      split at hg
      · obtain ⟨before, found, rfl⟩ := Option.map_eq_some_iff.1 hg
        obtain ⟨roll, leads⟩ := (rolls.running found).mono lasts
        exact ⟨⟨Table.nodup_erase _ _ roll.apart, fun hk => roll.named (Table.get?_of_erase hk)⟩,
          leads⟩
      · exact (rolls.running hg).mono lasts

/-- What the pending calls have taken along is in order. -/
theorem Deals.calls (deals : Deals s s' o seen) (rolls : s.Rolls) (lasts : s.world.Lasts s'.world)
    {c : Call} (pending : s'.pending.get? n = some c) : s'.world.Files c := by
  have old : s.pending.get? n = some c → s'.world.Files c :=
    fun before => (rolls.calls before).mono lasts
  cases deals with
  | rests _ same | enlists _ _ _ _ same => exact old (same ▸ pending)
  | files takes files =>
    rw [files] at pending
    rcases Table.get?_of_put pending with ⟨-, rfl⟩ | ⟨-, pending⟩
    · exact (takes.files rolls).mono lasts
    · exact old pending
  | declines _ erased =>
    rw [erased] at pending
    exact old (Table.get?_of_erase pending)
  | @settles m _ settles =>
    cases settles with
    | stopTask | stopGroup | close => exact old (Table.get?_of_erase pending)
    | @wind g group left reports before =>
      rcases Table.get?_of_put pending with ⟨-, rfl⟩ | ⟨-, pending⟩
      · obtain ⟨apart, enrolled⟩ := rolls.calls before
        exact ⟨(List.nodup_cons.1 apart).2,
          fun e he => (enrolled e (List.mem_cons_of_mem _ he)).mono lasts⟩
      · exact old pending

/-- What is answered is not pending any more. -/
theorem Deals.answered (deals : Deals s s' o seen) (rolls : s.Rolls)
    (numbered : ∀ n c, s.pending.get? n = some c → n < s.nextCall) {a : Answer}
    (answer : s'.answers.get? n = some a) : n < s'.nextCall ∧ s'.pending.get? n = none := by
  cases deals with
  | rests _ pending nextCall answers | enlists _ _ _ _ pending nextCall answers =>
    rw [pending, nextCall]
    exact rolls.answered (answers ▸ answer)
  | files _ pending nextCall answers =>
    obtain ⟨lt, settled⟩ := rolls.answered (answers ▸ answer)
    rw [pending, nextCall, Table.get?_put, if_neg (by omega)]
    exact ⟨by omega, settled⟩
  | declines _ pending nextCall answers =>
    rw [answers] at answer
    rw [pending, nextCall, Table.get?_erase]
    rcases Table.get?_of_put answer with ⟨same, -⟩ | ⟨other, answer⟩
    · exact ⟨by omega, if_pos same⟩
    · obtain ⟨lt, settled⟩ := rolls.answered answer
      exact ⟨by omega, (if_neg other).trans settled⟩
  | @settles m _ settles =>
    cases settles with
    | stopTask before | stopGroup before | close before =>
      rcases Table.get?_of_put answer with ⟨same, -⟩ | ⟨other, answer⟩
      · exact ⟨same ▸ numbered m _ before, (Table.get?_erase ..).trans (if_pos same)⟩
      · obtain ⟨lt, settled⟩ := rolls.answered answer
        exact ⟨lt, (Table.get?_erase ..).trans ((if_neg other).trans settled)⟩
    | wind before =>
      obtain ⟨lt, settled⟩ := rolls.answered answer
      refine ⟨lt, (Table.get?_put ..).trans ((if_neg fun same => ?_).trans settled)⟩
      rw [← same, before] at settled
      contradiction

/-- An answer is never taken back. -/
theorem Deals.keeps (deals : Deals s s' o seen) (rolls : s.Rolls) {a : Answer}
    (answer : s.answers.get? n = some a) : s'.answers.get? n = some a := by
  obtain ⟨lt, settled⟩ := rolls.answered answer
  cases deals with
  | rests _ _ _ same | enlists _ _ _ _ _ _ same | files _ _ _ same => exact same ▸ answer
  | declines _ _ _ put =>
    rw [put, Table.get?_put, if_neg (by omega)]
    exact answer
  | @settles m _ settles =>
    have other : m ≠ n := by
      intro same
      obtain ⟨c, pending⟩ := settles.pending
      rw [same, settled] at pending
      contradiction
    cases settles with
    | stopTask | stopGroup | close => exact (Table.get?_put ..).trans ((if_neg other).trans answer)
    | wind => exact answer

/-- A monitor that was not there before belongs to the group that the step starts. -/
theorem monitor_of_new (custody : s.Custody) (h : s.take? o = some (s', seen)) {m : Monitor}
    (absent : s.world.monitors.get? n = none) (hm : s'.world.monitors.get? n = some m) :
    n = s.world.feeds.length ∧ m.groupId = s.ids.groupId s.ids.groups ∧
      s.ids.groups < s'.ids.groups := by
  have duty := (attends_of_take? custody.service h).duties n
  rw [absent, hm] at duty
  cases duty with
  | @begins c called =>
    subst called
    cases grants_of_take? h with
    | startGroup ok =>
      obtain ⟨-, monitors, -⟩ := startGroup_world custody.service.laid ok
      obtain ⟨rfl, -, -, -, ids⟩ := startGroup_frame ok
      rw [monitors] at hm
      rcases Table.get?_of_put hm with ⟨sits, same⟩ | ⟨-, hm⟩
      · exact ⟨sits.symm, (congrArg Monitor.groupId same).symm,
          by rw [ids]; exact Nat.lt_succ_self _⟩
      · rw [absent] at hm
        contradiction

/-- The monitor of a new group is the only one with the group's id. -/
theorem monitors_of_take? (rolls : s.Rolls) (custody : s.Custody) (fresh : s'.Fresh)
    (h : s.take? o = some (s', seen)) :
    (∀ {n m}, s'.world.monitors.get? n = some m →
      ∃ i, i < s'.ids.groups ∧ s'.ids.groupId i = m.groupId) ∧
      ∀ {m n x y}, s'.world.monitors.get? m = some x → s'.world.monitors.get? n = some y →
        x.groupId = y.groupId → m = n := by
  obtain ⟨-, groupId, -, count⟩ := ids_of_take? h
  have old : ∀ {n x y}, s.world.monitors.get? n = some x → s'.world.monitors.get? n = some y →
      y.groupId = x.groupId ∧ ∃ i, i < s.ids.groups ∧ s.ids.groupId i = y.groupId := by
    intro n x y hx hy
    obtain ⟨y', hy', same, -⟩ := (attends_of_take? custody.service h).lasts.monitors hx
    obtain rfl := Option.some.inj (hy.symm.trans hy')
    exact ⟨same, same ▸ rolls.issued hx⟩
  -- The id of the new group is no earlier one.
  have apart : ∀ {i}, i < s.ids.groups → s.ids.groups < s'.ids.groups →
      s.ids.groupId i ≠ s.ids.groupId s.ids.groups := by
    intro i hi lt
    rw [← groupId]
    exact fresh.groups i _ hi lt
  refine ⟨fun {n y} hy => ?_, fun {m n x y} hx hy same => ?_⟩
  · cases before : s.world.monitors.get? n with
    | none =>
      obtain ⟨-, same, lt⟩ := monitor_of_new custody h before hy
      exact ⟨_, lt, by rw [groupId, same]⟩
    | some x =>
      obtain ⟨-, i, hi, same⟩ := old before hy
      exact ⟨i, Nat.lt_of_lt_of_le hi count, by rw [groupId, same]⟩
  · cases hm : s.world.monitors.get? m with
    | none =>
      obtain ⟨first, newest, lt⟩ := monitor_of_new custody h hm hx
      cases hn : s.world.monitors.get? n with
      | none => exact first.trans (monitor_of_new custody h hn hy).1.symm
      | some =>
        obtain ⟨-, i, hi, belongs⟩ := old hn hy
        exact absurd (belongs.trans (same.symm.trans newest)) (apart hi lt)
    | some =>
      obtain ⟨kept, i, hi, belongs⟩ := old hm hx
      cases hn : s.world.monitors.get? n with
      | none =>
        obtain ⟨-, newest, lt⟩ := monitor_of_new custody h hn hy
        exact absurd (belongs.trans (same.trans newest)) (apart hi lt)
      | some =>
        obtain ⟨kept', -⟩ := old hn hy
        exact rolls.alone hm hn (by rw [← kept, ← kept', same])

theorem Rolls.step (rolls : s.Rolls) (custody : s.Custody) (fresh : s'.Fresh)
    (h : s.take? o = some (s', seen)) : s'.Rolls := by
  have deals := deals_of_take? rolls custody fresh h
  have lasts := (attends_of_take? custody.service h).lasts
  obtain ⟨groups, running⟩ := deals.running rolls lasts
  obtain ⟨issued, alone⟩ := monitors_of_take? rolls custody fresh h
  exact ⟨groups, running, issued, alone, deals.calls rolls lasts,
    deals.answered rolls custody.numbered⟩

theorem rolls_new (registry : Registry Unit) (settings : Settings) (ids : IdSource) :
    (Supervisor.new registry settings ids).Rolls where
  groups := List.nodup_nil
  running hg := by contradiction
  issued hm := by contradiction
  alone hm := by contradiction
  calls hn := by contradiction
  answered hn := by contradiction

theorem rolls_of_trail {registry : Registry Unit} {settings : Settings} {taskId : Nat → TaskId}
    {groupId : Nat → GroupId} {h : List (Leg Supervisor Occasion Happening)}
    (trail : Trail take? (.new registry settings ⟨taskId, groupId, 0, 0⟩) h s) (fresh : s.Fresh) :
    s.Custody ∧ s.Rolls := by
  induction trail with
  | rest => exact ⟨custody_new .., rolls_new ..⟩
  | step past taken ih =>
    obtain ⟨custody, rolls⟩ := ih (fresh.earlier taken)
    exact ⟨custody.step fresh taken, rolls.step custody fresh taken⟩

end

end Supervisor

end Restock
