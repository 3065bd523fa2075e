import Restock.Proofs.World.Tasks
import Restock.Supervisor.Calls

/-! The staff of a supervisor.

`Supervisor.take?` is a supervisor as a machine: an occasion is an act of one of its
activities, a call, or a pending call that is carried on. A task that is not stopped
belongs to a running group, under its own id and at its own place, and a group that
is winding down or wound down does not come back (`Staffed`). So nobody of such a
group goes on with a login election. -/
namespace Restock

namespace Supervisor

/-- What happens to a supervisor. -/
inductive Occasion
  | act (m : Move)
  | startGroup (c : GroupConfig)
  | addTask (g : GroupId) (c : TaskConfig)
  | stopTask (t : TaskId)
  | stopGroup (g : GroupId)
  | shutdown
  /-- A pending call is carried on. -/
  | settle (call : Nat)

/-- A call that is refused changes nothing. -/
def take? (s : Supervisor) : Occasion → Option (Supervisor × List Happening)
  | .act m => s.act? m
  | .startGroup c =>
    match s.startGroup c with
    | .ok (_, s, seen) => some (s, seen)
    | .error _ => none
  | .addTask g c =>
    match s.addTask g c with
    | .ok (_, s) => some (s, [])
    | .error _ => none
  | .stopTask t =>
    match s.stopTask t with
    | .ok (_, s, seen) => some (s, seen)
    | .error _ => none
  | .stopGroup g =>
    match s.stopGroup g with
    | .ok (_, s, seen) => some (s, seen)
    | .error _ => none
  | .shutdown => some s.shutdown.2
  | .settle n => s.settle? n

/-- How a pending call is carried on. -/
inductive Settles (s : Supervisor) (n : Nat) : Supervisor → List Happening → Prop
  | stopTask {t : TaskId} {place : Nat} (pending : s.pending.get? n = some (.stopTask t place))
    (ended : s.world.running (.task place) = false) :
    Settles s n (s.answer n (.task (s.resultOf t place))).tidy []
  | stopGroup {g : GroupId} {group : Group} (pending : s.pending.get? n = some (.stopGroup g group))
    (wound : s.wound group = true) :
    Settles s n
      ((s.collect g group).2.1.answer n (.reports (sortReports (s.collect g group).1))).tidy
      (s.collect g group).2.2
  /-- A shutdown has waited for all its groups. -/
  | close {reports : List TaskReport} (pending : s.pending.get? n = some (.shutdown [] reports)) :
    Settles s n
      ({ s with world := (s.world.publish (.close "supervisor shutdown")).1 }.answer n
        (.reports (sortReports reports)))
      [.published (.close "supervisor shutdown")]
  /-- A shutdown has waited for one more group. -/
  | wind {g : GroupId} {group : Group} {left : List (GroupId × Group)} {reports : List TaskReport}
    (pending : s.pending.get? n = some (.shutdown ((g, group) :: left) reports))
    (wound : s.wound group = true) :
    Settles s n
      { (s.collect g group).2.1 with
        pending := s.pending.put n (.shutdown left (reports ++ (s.collect g group).1)) }
      (s.collect g group).2.2

theorem settles_of_settle? {s s' : Supervisor} {n : Nat} {seen : List Happening}
    (h : s.settle? n = some (s', seen)) : Settles s n s' seen := by
  unfold settle? at h
  split at h
  · contradiction
  · next pending =>
    split at h
    · contradiction
    · next ended =>
      obtain ⟨rfl, rfl⟩ := Prod.ext_iff.1 (Option.some.inj h)
      exact .stopTask pending (by simpa using ended)
  · next pending =>
    split at h
    · next wound =>
      obtain ⟨rfl, rfl⟩ := Prod.ext_iff.1 (Option.some.inj h)
      exact .stopGroup pending wound
    · contradiction
  · next pending =>
    obtain ⟨rfl, rfl⟩ := Prod.ext_iff.1 (Option.some.inj h)
    exact .close pending
  · next pending =>
    split at h
    · next wound =>
      obtain ⟨rfl, rfl⟩ := Prod.ext_iff.1 (Option.some.inj h)
      exact .wind pending wound
    · contradiction

/-- What a supervisor does on each occasion. -/
inductive Grants (s : Supervisor) : Occasion → Supervisor → List Happening → Prop
  | act {m : Move} {s' : Supervisor} {seen : List Happening} (acts : s.act? m = some (s', seen)) :
    Grants s (.act m) s' seen
  | startGroup {c : GroupConfig} {g : GroupId} {s' : Supervisor} {seen : List Happening}
    (ok : s.startGroup c = .ok (g, s', seen)) : Grants s (.startGroup c) s' seen
  | addTask {g : GroupId} {c : TaskConfig} {t : TaskId} {s' : Supervisor}
    (ok : s.addTask g c = .ok (t, s')) : Grants s (.addTask g c) s' []
  | stopTask {t : TaskId} {call : Nat} {s' : Supervisor} {seen : List Happening}
    (ok : s.stopTask t = .ok (call, s', seen)) : Grants s (.stopTask t) s' seen
  | stopGroup {g : GroupId} {call : Nat} {s' : Supervisor} {seen : List Happening}
    (ok : s.stopGroup g = .ok (call, s', seen)) : Grants s (.stopGroup g) s' seen
  | shutdown : Grants s .shutdown s.shutdown.2.1 s.shutdown.2.2
  | settle {n : Nat} {s' : Supervisor} {seen : List Happening} (settles : Settles s n s' seen) :
    Grants s (.settle n) s' seen

theorem grants_of_take? {s s' : Supervisor} {o : Occasion} {seen : List Happening}
    (h : s.take? o = some (s', seen)) : Grants s o s' seen := by
  cases o with
  | act m => exact .act h
  | settle n => exact .settle (settles_of_settle? h)
  | shutdown =>
    obtain ⟨rfl, rfl⟩ := Prod.ext_iff.1 (Option.some.inj h)
    exact .shutdown
  | startGroup | addTask | stopTask | stopGroup =>
    simp only [take?] at h
    split at h
    · next ok =>
      obtain ⟨rfl, rfl⟩ := Prod.ext_iff.1 (Option.some.inj h)
      constructor
      exact ok
    · contradiction

/-- Where a running group has one of its tasks. -/
def listed? (s : Supervisor) (g : GroupId) (t : TaskId) : Option Nat :=
  (s.groups.get? g).bind fun group => group.tasks.get? t

end Supervisor

/-- The groups that a pending call winds down. -/
def Call.groups : Call → List GroupId
  | .stopTask .. => []
  | .stopGroup g _ => [g]
  | .shutdown left _ => left.map (·.1)

namespace Supervisor

def winding (s : Supervisor) (g : GroupId) : Prop :=
  ∃ n c, s.pending.get? n = some c ∧ g ∈ c.groups

/-- The group was started and is not running any more. -/
def Closed (s : Supervisor) (g : GroupId) : Prop :=
  (∃ i, i < s.ids.groups ∧ s.ids.groupId i = g) ∧ s.groups.get? g = none

/-- The ids that were given out so far are all different. -/
structure Fresh (s : Supervisor) : Prop where
  tasks : ∀ i j, i < j → j < s.ids.tasks → s.ids.taskId i ≠ s.ids.taskId j
  groups : ∀ i j, i < j → j < s.ids.groups → s.ids.groupId i ≠ s.ids.groupId j

/-- Tasks have their places and ids by the order in which they came, and those that
are not stopped are listed. -/
structure Crew (w : World) (taskId : Nat → TaskId) (tasks : Nat)
    (listed? : GroupId → TaskId → Option Nat) : Prop where
  placed : w.Placed
  count : w.buyers.length = tasks
  named : ∀ {n : Nat} {t : Task}, w.task? n = some t → t.context.taskId = taskId n
  listed : ∀ {n : Nat} {t : Task}, w.task? n = some t → t.stopping = false →
    listed? t.context.groupId t.context.taskId = some n

/-- Lists with other tasks for one group. -/
def listing (listed? : GroupId → TaskId → Option Nat) (g : GroupId) (owned : Table TaskId Nat) :
    GroupId → TaskId → Option Nat :=
  fun g' t => if g' = g then owned.get? t else listed? g' t

theorem listing_self (listed? : GroupId → TaskId → Option Nat) (g : GroupId)
    (owned : Table TaskId Nat) (t : TaskId) : listing listed? g owned g t = owned.get? t :=
  if_pos rfl

theorem listing_other {listed? : GroupId → TaskId → Option Nat} {g g' : GroupId}
    {owned : Table TaskId Nat} {t : TaskId} (h : g' ≠ g) :
    listing listed? g owned g' t = listed? g' t := if_neg h

theorem listing_eq {listed? : GroupId → TaskId → Option Nat} {g : GroupId}
    {owned : Table TaskId Nat} (h : ∀ t, listed? g t = owned.get? t) :
    listing listed? g owned = listed? := by
  funext g' t
  by_cases hg : g' = g
  · rw [hg, listing_self, h]
  · exact listing_other hg

/-- What becomes of a task while others act: it rests, or its flag is raised; a place
that was empty may get a task that has not begun. -/
inductive Rests : Option Task → Option Task → Prop
  | same (t : Option Task) : Rests t t
  | stopped (t : Task) : Rests (some t) (some t.stop)
  | new {t : Task} (phase : t.phase = .fresh) (guard : t.guard = none) : Rests none (some t)

/-- The pool is as it was, and every task rests. -/
structure Calm (w w' : World) : Prop where
  pool : w'.pool = w.pool
  tasks : ∀ n, Rests (w.task? n) (w'.task? n)

structure Staffed (s : Supervisor) : Prop where
  crew : Crew s.world s.ids.taskId s.ids.tasks s.listed?
  issued : ∀ {g : GroupId} {group : Group}, s.groups.get? g = some group →
    ∃ i, i < s.ids.groups ∧ s.ids.groupId i = g
  winds : ∀ {g : GroupId}, s.winding g → s.Closed g

section
variable {w w' : World} {taskId : Nat → TaskId} {tasks : Nat}
  {listed? listed'? : GroupId → TaskId → Option Nat}

namespace Crew

/-- A new task is listed under its id, which is new. -/
theorem join (crew : Crew w taskId tasks listed?) (fresh : ∀ i, i < tasks → taskId i ≠ taskId tasks)
    {c : TaskContext} (d : Decider) (feed : Nat) (named : c.taskId = taskId tasks)
    (lists : listed'? c.groupId c.taskId = some tasks)
    (others : ∀ g t, t ≠ c.taskId → listed'? g t = listed? g t) :
    Crew (w.addTask (.new c d) feed).2 taskId (tasks + 1) listed'? := by
  obtain ⟨placed, length, added⟩ := World.addTask_eq crew.placed (.new c d) feed
  have count := crew.count
  refine ⟨placed, by rw [length, count], fun {n t} ht => ?_, fun {n t} ht flag => ?_⟩
  · rw [added, count] at ht
    split at ht
    · next hn =>
      obtain rfl := Option.some.inj ht
      rw [← hn]
      exact named
    · exact crew.named ht
  · rw [added, count] at ht
    split at ht
    · next hn =>
      obtain rfl := Option.some.inj ht
      rw [← hn]
      exact lists
    · have lt := crew.placed.lt ht
      rw [count] at lt
      rw [others _ _ (by rw [crew.named ht, named]; exact fresh n lt)]
      exact crew.listed ht flag

/-- Only tasks whose flags are raised may be taken off the lists. -/
theorem stop (crew : Crew w taskId tasks listed?) (as : List Activity)
    (keys : w'.buyers.keys = w.buyers.keys)
    (raised : ∀ n, w'.task? n = if .task n ∈ as then (w.task? n).map Task.stop else w.task? n)
    (lists : ∀ {n : Nat} {t : Task}, w.task? n = some t →
      listed? t.context.groupId t.context.taskId = some n →
      listed'? t.context.groupId t.context.taskId = some n ∨ .task n ∈ as) :
    Crew w' taskId tasks listed'? := by
  refine ⟨crew.placed.congr keys, (World.length_congr keys).trans crew.count,
    fun {n t} ht => ?_, fun {n t} ht flag => ?_⟩
  · rw [raised] at ht
    split at ht
    · obtain ⟨v, hv, rfl⟩ := Option.map_eq_some_iff.1 ht
      have named := crew.named hv
      exact named
    · exact crew.named ht
  · rw [raised] at ht
    split at ht
    · obtain ⟨t, -, rfl⟩ := Option.map_eq_some_iff.1 ht
      contradiction
    · next hn => exact (lists ht (crew.listed ht flag)).resolve_right hn

theorem still (crew : Crew w taskId tasks listed?) (buyers : w'.buyers = w.buyers) :
    Crew w' taskId tasks listed? := by
  refine crew.stop [] (by rw [buyers]) (fun n => ?_) fun _ h => .inl h
  rw [if_neg List.not_mem_nil]
  exact World.task?_congr buyers n

theorem turn (crew : Crew w taskId tasks listed?) {n : Nat} {seen : List Happening} {t u : Task}
    {i : Task.Signal} {es : List Task.Effect} {p : Pool}
    (turn : World.Turn w n w' seen t u i es p) : Crew w' taskId tasks listed? := by
  obtain ⟨context, -, stopping⟩ := (Task.does_of_next? turn.acts).same
  refine ⟨crew.placed.congr turn.keys, (World.length_congr turn.keys).trans crew.count,
    fun {m v} hv => ?_, fun {m v} hv flag => ?_⟩
  · rw [turn.tasks] at hv
    split at hv
    · next hm =>
      obtain rfl := Option.some.inj hv
      subst hm
      rw [context]
      exact crew.named turn.task
    · exact crew.named hv
  · rw [turn.tasks] at hv
    split at hv
    · next hm =>
      obtain rfl := Option.some.inj hv
      subst hm
      rw [context]
      exact crew.listed turn.task (stopping ▸ flag)
    · exact crew.listed hv flag

end Crew

end

/-! ### New tasks -/

theorem Rests.trans {t u v : Option Task} (h : Rests t u) (h' : Rests u v) : Rests t v := by
  cases h with
  | same => exact h'
  | stopped t =>
    cases h' with
    | same => exact .stopped t
    | stopped => exact .stopped t
  | new phase guard =>
    cases h' with
    | same => exact .new phase guard
    | stopped => exact .new phase guard

theorem Calm.trans {w w' w'' : World} (h : Calm w w') (h' : Calm w' w'') : Calm w w'' :=
  ⟨h'.pool.trans h.pool, fun n => (h.tasks n).trans (h'.tasks n)⟩

theorem rests_of_buyers {w w' : World} (buyers : w'.buyers = w.buyers) (n : Nat) :
    Rests (w.task? n) (w'.task? n) := by
  rw [World.task?_congr buyers]
  exact .same _

theorem calm_still {w w' : World} {seen : List Happening} (h : World.Still w w' seen) :
    Calm w w' := ⟨h.pool, rests_of_buyers h.buyers⟩

theorem calm_addTask {w : World} (placed : w.Placed) (c : TaskContext) (d : Decider) (feed : Nat) :
    Calm w (w.addTask (.new c d) feed).2 := by
  obtain ⟨-, -, added⟩ := World.addTask_eq placed (.new c d) feed
  refine ⟨rfl, fun n => ?_⟩
  rw [added]
  split
  · next hn =>
    cases ht : w.task? n with
    | none => exact .new rfl rfl
    | some t => exact absurd (placed.lt ht) (by omega)
  · exact .same _

section
variable {s : Supervisor} {g : GroupId} {monitor : Nat} {retailer : String}

theorem spawnTasks_frame (owned : Table TaskId Nat) (cs : List TaskConfig) :
    (s.spawnTasks g monitor retailer owned cs).2.groups = s.groups ∧
      (s.spawnTasks g monitor retailer owned cs).2.pending = s.pending ∧
      (s.spawnTasks g monitor retailer owned cs).2.ids =
        { s.ids with tasks := s.ids.tasks + cs.length } := by
  induction cs generalizing s owned with
  | nil => exact ⟨rfl, rfl, rfl⟩
  | cons c cs ih =>
    obtain ⟨hg, hp, hi⟩ := @ih (s.spawnTask g monitor retailer c).2.2
      (owned.put (s.spawnTask g monitor retailer c).1 (s.spawnTask g monitor retailer c).2.1)
    refine ⟨hg, hp, hi.trans ?_⟩
    simp only [spawnTask, IdSource.nextTask, List.length_cons]
    congr 1
    omega

/-- A new task joins the tasks that its group is to own. -/
theorem crew_spawnTask (monitor : Nat) (retailer : String)
    {listed? : GroupId → TaskId → Option Nat} {owned : Table TaskId Nat}
    (crew : Crew s.world s.ids.taskId s.ids.tasks (listing listed? g owned)) (c : TaskConfig)
    (fresh : ∀ i, i < s.ids.tasks → s.ids.taskId i ≠ s.ids.taskId s.ids.tasks) :
    Crew (s.spawnTask g monitor retailer c).2.2.world s.ids.taskId (s.ids.tasks + 1)
      (listing listed? g (owned.put (s.spawnTask g monitor retailer c).1
        (s.spawnTask g monitor retailer c).2.1)) := by
  refine crew.join fresh _ monitor rfl ?_ fun g' t ht => ?_
  · rw [listing_self, Table.get?_put]
    exact (if_pos rfl).trans (congrArg some crew.count)
  · by_cases hg : g' = g
    · rw [hg, listing_self, listing_self, Table.get?_put]
      exact if_neg (Ne.symm ht)
    · rw [listing_other hg, listing_other hg]

theorem crew_spawnTasks {listed? : GroupId → TaskId → Option Nat} (owned : Table TaskId Nat)
    (cs : List TaskConfig)
    (crew : Crew s.world s.ids.taskId s.ids.tasks (listing listed? g owned))
    (fresh : ∀ i j, i < j → j < s.ids.tasks + cs.length → s.ids.taskId i ≠ s.ids.taskId j) :
    Crew (s.spawnTasks g monitor retailer owned cs).2.world s.ids.taskId
        (s.ids.tasks + cs.length)
        (listing listed? g (s.spawnTasks g monitor retailer owned cs).1) ∧
      Calm s.world (s.spawnTasks g monitor retailer owned cs).2.world := by
  induction cs generalizing s owned with
  | nil => exact ⟨crew, rfl, fun n => .same _⟩
  | cons c cs ih =>
    rw [List.length_cons] at fresh ⊢
    have first := crew_spawnTask monitor retailer crew c
      fun i hi => fresh i _ hi (by omega)
    have rest : ∀ i j, i < j → j < s.ids.tasks + 1 + cs.length → s.ids.taskId i ≠ s.ids.taskId j :=
      fun i j hij hj => fresh i j hij (by omega)
    obtain ⟨crew', calm⟩ := @ih (s.spawnTask g monitor retailer c).2.2 _ first rest
    refine ⟨?_, (calm_addTask crew.placed _ _ monitor).trans calm⟩
    have length : s.ids.tasks + (cs.length + 1) = s.ids.tasks + 1 + cs.length := by omega
    rw [length]
    exact crew'

end

/-! ### Calls and acts -/

section
variable {s s' : Supervisor} {seen : List Happening} {g : GroupId}

theorem act?_ok {m : Move} (h : s.act? m = some (s', seen)) :
    ∃ w, s.world.step? m = some (w, seen) ∧ s'.world = w ∧ s'.groups = s.groups ∧
      s'.pending = s.pending ∧ s'.ids = s.ids := by
  obtain ⟨⟨w, seen⟩, hw, h⟩ := Option.map_eq_some_iff.1 h
  obtain ⟨rfl, rfl⟩ := Prod.ext_iff.1 h
  refine ⟨w, hw, ?_⟩
  dsimp only
  split <;> exact ⟨rfl, rfl, rfl, rfl⟩

theorem enlist_frame (s : Supervisor) (g : GroupId) (group : Group) :
    World.Still s.world (s.enlist g group).1.world (s.enlist g group).2 ∧
      (s.enlist g group).1.groups = s.groups.put g group ∧
      (s.enlist g group).1.pending = s.pending ∧ (s.enlist g group).1.ids = s.ids := by
  cases hg : s.groups.get? g with
  | none =>
    simp only [enlist, hg]
    exact ⟨⟨rfl, rfl, rfl⟩, rfl, rfl, rfl⟩
  | some old =>
    simp only [enlist, hg]
    exact ⟨World.still_leaveFeed .., rfl, rfl, rfl⟩

/-- A supervisor with a new group that has no task yet. -/
def opened (s : Supervisor) : Supervisor :=
  { s with
    ids := s.ids.nextGroup.2, world := s.world.openFeed.2
    lineup := s.lineup.joinGroup s.world.openFeed.1 }

/-- The tasks of a new group, and the supervisor that has put them to work. -/
def spawned (s : Supervisor) (c : GroupConfig) : Table TaskId Nat × Supervisor :=
  s.opened.spawnTasks s.ids.nextGroup.1 s.world.openFeed.1 c.retailer [] c.tasks

theorem startGroup_ok {c : GroupConfig} (h : s.startGroup c = .ok (g, s', seen)) :
    g = s.ids.groupId s.ids.groups ∧
      (s', seen) = { (s.spawned c).2 with
        world := (s.spawned c).2.world.addMonitor s.world.openFeed.1 (.ofConfig g c) }.enlist g
          ⟨c, s.world.openFeed.1, (s.spawned c).1⟩ := by
  unfold startGroup at h
  simp only [bind, Except.bind, throw, throwThe, MonadExceptOf.throw] at h
  split at h
  · contradiction
  split at h
  · contradiction
  split at h
  · contradiction
  split at h
  · contradiction
  simp only [pure, Except.pure, Except.ok.injEq, Prod.mk.injEq] at h
  obtain ⟨rfl, h⟩ := h
  exact ⟨rfl, h.symm⟩

theorem addTask_ok {c : TaskConfig} {t : TaskId} (h : s.addTask g c = .ok (t, s')) :
    ∃ group, s.groups.get? g = some group ∧
      s' = { (s.spawnTask g group.monitor group.config.retailer c).2.2 with
        groups := s.groups.put g { group with
          tasks := group.tasks.put (s.ids.taskId s.ids.tasks) s.world.buyers.length } }.tidy := by
  unfold addTask at h
  simp only [bind, Except.bind, throw, throwThe, MonadExceptOf.throw] at h
  split at h
  · contradiction
  split at h
  · contradiction
  · next group hg =>
    simp only [pure, Except.pure, Except.ok.injEq, Prod.mk.injEq] at h
    exact ⟨group, hg, h.2.symm⟩

/-- What a step of a supervisor is to the pool and the tasks. -/
inductive Shift (s s' : Supervisor) (seen : List Happening) : Prop
  | trade {n : Nat} {t u : Task} {i : Task.Signal} {es : List Task.Effect} {p : Pool}
    (turn : World.Turn s.world n s'.world seen t u i es p)
  | calm (calm : Calm s.world s'.world) (auths : authsAmong seen = [])
  | forget {g : GroupId} (closed : s.Closed g)
    (pool : s'.world.pool = (s.world.pool.removeGroup g).1)
    (buyers : s'.world.buyers = s.world.buyers) (auths : authsAmong seen = [])

structure Advance (s s' : Supervisor) (seen : List Happening) : Prop where
  staffed : s'.Staffed
  closed : ∀ g, s.Closed g → s'.Closed g
  shift : Shift s s' seen

/-- With the same groups and no new calls the staff is what it was. -/
theorem Staffed.advance (staffed : s.Staffed) (groups : s'.groups = s.groups)
    (ids : s'.ids = s.ids) (winding : ∀ g, s'.winding g → s.winding g)
    (crew : Crew s'.world s.ids.taskId s.ids.tasks s.listed?) (shift : Shift s s' seen) :
    Advance s s' seen := by
  have closed : ∀ g, s.Closed g → s'.Closed g := by
    intro g hg
    unfold Closed
    rw [ids, groups]
    exact hg
  have listed : s'.listed? = s.listed? := by
    funext g t
    rw [listed?, groups]
    rfl
  refine ⟨⟨?_, fun {g group} hg => ?_, fun {g} hg => closed g (staffed.winds (winding g hg))⟩,
    closed, shift⟩
  · rw [ids, listed]
    exact crew
  · rw [groups] at hg
    rw [ids]
    exact staffed.issued hg

theorem advance_act {m : Move} (staffed : s.Staffed) (h : s.act? m = some (s', seen)) :
    Advance s s' seen := by
  obtain ⟨w, hw, rfl, groups, pending, ids⟩ := act?_ok h
  have winding : ∀ g, s'.winding g → s.winding g := by
    intro g hg
    unfold winding at hg
    rwa [pending] at hg
  cases m with
  | monitor n i =>
    have still := World.still_of_stepMonitor hw
    exact staffed.advance groups ids winding (staffed.crew.still still.buyers)
      (.calm (calm_still still) still.auths)
  | task n m =>
    obtain ⟨t, u, i, es, p, turn⟩ := World.turn_of_stepTask hw
    exact staffed.advance groups ids winding (staffed.crew.turn turn) (.trade turn)

/-- Lists after a group was put in its place. -/
theorem listed?_put {group : Group} (groups : s'.groups = s.groups.put g group) :
    s'.listed? = listing s.listed? g group.tasks := by
  funext g' t
  rw [listed?, groups, Table.get?_put]
  by_cases hg : g = g'
  · subst hg
    rw [if_pos rfl, listing_self]
    rfl
  · rw [if_neg hg, listing_other (Ne.symm hg)]
    rfl

/-- A group that is not closed takes its place among the running ones. -/
theorem Staffed.enlist (staffed : s.Staffed) {group : Group}
    (groups : s'.groups = s.groups.put g group) (pending : s'.pending = s.pending)
    (groupId : s'.ids.groupId = s.ids.groupId) (count : s.ids.groups ≤ s'.ids.groups)
    (issued : ∃ i, i < s'.ids.groups ∧ s.ids.groupId i = g) (running : ¬ s.Closed g)
    (crew : Crew s'.world s'.ids.taskId s'.ids.tasks (listing s.listed? g group.tasks))
    (shift : Shift s s' seen) : Advance s s' seen := by
  have closed : ∀ g, s.Closed g → s'.Closed g := by
    intro g' closed
    obtain ⟨⟨i, hi, hig⟩, gone⟩ := closed
    refine ⟨⟨i, Nat.lt_of_lt_of_le hi count, by rw [groupId]; exact hig⟩, ?_⟩
    rw [groups, Table.get?_put, if_neg]
    · exact gone
    · intro same
      subst same
      exact running ⟨⟨i, hi, hig⟩, gone⟩
  refine ⟨⟨?_, fun {g' group'} hg' => ?_, fun {g'} hg' => ?_⟩, closed, shift⟩
  · rw [listed?_put groups]
    exact crew
  · rw [groups] at hg'
    rw [groupId]
    rcases Table.get?_of_put hg' with ⟨rfl, -⟩ | ⟨-, hg'⟩
    · exact issued
    · obtain ⟨i, hi, hig⟩ := staffed.issued hg'
      exact ⟨i, Nat.lt_of_lt_of_le hi count, hig⟩
  · refine closed g' (staffed.winds ?_)
    unfold winding at hg' ⊢
    rwa [pending] at hg'

/-- The id of a new group was never given out. -/
theorem Staffed.unissued (staffed : s.Staffed)
    (fresh : ∀ i, i < s.ids.groups → s.ids.groupId i ≠ s.ids.groupId s.ids.groups) :
    s.groups.get? (s.ids.groupId s.ids.groups) = none ∧
      ¬ s.Closed (s.ids.groupId s.ids.groups) := by
  constructor
  · cases running : s.groups.get? (s.ids.groupId s.ids.groups) with
    | none => rfl
    | some group =>
      obtain ⟨i, hi, same⟩ := staffed.issued running
      exact absurd same (fresh i hi)
  · intro closed
    obtain ⟨⟨i, hi, same⟩, -⟩ := closed
    exact fresh i hi same

theorem startGroup_frame {c : GroupConfig} (h : s.startGroup c = .ok (g, s', seen)) :
    g = s.ids.groupId s.ids.groups ∧ World.Still (s.spawned c).2.world s'.world seen ∧
      s'.groups = s.groups.put g ⟨c, s.world.openFeed.1, (s.spawned c).1⟩ ∧
      s'.pending = s.pending ∧
      s'.ids = { s.ids with
        tasks := s.ids.tasks + c.tasks.length, groups := s.ids.groups + 1 } := by
  obtain ⟨hg, hs⟩ := startGroup_ok h
  obtain ⟨still, groups, pending, ids⟩ := enlist_frame { (s.spawned c).2 with
    world := (s.spawned c).2.world.addMonitor s.world.openFeed.1 (.ofConfig g c) } g
    ⟨c, s.world.openFeed.1, (s.spawned c).1⟩
  rw [← hs] at still groups pending ids
  obtain ⟨sameGroups, samePending, newIds⟩ : (s.spawned c).2.groups = s.groups ∧
      (s.spawned c).2.pending = s.pending ∧ (s.spawned c).2.ids = _ := spawnTasks_frame [] c.tasks
  exact ⟨hg, ⟨still.pool, still.buyers, still.auths⟩, groups.trans (by rw [sameGroups]),
    pending.trans samePending, ids.trans newIds⟩

theorem advance_startGroup {c : GroupConfig} (staffed : s.Staffed) (fresh : s'.Fresh)
    (h : s.startGroup c = .ok (g, s', seen)) : Advance s s' seen := by
  obtain ⟨rfl, joined, groups, pending, ids⟩ := startGroup_frame h
  obtain ⟨freshTasks, freshGroups⟩ := fresh
  rw [ids] at freshTasks freshGroups
  obtain ⟨absent, running⟩ :=
    staffed.unissued fun i hi => freshGroups i s.ids.groups hi (Nat.lt_succ_self _)
  have begun : Crew s.opened.world s.ids.taskId s.ids.tasks
      (listing s.listed? (s.ids.groupId s.ids.groups) []) := by
    rw [listing_eq fun t => by rw [listed?, absent]; rfl]
    exact staffed.crew.still rfl
  obtain ⟨crew, calm⟩ := @crew_spawnTasks s.opened (s.ids.groupId s.ids.groups)
    s.world.openFeed.1 c.retailer s.listed? [] c.tasks begun freshTasks
  have opening : Calm s.world s.opened.world := ⟨rfl, fun n => .same _⟩
  refine staffed.enlist groups pending (by rw [ids]) (by rw [ids]; exact Nat.le_succ _)
    ⟨s.ids.groups, by rw [ids]; exact Nat.lt_succ_self _, rfl⟩ running ?_
    (.calm ((opening.trans calm).trans (calm_still joined)) joined.auths)
  rw [ids]
  exact crew.still joined.buyers

theorem advance_addTask {c : TaskConfig} {t : TaskId} (staffed : s.Staffed) (fresh : s'.Fresh)
    (h : s.addTask g c = .ok (t, s')) : Advance s s' [] := by
  obtain ⟨group, hg, rfl⟩ := addTask_ok h
  have apart : ∀ i, i < s.ids.tasks → s.ids.taskId i ≠ s.ids.taskId s.ids.tasks :=
    fun i hi => fresh.tasks i s.ids.tasks hi (Nat.lt_succ_self _)
  have begun : Crew s.world s.ids.taskId s.ids.tasks (listing s.listed? g group.tasks) := by
    rw [listing_eq fun t => by rw [listed?, hg]; rfl]
    exact staffed.crew
  refine staffed.enlist rfl rfl rfl (Nat.le_refl _) (staffed.issued hg) ?_
    (crew_spawnTask group.monitor group.config.retailer begun c apart)
    (.calm (calm_addTask staffed.crew.placed ..) rfl)
  intro closed
  obtain ⟨-, gone⟩ := closed
  rw [gone] at hg
  contradiction

/-! ### Stops -/

theorem calm_stop (w : World) (as : List Activity) : Calm w (w.stop as).1 := by
  have raised := w.raised_stop as
  refine ⟨raised.pool, fun n => ?_⟩
  rw [raised.tasks]
  split
  · cases w.task? n with
    | none => exact .same _
    | some t => exact .stopped t
  · exact .same _

/-- Stops that take tasks and groups off the lists reach everybody who was listed. -/
theorem Staffed.dismiss (staffed : s.Staffed) (as : List Activity)
    (world : s'.world = (s.world.stop as).1) (ids : s'.ids = s.ids)
    (groups : ∀ {g group}, s'.groups.get? g = some group → ∃ group, s.groups.get? g = some group)
    (lists : ∀ {n : Nat} {t : Task}, s.world.task? n = some t →
      s.listed? t.context.groupId t.context.taskId = some n →
      s'.listed? t.context.groupId t.context.taskId = some n ∨ .task n ∈ as)
    (winding : ∀ {g}, s'.winding g → s.winding g ∨
      ((∃ group, s.groups.get? g = some group) ∧ s'.groups.get? g = none)) :
    Advance s s' [.stopped as] := by
  have raised := s.world.raised_stop as
  have closed : ∀ g, s.Closed g → s'.Closed g := by
    intro g closed
    obtain ⟨issued, gone⟩ := closed
    refine ⟨ids ▸ issued, ?_⟩
    cases running : s'.groups.get? g with
    | none => rfl
    | some group =>
      obtain ⟨group, hg⟩ := groups running
      rw [gone] at hg
      contradiction
  refine ⟨⟨?_, fun {g group} hg => ?_, fun {g} hg => ?_⟩, closed, .calm ?_ rfl⟩
  · rw [ids, world]
    exact staffed.crew.stop as raised.buyerKeys raised.tasks lists
  · obtain ⟨group, hg⟩ := groups hg
    rw [ids]
    exact staffed.issued hg
  · rcases winding hg with hg | ⟨⟨group, hg⟩, gone⟩
    · exact closed g (staffed.winds hg)
    · exact ⟨ids ▸ staffed.issued hg, gone⟩
  · rw [world]
    exact calm_stop ..

/-- The first group that has a task is the one that lists it. -/
theorem listed_of_findSome? {groups : Table GroupId Group} {t : TaskId} {n m : Nat}
    (h : groups.findSome? (fun (g, group) => (group.tasks.get? t).map fun n => (g, n)) =
      some (g, n))
    (hm : ((groups.get? g).bind fun group => group.tasks.get? t) = some m) : m = n := by
  induction groups with
  | nil => simp at h
  | cons e groups ih =>
    obtain ⟨g', group⟩ := e
    rw [List.findSome?_cons] at h
    rw [Table.get?] at hm
    cases ht : group.tasks.get? t with
    | none =>
      simp only [ht, Option.map_none] at h
      split at hm
      · simp [ht] at hm
      · exact ih h hm
    | some n' =>
      simp only [ht, Option.map_some, Option.some.injEq, Prod.mk.injEq] at h
      obtain ⟨rfl, rfl⟩ := h
      simpa [ht, eq_comm] using hm

theorem winding_put {n : Nat} {c : Call} (pending : s'.pending = s.pending.put n c)
    (h : s'.winding g) : s.winding g ∨ g ∈ c.groups := by
  obtain ⟨m, c', hm, hg⟩ := h
  rw [pending] at hm
  rcases Table.get?_of_put hm with ⟨-, rfl⟩ | ⟨-, hm⟩
  · exact .inr hg
  · exact .inl ⟨m, c', hm, hg⟩

theorem winding_erase {n : Nat} (pending : s'.pending = s.pending.erase n) (h : s'.winding g) :
    s.winding g := by
  obtain ⟨m, c, hm, hg⟩ := h
  rw [pending] at hm
  exact ⟨m, c, Table.get?_of_erase hm, hg⟩

theorem stopTask_ok {t : TaskId} {call : Nat} (h : s.stopTask t = .ok (call, s', seen)) :
    ∃ g n, s.owner? t = some (g, n) ∧ seen = [.stopped [.task n]] ∧
      s'.world = (s.world.stop [.task n]).1 ∧ s'.ids = s.ids ∧
      s'.groups = s.groups.modify g (fun group => { group with tasks := group.tasks.erase t }) ∧
      s'.pending = s.pending.put s.nextCall (.stopTask t n) ∧ s'.lineup = s.lineup ∧
      s'.closed = s.closed ∧ s'.nextCall = s.nextCall + 1 := by
  unfold stopTask at h
  split at h
  · contradiction
  · next g n owner =>
    simp only [Except.ok.injEq, Prod.mk.injEq] at h
    obtain ⟨-, rfl, rfl⟩ := h
    exact ⟨g, n, owner, rfl, rfl, rfl, rfl, rfl, rfl, rfl, rfl⟩

theorem advance_stopTask {t : TaskId} {call : Nat} (staffed : s.Staffed)
    (h : s.stopTask t = .ok (call, s', seen)) : Advance s s' seen := by
  obtain ⟨g, n, owner, rfl, world, ids, groups, pending, -⟩ := stopTask_ok h
  refine staffed.dismiss [.task n] world ids (fun {g' group} hg => ?_) (fun {m v} hv hm => ?_)
    fun {g'} hg => ?_
  · rw [groups, Table.get?_modify] at hg
    split at hg
    · obtain ⟨group, hg, -⟩ := Option.map_eq_some_iff.1 hg
      exact ⟨group, hg⟩
    · exact ⟨group, hg⟩
  · by_cases hg : v.context.groupId = g
    · by_cases ht : v.context.taskId = t
      · rw [hg, ht] at hm
        rw [listed_of_findSome? owner hm]
        exact .inr (List.mem_singleton_self _)
      · refine .inl (Eq.trans ?_ hm)
        rw [listed?, listed?, groups, Table.get?_modify, if_pos hg.symm]
        cases s.groups.get? v.context.groupId with
        | none => rfl
        | some group => exact (Table.get?_erase ..).trans (if_neg (Ne.symm ht))
    · refine .inl (Eq.trans ?_ hm)
      rw [listed?, groups, Table.get?_modify, if_neg (Ne.symm hg)]
      rfl
  · exact (winding_put pending hg).elim .inl fun h => absurd h List.not_mem_nil

theorem stopGroup_ok {call : Nat} (h : s.stopGroup g = .ok (call, s', seen)) :
    ∃ group as, s.groups.get? g = some group ∧
      as = inOrder (s.lineup.group group.monitor) group.activities ∧
      seen = [.stopped as] ∧ s'.world = (s.world.stop as).1 ∧ s'.ids = s.ids ∧
      s'.groups = s.groups.erase g ∧
      s'.pending = s.pending.put s.nextCall (.stopGroup g group) ∧
      s'.lineup = s.lineup.mapTasksOf group.monitor (fun _ => []) ∧
      s'.closed = s.closed ∧ s'.nextCall = s.nextCall + 1 := by
  unfold stopGroup at h
  split at h
  · contradiction
  · next group hg =>
    simp only [Except.ok.injEq, Prod.mk.injEq] at h
    obtain ⟨-, rfl, rfl⟩ := h
    exact ⟨group, _, hg, rfl, rfl, rfl, rfl, rfl, rfl, rfl, rfl, rfl⟩

theorem advance_stopGroup {call : Nat} (staffed : s.Staffed)
    (h : s.stopGroup g = .ok (call, s', seen)) : Advance s s' seen := by
  obtain ⟨group, as, hg, reached, rfl, world, ids, groups, pending, -⟩ := stopGroup_ok h
  refine staffed.dismiss as world ids (fun {g' group'} hg' => ?_) (fun {m v} hv hm => ?_)
    fun {g'} hg' => ?_
  · rw [groups] at hg'
    exact ⟨group', Table.get?_of_erase hg'⟩
  · by_cases same : g = v.context.groupId
    · subst same
      rw [listed?, hg] at hm
      refine .inr (reached ▸ mem_inOrder (List.mem_cons_of_mem _ (List.mem_map_of_mem ?_)))
      exact Table.mem_values_of_get? hm
    · refine .inl (Eq.trans ?_ hm)
      rw [listed?, groups, Table.get?_erase, if_neg same]
      rfl
  · rcases winding_put pending hg' with hg' | hg'
    · exact .inl hg'
    · obtain rfl := List.mem_singleton.1 hg'
      refine .inr ⟨⟨group, hg⟩, ?_⟩
      rw [groups, Table.get?_erase, if_pos rfl]

theorem mem_everyActivity {n : Nat} {t : Task} (h : s.world.task? n = some t) :
    .task n ∈ s.everyActivity := by
  obtain ⟨b, hb, -⟩ := Option.map_eq_some_iff.1 h
  refine List.mem_append_right _ (List.mem_map_of_mem ((Table.mem_keys_iff ..).2 ?_))
  rw [hb]
  rfl

theorem shutdown_open (h : s.closed = false) :
    ∃ as, (∀ a ∈ s.everyActivity, a ∈ as) ∧ s.shutdown.2.2 = [.stopped as] ∧
      s.shutdown.2.1.world = (s.world.stop as).1 ∧ s.shutdown.2.1.ids = s.ids ∧
      s.shutdown.2.1.groups = [] ∧
      s.shutdown.2.1.pending = s.pending.put s.nextCall (.shutdown s.groups []) ∧
      s.shutdown.2.1.lineup = .empty ∧ s.shutdown.2.1.closed = true ∧
      s.shutdown.2.1.nextCall = s.nextCall + 1 := by
  simp only [shutdown, h, Bool.false_eq_true, if_false]
  exact ⟨_, fun a ha => mem_inOrder ha, rfl, rfl, rfl, rfl, rfl, rfl, rfl, rfl⟩

/-- Only the first shutdown has anything to do. -/
theorem shutdown_closed (h : s.closed = true) :
    s.shutdown.2 = ({ s with nextCall := s.nextCall + 1 }.answer s.nextCall (.reports []), []) := by
  simp [shutdown, h]

theorem advance_shutdown (staffed : s.Staffed) : Advance s s.shutdown.2.1 s.shutdown.2.2 := by
  cases hc : s.closed with
  | true =>
    rw [shutdown_closed hc]
    exact staffed.advance rfl rfl (fun g => winding_erase rfl) (staffed.crew.still rfl)
      (.calm ⟨rfl, fun n => .same _⟩ rfl)
  | false =>
    obtain ⟨as, reached, seen, world, ids, groups, pending, -⟩ := shutdown_open hc
    rw [seen]
    refine staffed.dismiss as world ids (fun {g group} hg => ?_)
      (fun hv _ => .inr (reached _ (mem_everyActivity hv))) fun {g} hg => ?_
    · rw [groups] at hg
      contradiction
    · rcases winding_put pending hg with hg | hg
      · exact .inl hg
      · have known : (s.groups.get? g).isSome = true := (Table.mem_keys_iff ..).1 hg
        exact .inr ⟨Option.isSome_iff_exists.1 known, by rw [groups]; rfl⟩

/-! ### Pending calls -/

/-- What a group leaves in the pool is forgotten when it has wound down. -/
theorem collect_frame (s : Supervisor) (g : GroupId) (group : Group) :
    (s.collect g group).2.1.world.pool = (s.world.pool.removeGroup g).1 ∧
      (s.collect g group).2.1.world.buyers = s.world.buyers ∧
      authsAmong (s.collect g group).2.2 = [] ∧
      (s.collect g group).2.1.groups = s.groups ∧ (s.collect g group).2.1.ids = s.ids ∧
      (s.collect g group).2.1.pending = s.pending := by
  refine ⟨rfl, rfl, ?_, rfl, rfl, rfl⟩
  have forgets : authsAmong (s.world.forgetGroup g).2 = [] := by
    rw [authsAmong, World.forgetGroup, World.events_withPool]
    rfl
  have leaves := (World.still_leaveFeed (s.world.forgetGroup g).1 group.monitor).auths
  have parts := authsAmong_append (s.world.forgetGroup g).2
    ((s.world.forgetGroup g).1.leaveFeed group.monitor).2
  rw [forgets, leaves] at parts
  exact parts

theorem Staffed.collect (staffed : s.Staffed) {group : Group} (winds : s.winding g)
    (world : s'.world = (s.collect g group).2.1.world) (groups : s'.groups = s.groups)
    (ids : s'.ids = s.ids) (winding : ∀ g, s'.winding g → s.winding g) :
    Advance s s' (s.collect g group).2.2 := by
  obtain ⟨pool, buyers, auths, -⟩ := collect_frame s g group
  rw [← world] at pool buyers
  exact staffed.advance groups ids winding (staffed.crew.still buyers)
    (.forget (staffed.winds winds) pool buyers auths)

theorem advance_settle {n : Nat} (staffed : s.Staffed) (h : Settles s n s' seen) :
    Advance s s' seen := by
  cases h with
  | stopTask | close =>
    exact staffed.advance rfl rfl (fun g => winding_erase rfl) (staffed.crew.still rfl)
      (.calm ⟨rfl, fun n => .same _⟩ rfl)
  | stopGroup pending =>
    exact staffed.collect ⟨n, _, pending, List.mem_singleton_self _⟩ rfl rfl rfl
      fun g => winding_erase rfl
  | wind pending =>
    refine staffed.collect ⟨n, _, pending, List.mem_cons_self⟩ rfl rfl rfl fun g' hg => ?_
    rcases winding_put rfl hg with hg | hg
    · exact hg
    · exact ⟨n, _, pending, List.mem_cons_of_mem _ hg⟩

/-! ### Steps and trails -/

/-- No step takes an id back. -/
theorem ids_of_take? {o : Occasion} (h : s.take? o = some (s', seen)) :
    s'.ids.taskId = s.ids.taskId ∧ s'.ids.groupId = s.ids.groupId ∧
      s.ids.tasks ≤ s'.ids.tasks ∧ s.ids.groups ≤ s'.ids.groups := by
  have unchanged : s'.ids = s.ids → s'.ids.taskId = s.ids.taskId ∧ s'.ids.groupId = s.ids.groupId ∧
      s.ids.tasks ≤ s'.ids.tasks ∧ s.ids.groups ≤ s'.ids.groups := by
    intro same
    rw [same]
    exact ⟨rfl, rfl, Nat.le_refl _, Nat.le_refl _⟩
  cases grants_of_take? h with
  | act acts =>
    obtain ⟨-, -, -, -, -, ids⟩ := act?_ok acts
    exact unchanged ids
  | settle settles => cases settles <;> exact unchanged rfl
  | shutdown =>
    cases hc : s.closed with
    | true => exact unchanged (by rw [shutdown_closed hc]; rfl)
    | false =>
      obtain ⟨-, -, -, -, ids, -⟩ := shutdown_open hc
      exact unchanged ids
  | startGroup ok =>
    obtain ⟨-, -, -, -, ids⟩ := startGroup_frame ok
    rw [ids]
    exact ⟨rfl, rfl, Nat.le_add_right .., Nat.le_succ _⟩
  | addTask ok =>
    obtain ⟨group, -, rfl⟩ := addTask_ok ok
    exact ⟨rfl, rfl, Nat.le_succ _, Nat.le_refl _⟩
  | stopTask ok =>
    obtain ⟨-, -, -, -, -, ids, -⟩ := stopTask_ok ok
    exact unchanged ids
  | stopGroup ok =>
    obtain ⟨-, -, -, -, -, -, ids, -⟩ := stopGroup_ok ok
    exact unchanged ids

theorem advance_of_take? {o : Occasion} (staffed : s.Staffed) (fresh : s'.Fresh)
    (h : s.take? o = some (s', seen)) : Advance s s' seen := by
  cases grants_of_take? h with
  | act acts => exact advance_act staffed acts
  | startGroup ok => exact advance_startGroup staffed fresh ok
  | addTask ok => exact advance_addTask staffed fresh ok
  | stopTask ok => exact advance_stopTask staffed ok
  | stopGroup ok => exact advance_stopGroup staffed ok
  | shutdown => exact advance_shutdown staffed
  | settle settles => exact advance_settle staffed settles

theorem Fresh.earlier {o : Occasion} (fresh : s'.Fresh) (h : s.take? o = some (s', seen)) :
    s.Fresh := by
  obtain ⟨tasks, groups⟩ := fresh
  obtain ⟨taskId, groupId, moreTasks, moreGroups⟩ := ids_of_take? h
  rw [taskId] at tasks
  rw [groupId] at groups
  exact ⟨fun i j hij hj => tasks i j hij (Nat.lt_of_lt_of_le hj moreTasks),
    fun i j hij hj => groups i j hij (Nat.lt_of_lt_of_le hj moreGroups)⟩

theorem staffed_new (registry : Registry Unit) (settings : Settings) (taskId : Nat → TaskId)
    (groupId : Nat → GroupId) :
    (Supervisor.new registry settings ⟨taskId, groupId, 0, 0⟩).Staffed := by
  refine ⟨⟨rfl, rfl, fun h => ?_, fun h => ?_⟩, fun h => ?_, fun h => ?_⟩
  · contradiction
  · contradiction
  · contradiction
  · obtain ⟨n, c, hn, -⟩ := h
    contradiction

end

end Supervisor

end Restock
