import Restock.Proofs.Supervisor.Rolls
import Restock.Proofs.Supervisor.SharedLogin
import Restock.Proofs.Supervisor.Shutdown

/-! The reports of a supervisor.

A task is listed by its group until a call takes it along, and the call has it from then on:
while it is pending it waits for the task, or has collected what the task left, and its
answer says how the task ended (`Has`). So each task is in one place, and no report is
lost or given back twice (`every_task_is_accounted_for`). What passes a task on is the step
that takes it off the lists; a call passes nothing on to another one. -/
namespace Restock

/-- What a task that has ended comes to for the call that waits for it. -/
def Task.verdict (t : Task) : Except SupervisorFault TaskReport :=
  match t.report? with
  | some r => .ok r
  | none => .error (.taskPanicked t.context.taskId)

namespace Task

variable {t u : Task}

theorem taskId_of_report? {r : TaskReport} (report : t.report? = some r) :
    r.taskId = t.context.taskId := by
  unfold report? at report
  split at report
  · obtain rfl := Option.some.inj report
    rfl
  · contradiction

/-- The verdict on a task that has ended stands. -/
theorem Lasts.verdict (lasts : t.Lasts u) (ended : t.ended = true) : u.verdict = t.verdict := by
  rw [Task.verdict, Task.verdict, (lasts.2 ended).2, lasts.1]

end Task

/-- The reports of a task among others. -/
def reportsOf (t : TaskId) (rs : List TaskReport) : List TaskReport := rs.filter fun r => r.taskId = t

namespace Supervisor

/-- The verdict is about the task. -/
def About (t : TaskId) : Except SupervisorFault TaskReport → Prop
  | .ok r => r.taskId = t
  | .error f => f = .taskPanicked t

/-- A running group has the task at the place. -/
def Lists (s : Supervisor) (k : Nat) : Prop := ∃ g t, s.listed? g t = some k

/-- The call with the number took the task at the place off the lists when it was made. -/
def Took (h : List (Leg Supervisor Occasion Happening)) (n k : Nat) : Prop :=
  ∃ l ∈ h, l.before.nextCall = n ∧ l.before.Lists k ∧ ¬ l.after.Lists k

end Supervisor

namespace Answer

def verdicts : Answer → List (Except SupervisorFault TaskReport)
  | .task result => [result]
  | .reports rs => rs.map .ok

/-- The answer says how the task ended: it is the task's verdict, or has the task's report
once among others, or leaves the task out because it has none. -/
def Accounts (t : Task) : Answer → Prop
  | .task result => result = t.verdict
  | .reports rs => reportsOf t.context.taskId rs = t.report?.toList

theorem Accounts.lasts {a : Answer} {t u : Task} (accounts : a.Accounts t) (lasts : t.Lasts u)
    (ended : t.ended = true) : a.Accounts u := by
  cases a with
  | task result => exact Eq.trans accounts (lasts.verdict ended).symm
  | reports rs =>
    rw [Accounts, lasts.1, (lasts.2 ended).2]
    exact accounts

end Answer

namespace Call

/-- The reports that a call has collected. -/
def collected : Call → List TaskReport
  | .shutdown _ reports => reports
  | _ => []

end Call

namespace Supervisor

/-- What a pending call has of a task that it took: it waits for it, or it is past it. -/
inductive Owes (c : Call) (k : Nat) (t : Task) : Prop
  | waits (holds : .task k ∈ c.activities)
    (unreported : reportsOf t.context.taskId c.collected = [])
  | past {left : List (GroupId × Group)} {reports : List TaskReport}
    (shuts : c = .shutdown left reports) (gone : .task k ∉ c.activities) (ended : t.ended = true)
    (reported : reportsOf t.context.taskId reports = t.report?.toList)

/-- The call that took a task has it, or has accounted for it. -/
inductive Has (s : Supervisor) (n k : Nat) (t : Task) : Prop
  | pending {c : Call} (pending : s.pending.get? n = some c) (owes : Owes c k t)
  | answered {a : Answer} (answer : s.answers.get? n = some a) (ended : t.ended = true)
    (accounts : a.Accounts t)

/-- The verdict is the one on a task that the call took. -/
def Given (h : List (Leg Supervisor Occasion Happening)) (s : Supervisor) (n : Nat)
    (v : Except SupervisorFault TaskReport) : Prop :=
  ∃ k t, Took h n k ∧ s.world.task? k = some t ∧ t.ended = true ∧ t.verdict = v

/-- Who can have a task. -/
inductive Keeper
  /-- A running group, in its list. -/
  | group (g : GroupId)
  /-- A pending call. -/
  | call (n : Nat)
  /-- A call that was answered. -/
  | answer (n : Nat)
  deriving DecidableEq, Repr

def KeptBy (h : List (Leg Supervisor Occasion Happening)) (s : Supervisor) (k : Nat) :
    Keeper → Prop
  | .group g => ∃ i, s.listed? g i = some k
  | .call n => Took h n k ∧ ∃ c, s.pending.get? n = some c
  | .answer n => Took h n k ∧ ∃ a, s.answers.get? n = some a

/-- Every task is in one place, and every report is given back once. -/
structure Accounted (h : List (Leg Supervisor Occasion Happening)) (s : Supervisor) : Prop where
  keeper : ∀ {k t}, s.world.task? k = some t → ∃ p, KeptBy h s k p ∧ ∀ q, KeptBy h s k q → q = p
  /-- A group lists its own tasks. -/
  listed : ∀ {g i k}, s.listed? g i = some k →
    ∃ t, s.world.task? k = some t ∧ t.context.taskId = i ∧ t.context.groupId = g
  /-- A pending call waits only for tasks that it took, -/
  held : ∀ {n c k}, s.pending.get? n = some c → .task k ∈ c.activities → KeptBy h s k (.call n)
  /-- and has every one of them. -/
  owed : ∀ {n c k t}, s.pending.get? n = some c → Took h n k → s.world.task? k = some t → Owes c k t
  /-- An answer accounts for every task that its call took; each of them has ended. -/
  settled : ∀ {n a k t}, s.answers.get? n = some a → Took h n k → s.world.task? k = some t →
    t.ended = true ∧ a.Accounts t
  /-- What an answer says is what a task came to that its call took, under the task's id. -/
  own : ∀ {n a v}, s.answers.get? n = some a → v ∈ a.verdicts →
    ∃ k t, KeptBy h s k (.answer n) ∧ s.world.task? k = some t ∧ About t.context.taskId v ∧
      t.verdict = v
  /-- Only one answer says anything about a task. -/
  once : ∀ {n a v k t}, s.answers.get? n = some a → v ∈ a.verdicts → s.world.task? k = some t →
    About t.context.taskId v → KeptBy h s k (.answer n)
  /-- No answer is taken back. -/
  final : ∀ past l later, h = past ++ l :: later → ∀ {n a}, l.after.answers.get? n = some a →
    s.answers.get? n = some a
  /-- After a shutdown, and when no call is pending, every task is settled. -/
  closing : (∃ l ∈ h, l.input = .shutdown) → (∀ n, s.pending.get? n = none) →
    ∀ {k t}, s.world.task? k = some t → ∃ n, KeptBy h s k (.answer n)

/-- Who has every task so far. -/
structure Ledger (h : List (Leg Supervisor Occasion Happening)) (s : Supervisor) : Prop where
  kept : ∀ {k t}, s.world.task? k = some t → s.Lists k ∨ ∃ n, Took h n k
  parted : ∀ {n k}, Took h n k → ¬ s.Lists k
  known : ∀ {n k}, Took h n k → n < s.nextCall ∧ ∃ t, s.world.task? k = some t
  once : ∀ {m n k}, Took h m k → Took h n k → m = n
  owed : ∀ {n k t}, Took h n k → s.world.task? k = some t → s.Has n k t
  held : ∀ {n c}, s.pending.get? n = some c → ∀ k, .task k ∈ c.activities → Took h n k
  collected : ∀ {n c}, s.pending.get? n = some c → ∀ r ∈ c.collected, Given h s n (.ok r)
  given : ∀ {n a}, s.answers.get? n = some a → ∀ v ∈ a.verdicts, Given h s n v

section
variable {s s' : Supervisor} {o : Occasion} {seen : List Happening} {n m k : Nat} {g : GroupId}
  {group : Group} {t u : Task} {i : TaskId} {h : List (Leg Supervisor Occasion Happening)}

/-! ### Tasks and their reports -/

theorem about_verdict (t : Task) : About t.context.taskId t.verdict := by
  unfold Task.verdict
  cases report : t.report? with
  | none => rfl
  | some r => exact Task.taskId_of_report? report

/-- A verdict is about one task. -/
theorem About.alone {j : TaskId} {v : Except SupervisorFault TaskReport} (h : About i v)
    (h' : About j v) : i = j := by
  cases v with
  | ok r => exact h.symm.trans h'
  | error f => exact SupervisorFault.taskPanicked.inj (h.symm.trans h')

theorem resultOf_eq_verdict (ht : s.world.task? k = some t) :
    s.resultOf t.context.taskId k = t.verdict := by
  rw [resultOf, reportAt?, ht]
  rfl

theorem task_mem_activities : .task k ∈ group.activities ↔ k ∈ group.tasks.values := by
  simp [Group.activities]

/-- What a group leaves of a task is the report of the task, if it is one of the group. -/
theorem reportsOf_collect (enrolled : s.world.Enrolled g group) (staffed : s.Staffed)
    (fresh : s.Fresh) (ht : s.world.task? k = some t) :
    reportsOf t.context.taskId (s.collect g group).1 =
      if .task k ∈ group.activities then t.report?.toList else [] := by
  have roll := enrolled.roll
  have labelled : ∀ e ∈ group.tasks, ∀ r, s.reportAt? e.2 = some r → r.taskId = e.1 := by
    intro e he r report
    obtain ⟨u, hu, named, -⟩ := roll.named (Table.get?_of_mem roll.apart he)
    rw [reportAt?, hu] at report
    exact (Task.taskId_of_report? report).trans named
  refine (Table.filter_filterMap_values _ _ _ roll.apart labelled _).trans ?_
  split
  · next there =>
    obtain ⟨listed, -⟩ := roll.get?_of_mem (task_mem_activities.1 there) ht
    rw [listed, Option.bind_some, reportAt?, ht]
    rfl
  · next other =>
    cases listed : group.tasks.get? t.context.taskId with
    | none => rfl
    | some l =>
      obtain ⟨u, hu, named, -⟩ := roll.named listed
      obtain rfl := staffed.alone fresh hu ht named
      exact absurd (task_mem_activities.2 (Table.mem_values_of_get? listed)) other

theorem reportsOf_sortReports (i : TaskId) {rs : List TaskReport} {report : Option TaskReport}
    (one : reportsOf i rs = report.toList) : reportsOf i (sortReports rs) = report.toList := by
  have perm : (reportsOf i (sortReports rs)).Perm (reportsOf i rs) :=
    (List.mergeSort_perm rs _).filter _
  rw [one] at perm
  cases report with
  | none => exact List.perm_nil.1 perm
  | some r => exact List.perm_singleton.1 perm

theorem reportsOf_append (i : TaskId) (rs more : List TaskReport) :
    reportsOf i (rs ++ more) = reportsOf i rs ++ reportsOf i more := List.filter_append ..

/-- The reports that a group leaves are those of its tasks. -/
theorem report_of_collect {r : TaskReport} (wound : s.wound group = true)
    (enrolled : s.world.Enrolled g group) (there : r ∈ (s.collect g group).1) :
    ∃ k t, .task k ∈ group.activities ∧ s.world.task? k = some t ∧ t.ended = true ∧
      t.verdict = .ok r := by
  obtain ⟨k, hk, report⟩ := List.mem_filterMap.1 there
  have member : .task k ∈ group.activities := task_mem_activities.2 hk
  obtain ⟨t, ht, ended⟩ := enrolled.ended (by simpa using List.all_eq_true.1 wound _ member) member
  rw [reportAt?, ht] at report
  refine ⟨k, t, member, ht, ended, ?_⟩
  rw [Task.verdict, show t.report? = some r from report]

/-! ### The lists -/

theorem Rolls.listed (rolls : s.Rolls) (listed : s.listed? g i = some k) :
    ∃ u, s.world.task? k = some u ∧ u.context.taskId = i ∧ u.context.groupId = g := by
  obtain ⟨group, hg, listed⟩ := Option.bind_eq_some_iff.1 listed
  exact (rolls.running hg).roll.named listed

/-- A task is listed once. -/
theorem Rolls.listed_once {g' : GroupId} {j : TaskId} (rolls : s.Rolls)
    (listed : s.listed? g i = some k) (listed' : s.listed? g' j = some k) : g = g' ∧ i = j := by
  obtain ⟨u, hu, rfl, rfl⟩ := rolls.listed listed
  obtain ⟨v, hv, rfl, rfl⟩ := rolls.listed listed'
  obtain rfl := Option.some.inj (hu.symm.trans hv)
  exact ⟨rfl, rfl⟩

theorem listed?_congr (groups : s'.groups = s.groups) : s'.listed? = s.listed? := by
  funext g t
  rw [listed?, groups]
  rfl

/-- Whoever is taken along was listed. -/
theorem Takes.lists {c : Call} (takes : Takes s s' c) (rolls : s.Rolls)
    (holds : .task k ∈ c.activities) : s.Lists k := by
  have listed : ∀ {g group}, s.groups.get? g = some group → .task k ∈ group.activities →
      s.Lists k := by
    intro g group hg there
    obtain ⟨⟨i, k⟩, entry, rfl⟩ := List.mem_map.1 (task_mem_activities.1 there)
    refine ⟨g, i, ?_⟩
    rw [listed?, hg]
    exact Table.get?_of_mem (rolls.running hg).roll.apart entry
  cases takes with
  | @task g t place owner =>
    obtain rfl := Activity.task.inj (List.mem_singleton.1 holds)
    exact ⟨g, t, listed_of_owner? rolls.groups owner⟩
  | group running => exact listed running holds
  | everything =>
    obtain ⟨e, he, there⟩ := List.mem_flatMap.1 holds
    exact listed (Table.get?_of_mem rolls.groups he) there

/-- The others stay on the lists. -/
theorem Takes.listed?_iff {c : Call} (takes : Takes s s' c) (rolls : s.Rolls) :
    s'.listed? g i = some k ↔ s.listed? g i = some k ∧ .task k ∉ c.activities := by
  cases takes with
  | @task g' j place owner groups =>
    have there := listed_of_owner? rolls.groups owner
    have after : s'.listed? g i = if g' = g ∧ j = i then none else s.listed? g i := by
      rw [listed?, listed?, groups, Table.get?_modify]
      by_cases same : g' = g
      · cases s.groups.get? g with
        | none => simp
        | some group => simp [same, Table.get?_erase]
      · simp [same]
    have own : .task k ∈ (Call.stopTask j place).activities ↔ k = place := by
      simp [Call.activities]
    rw [after, own]
    split
    · next same =>
      obtain ⟨rfl, rfl⟩ := same
      simp [there, eq_comm]
    · next other =>
      refine (and_iff_left_of_imp fun listed same => other ?_).symm
      subst same
      exact rolls.listed_once there listed
  | @group g' group running groups =>
    have after : s'.listed? g i = if g' = g then none else s.listed? g i := by
      rw [listed?, listed?, groups, Table.get?_erase]
      split <;> rfl
    rw [after]
    split
    · next same =>
      subst same
      refine ⟨fun none => by contradiction, fun before => absurd ?_ before.2⟩
      have listed := before.1
      rw [listed?, running] at listed
      exact task_mem_activities.2 (Table.mem_values_of_get? listed)
    · next other =>
      refine (and_iff_left_of_imp fun listed there => other ?_).symm
      obtain ⟨⟨j, k⟩, entry, rfl⟩ := List.mem_map.1 (task_mem_activities.1 there)
      refine (rolls.listed_once (j := i) (i := j) ?_ listed).1
      rw [listed?, running]
      exact Table.get?_of_mem (rolls.running running).roll.apart entry
  | everything groups =>
    have after : s'.listed? g i = none := by rw [listed?, groups]; rfl
    rw [after]
    refine ⟨fun none => by contradiction, fun before => absurd ?_ before.2⟩
    obtain ⟨group, hg, listed⟩ := Option.bind_eq_some_iff.1 before.1
    exact List.mem_flatMap.2 ⟨(g, group), Table.mem_of_get? hg,
      task_mem_activities.2 (Table.mem_values_of_get? listed)⟩

/-- What a step does to the lists: new tasks come, and a call that is filed takes tasks
along. -/
theorem Deals.lists (deals : Deals s s' o seen) (rolls : s.Rolls) :
    (∀ k, s'.Lists k → s.Lists k ∨ s.world.task? k = none) ∧
      ∀ k, s.Lists k → s'.Lists k ∨ ∃ c, Takes s s' c ∧ .task k ∈ c.activities ∧
        s'.pending.get? s.nextCall = some c ∧ s.nextCall < s'.nextCall := by
  have same : s'.groups = s.groups → (∀ k, s'.Lists k → s.Lists k ∨ s.world.task? k = none) ∧
      ∀ k, s.Lists k → s'.Lists k ∨ ∃ c, Takes s s' c ∧ .task k ∈ c.activities ∧
        s'.pending.get? s.nextCall = some c ∧ s.nextCall < s'.nextCall := by
    intro groups
    simp only [Lists, listed?_congr groups]
    exact ⟨fun k => .inl, fun k => .inl⟩
  cases deals with
  | rests groups | declines groups => exact same groups
  | settles _ settles => exact same (settles_frame settles).1
  | @enlists g group groups _ kept new =>
    have after := listed?_put groups
    constructor <;> rintro k ⟨g', i, listed⟩
    · rw [after] at listed
      by_cases own : g' = g
      · subst own
        rw [listing_self] at listed
        exact (new listed).imp_left fun old => ⟨g', i, old⟩
      · rw [listing_other own] at listed
        exact .inl ⟨g', i, listed⟩
    · refine .inl ⟨g', i, ?_⟩
      rw [after]
      by_cases own : g' = g
      · subst own
        exact (listing_self ..).trans (kept listed)
      · exact (listing_other own).trans listed
  | @files c takes pending nextCall =>
    constructor <;> rintro k ⟨g, i, listed⟩
    · exact .inl ⟨g, i, ((takes.listed?_iff rolls).1 listed).1⟩
    · by_cases holds : .task k ∈ c.activities
      · refine .inr ⟨c, takes, holds, ?_, by omega⟩
        rw [pending]
        exact Table.get?_put_self ..
      · exact .inl ⟨g, i, (takes.listed?_iff rolls).2 ⟨listed, holds⟩⟩

/-- A new task is listed. -/
theorem listed_of_new (staffed : s'.Staffed) (serves : s.world.Serves s'.world seen)
    (absent : s.world.task? k = none) (hu : s'.world.task? k = some u) : s'.Lists k := by
  obtain ⟨b, hb, rfl⟩ := Option.map_eq_some_iff.1 hu
  have fate := serves.buyers k
  rw [Option.map_eq_none_iff.1 absent, hb] at fate
  cases fate with
  | joins => exact ⟨_, _, staffed.crew.listed hu rfl⟩

/-! ### One step -/

theorem took_snoc_iff :
    Took (h ++ [⟨s, o, seen, s'⟩]) n k ↔
      Took h n k ∨ (s.nextCall = n ∧ s.Lists k ∧ ¬ s'.Lists k) := by
  constructor
  · intro took
    obtain ⟨l, hl, takes⟩ := took
    rcases List.mem_append.1 hl with hl | hl
    · exact .inl ⟨l, hl, takes⟩
    · rw [List.mem_singleton.1 hl] at takes
      exact .inr takes
  · intro took
    rcases took with ⟨l, hl, takes⟩ | takes
    · exact ⟨l, List.mem_append_left _ hl, takes⟩
    · exact ⟨_, List.mem_append_right _ (List.mem_singleton_self _), takes⟩

theorem Took.mono (took : Took h n k) (l : Leg Supervisor Occasion Happening) :
    Took (h ++ [l]) n k := took_snoc_iff.2 (.inl took)

theorem Given.mono {v : Except SupervisorFault TaskReport} (given : Given h s n v)
    (lasts : s.world.Lasts s'.world) (l : Leg Supervisor Occasion Happening) :
    Given (h ++ [l]) s' n v := by
  obtain ⟨k, t, took, ht, ended, rfl⟩ := given
  obtain ⟨u, hu, same⟩ := lasts.tasks ht
  exact ⟨k, u, took.mono l, hu, (same.2 ended).1, same.verdict ended⟩

theorem Owes.lasts {c : Call} (owes : Owes c k t) (lasts : t.Lasts u) : Owes c k u := by
  have name : u.context.taskId = t.context.taskId := by rw [lasts.1]
  cases owes with
  | waits holds unreported => exact .waits holds (name ▸ unreported)
  | past shuts gone ended reported =>
    obtain ⟨stays, same⟩ := lasts.2 ended
    exact .past shuts gone stays (by rw [name, same]; exact reported)

/-- A call that is carried on keeps what it took, or accounts for it. -/
theorem has_of_settles (rolls : s.Rolls) (staffed : s.Staffed) (fresh : s.Fresh)
    (settles : Settles s n s' seen) (ht : s.world.task? k = some t) (has : s.Has n k t) :
    s'.Has n k t := by
  cases has with
  | answered answer =>
    obtain ⟨c, pending⟩ := settles.pending
    rw [(rolls.answered answer).2] at pending
    contradiction
  | @pending c found owes =>
    have files := rolls.calls found
    have ended : ∀ {group : Group}, s.wound group = true → .task k ∈ group.activities →
        t.ended = true := by
      intro group wound there
      have finished := List.all_eq_true.1 wound _ there
      simpa [World.running, ht] using finished
    cases settles with
    | @stopTask i place pending ended =>
      obtain rfl := Option.some.inj (found.symm.trans pending)
      cases owes with
      | past shuts => contradiction
      | waits holds =>
        obtain rfl := Activity.task.inj (List.mem_singleton.1 holds)
        refine .answered (Table.get?_put_self ..) ?_ ?_
        · simpa [World.running, ht] using ended
        · obtain ⟨u, hu, rfl⟩ := files
          obtain rfl := Option.some.inj (ht.symm.trans hu)
          exact resultOf_eq_verdict ht
    | @stopGroup g group pending wound =>
      obtain rfl := Option.some.inj (found.symm.trans pending)
      cases owes with
      | past shuts => contradiction
      | waits holds =>
        refine .answered (Table.get?_put_self ..) (ended wound holds) ?_
        refine reportsOf_sortReports _ ?_
        rw [reportsOf_collect files staffed fresh ht]
        exact if_pos holds
    | @close reports pending =>
      obtain rfl := Option.some.inj (found.symm.trans pending)
      cases owes with
      | waits holds => contradiction
      | past shuts gone ended reported =>
        obtain ⟨-, rfl⟩ := Call.shutdown.inj shuts
        exact .answered (Table.get?_put_self ..) ended
          (reportsOf_sortReports _ reported)
    | @wind g group left reports pending wound =>
      obtain rfl := Option.some.inj (found.symm.trans pending)
      obtain ⟨apart, enrolled⟩ := files
      obtain ⟨new, -⟩ := List.nodup_cons.1 apart
      have own := enrolled _ List.mem_cons_self
      have collects := reportsOf_collect own staffed fresh ht
      have filed : (s.pending.put n (.shutdown left (reports ++ (s.collect g group).1))).get? n =
          some (.shutdown left (reports ++ (s.collect g group).1)) :=
        Table.get?_put_self ..
      refine .pending filed ?_
      cases owes with
      | past shuts gone ended reported =>
        obtain ⟨-, rfl⟩ := Call.shutdown.inj shuts
        rw [if_neg fun there => gone (List.mem_append_left _ there)] at collects
        refine .past rfl (fun there => gone (List.mem_append_right _ there)) ended ?_
        rw [reportsOf_append, collects, List.append_nil]
        exact reported
      | waits holds unreported =>
        have unreported : reportsOf t.context.taskId reports = [] := unreported
        by_cases there : .task k ∈ group.activities
        · rw [if_pos there] at collects
          refine .past rfl ?_ (ended wound there) ?_
          · -- The groups that are left have other ids.
            intro later
            obtain ⟨e, he, also⟩ := List.mem_flatMap.1 later
            obtain ⟨-, belongs⟩ := own.roll.get?_of_mem (task_mem_activities.1 there) ht
            obtain ⟨-, belongs'⟩ := (enrolled e (List.mem_cons_of_mem _ he)).roll.get?_of_mem
              (task_mem_activities.1 also) ht
            exact new (List.mem_map.2 ⟨e, he, belongs'.symm.trans belongs⟩)
          · rw [reportsOf_append, collects, unreported]
            rfl
        · rw [if_neg there] at collects
          refine .waits ((List.mem_append.1 holds).resolve_left there) ?_
          show reportsOf t.context.taskId (reports ++ (s.collect g group).1) = []
          rw [reportsOf_append, collects, unreported]
          rfl

theorem Takes.collected {c : Call} (takes : Takes s s' c) : c.collected = [] := by
  cases takes <;> rfl

/-- Whoever took a task has it after a step. -/
theorem Ledger.owed_step (ledger : Ledger h s) (rolls : s.Rolls) (custody : s.Custody)
    (fresh : s'.Fresh) (taken : s.take? o = some (s', seen))
    (took : Took (h ++ [⟨s, o, seen, s'⟩]) n k) (hu : s'.world.task? k = some u) :
    s'.Has n k u := by
  have deals := deals_of_take? rolls custody fresh taken
  rcases took_snoc_iff.1 took with took | ⟨rfl, lists, gone⟩
  · obtain ⟨lt, t, ht⟩ := ledger.known took
    have has := ledger.owed took ht
    by_cases called : o = .settle n
    · subst called
      have settles := settles_of_settle? taken
      rw [World.task?_congr (settles_frame settles).2.2.1, ht] at hu
      obtain rfl := Option.some.inj hu
      exact has_of_settles rolls custody.staffed (fresh.earlier taken) settles ht has
    · obtain ⟨pending, answers⟩ := deals.elsewhere lt called
      obtain ⟨u', hu', same⟩ := (attends_of_take? custody.service taken).lasts.tasks ht
      obtain rfl := Option.some.inj (hu.symm.trans hu')
      cases has with
      | pending found owes => exact .pending (pending.trans found) (owes.lasts same)
      | answered answer ended accounts =>
        exact .answered (answers.trans answer) (same.2 ended).1 (accounts.lasts same ended)
  · obtain ⟨c, takes, holds, pending, -⟩ := ((deals.lists rolls).2 k lists).resolve_left gone
    refine .pending pending (.waits holds ?_)
    rw [takes.collected]
    rfl

/-- What a call collects from a group is given of tasks that it took. -/
theorem Ledger.collects (ledger : Ledger h s) {c : Call}
    (pending : s.pending.get? n = some c) (own : ∀ a ∈ group.activities, a ∈ c.activities)
    (enrolled : s.world.Enrolled g group) (wound : s.wound group = true) :
    ∀ r ∈ (s.collect g group).1, Given h s n (.ok r) := by
  intro r there
  obtain ⟨k, t, member, ht, ended, verdict⟩ := report_of_collect wound enrolled there
  exact ⟨k, t, ledger.held pending k (own _ member), ht, ended, verdict⟩

/-- Pending calls have only what they took. -/
theorem Ledger.held_step (ledger : Ledger h s) (rolls : s.Rolls) (lasts : s.world.Lasts s'.world)
    (deals : Deals s s' o seen) {c : Call} (pending : s'.pending.get? n = some c) :
    (∀ k, .task k ∈ c.activities → Took (h ++ [⟨s, o, seen, s'⟩]) n k) ∧
      ∀ r ∈ c.collected, Given (h ++ [⟨s, o, seen, s'⟩]) s' n (.ok r) := by
  have old : s.pending.get? n = some c →
      (∀ k, .task k ∈ c.activities → Took (h ++ [⟨s, o, seen, s'⟩]) n k) ∧
        ∀ r ∈ c.collected, Given (h ++ [⟨s, o, seen, s'⟩]) s' n (.ok r) :=
    fun found => ⟨fun k holds => (ledger.held found k holds).mono _,
      fun r there => (ledger.collected found r there).mono lasts _⟩
  cases deals with
  | rests _ same | enlists _ _ _ _ same => exact old (same ▸ pending)
  | @files d takes files =>
    rw [files] at pending
    rcases Table.get?_of_put pending with ⟨number, rfl⟩ | ⟨-, pending⟩
    · refine ⟨fun k holds => took_snoc_iff.2 (.inr ⟨number, takes.lists rolls holds, ?_⟩),
        fun r there => ?_⟩
      · intro lists
        obtain ⟨g, i, listed⟩ := lists
        exact ((takes.listed?_iff rolls).1 listed).2 holds
      · rw [takes.collected] at there
        contradiction
    · exact old pending
  | declines _ erased =>
    rw [erased] at pending
    exact old (Table.get?_of_erase pending)
  | @settles m _ settles =>
    cases settles with
    | stopTask | stopGroup | close => exact old (Table.get?_of_erase pending)
    | @wind g group left reports found wound =>
      rcases Table.get?_of_put pending with ⟨rfl, rfl⟩ | ⟨-, filed⟩
      · obtain ⟨-, enrolled⟩ := rolls.calls found
        refine ⟨fun k holds => (ledger.held found k (List.mem_append_right _ holds)).mono _,
          fun r there => ?_⟩
        rcases List.mem_append.1 there with there | there
        · exact (ledger.collected found r there).mono lasts _
        · exact (ledger.collects found (fun a ha => List.mem_append_left _ ha)
            (enrolled _ List.mem_cons_self) wound r there).mono lasts _
      · exact old filed

/-- Answers tell only of what their calls took. -/
theorem Ledger.given_step (ledger : Ledger h s) (rolls : s.Rolls) (lasts : s.world.Lasts s'.world)
    (deals : Deals s s' o seen) {a : Answer} (answer : s'.answers.get? n = some a) :
    ∀ v ∈ a.verdicts, Given (h ++ [⟨s, o, seen, s'⟩]) s' n v := by
  have old : s.answers.get? n = some a →
      ∀ v ∈ a.verdicts, Given (h ++ [⟨s, o, seen, s'⟩]) s' n v :=
    fun found v there => (ledger.given found v there).mono lasts _
  have sorted : ∀ {reports : List TaskReport}, (∀ r ∈ reports, Given h s n (.ok r)) →
      ∀ v ∈ (Answer.reports (sortReports reports)).verdicts,
        Given (h ++ [⟨s, o, seen, s'⟩]) s' n v := by
    intro reports given v there
    obtain ⟨r, hr, rfl⟩ := List.mem_map.1 there
    exact (given r (List.mem_mergeSort.1 hr)).mono lasts _
  cases deals with
  | rests _ _ _ same | enlists _ _ _ _ _ _ same | files _ _ _ same => exact old (same ▸ answer)
  | declines _ _ _ put =>
    rw [put] at answer
    rcases Table.get?_of_put answer with ⟨-, rfl⟩ | ⟨-, answer⟩
    · exact fun v there => absurd there List.not_mem_nil
    · exact old answer
  | @settles m _ settles =>
    cases settles with
    | wind => exact old answer
    | @stopTask i place found ended =>
      rcases Table.get?_of_put answer with ⟨rfl, rfl⟩ | ⟨-, filed⟩
      · obtain ⟨t, ht, rfl⟩ := rolls.calls found
        have given : Given h s m t.verdict :=
          ⟨place, t, ledger.held found place (List.mem_singleton_self _), ht,
            by simpa [World.running, ht] using ended, rfl⟩
        intro v there
        obtain rfl := List.mem_singleton.1 there
        rw [resultOf_eq_verdict ht]
        exact given.mono lasts _
      · exact old filed
    | @stopGroup g group found wound =>
      rcases Table.get?_of_put answer with ⟨rfl, rfl⟩ | ⟨-, filed⟩
      · exact sorted (ledger.collects found (fun a ha => ha) (rolls.calls found) wound)
      · exact old filed
    | @close reports found =>
      rcases Table.get?_of_put answer with ⟨rfl, rfl⟩ | ⟨-, filed⟩
      · exact sorted (ledger.collected found)
      · exact old filed

theorem Ledger.step (ledger : Ledger h s) (rolls : s.Rolls) (custody : s.Custody)
    (fresh : s'.Fresh) (taken : s.take? o = some (s', seen)) :
    Ledger (h ++ [⟨s, o, seen, s'⟩]) s' := by
  have attends := attends_of_take? custody.service taken
  have staffed := (advance_of_take? custody.staffed fresh taken).staffed
  have deals := deals_of_take? rolls custody fresh taken
  have lasts := attends.lasts
  obtain ⟨come, go⟩ := deals.lists rolls
  refine ⟨fun {k u} hu => ?_, fun {n k} took => ?_, fun {n k} took => ?_,
    fun {m n k} took took' => ?_, ledger.owed_step rolls custody fresh taken,
    fun pending => (ledger.held_step rolls lasts deals pending).1,
    fun pending => (ledger.held_step rolls lasts deals pending).2,
    ledger.given_step rolls lasts deals⟩
  · cases before : s.world.task? k with
    | none => exact .inl (listed_of_new staffed attends.serves before hu)
    | some t =>
      rcases ledger.kept before with lists | ⟨n, took⟩
      · by_cases after : s'.Lists k
        · exact .inl after
        · exact .inr ⟨_, took_snoc_iff.2 (.inr ⟨rfl, lists, after⟩)⟩
      · exact .inr ⟨n, took.mono _⟩
  · rcases took_snoc_iff.1 took with took | ⟨-, -, gone⟩
    · intro lists
      rcases come k lists with before | absent
      · exact ledger.parted took before
      · obtain ⟨-, t, ht⟩ := ledger.known took
        rw [absent] at ht
        contradiction
    · exact gone
  · rcases took_snoc_iff.1 took with took | ⟨rfl, lists, gone⟩
    · obtain ⟨lt, t, ht⟩ := ledger.known took
      obtain ⟨u, hu, -⟩ := lasts.tasks ht
      exact ⟨Nat.lt_of_lt_of_le lt deals.count, u, hu⟩
    · obtain ⟨c, -, -, -, lt⟩ := (go k lists).resolve_left gone
      obtain ⟨g, i, listed⟩ := lists
      obtain ⟨t, ht, -⟩ := rolls.listed listed
      obtain ⟨u, hu, -⟩ := lasts.tasks ht
      exact ⟨lt, u, hu⟩
  · rcases took_snoc_iff.1 took with old | ⟨rfl, lists, -⟩ <;>
      rcases took_snoc_iff.1 took' with old' | ⟨rfl, lists', -⟩
    · exact ledger.once old old'
    · exact absurd lists' (ledger.parted old)
    · exact absurd lists (ledger.parted old')
    · rfl

/-! ### Along a trail -/

section
variable {registry : Registry Unit} {settings : Settings} {taskId : Nat → TaskId}
  {groupId : Nat → GroupId}

theorem not_took_nil : ¬ Took [] n k := by
  intro took
  obtain ⟨l, hl, -⟩ := took
  contradiction

theorem ledger_new (registry : Registry Unit) (settings : Settings) (ids : IdSource) :
    Ledger [] (Supervisor.new registry settings ids) where
  kept ht := by contradiction
  parted took := absurd took not_took_nil
  known took := absurd took not_took_nil
  once took := absurd took not_took_nil
  owed took := absurd took not_took_nil
  held found := by contradiction
  collected found := by contradiction
  given found := by contradiction

theorem ledger_of_trail
    (trail : Trail take? (.new registry settings ⟨taskId, groupId, 0, 0⟩) h s) (fresh : s.Fresh) :
    Ledger h s := by
  induction trail with
  | rest => exact ledger_new ..
  | step past taken ih =>
    have fresh' := fresh.earlier taken
    obtain ⟨custody, rolls⟩ := rolls_of_trail past fresh'
    exact (ih fresh').step rolls custody fresh taken

theorem answer_of_trail {past later : List (Leg Supervisor Occasion Happening)} {a : Answer}
    (before : Trail take? (.new registry settings ⟨taskId, groupId, 0, 0⟩) past s)
    (after : Trail take? s later s') (fresh : s'.Fresh) (answer : s.answers.get? n = some a) :
    s'.answers.get? n = some a := by
  induction after with
  | rest => exact answer
  | step onward taken ih =>
    have fresh' := fresh.earlier taken
    obtain ⟨custody, rolls⟩ := rolls_of_trail (before.append onward) fresh'
    exact (deals_of_take? rolls custody fresh taken).keeps rolls (ih fresh')

theorem Ledger.keeper (ledger : Ledger h s) (rolls : s.Rolls) (ht : s.world.task? k = some t) :
    ∃ p, KeptBy h s k p ∧ ∀ q, KeptBy h s k q → q = p := by
  rcases ledger.kept ht with ⟨g, i, listed⟩ | ⟨n, took⟩
  · refine ⟨.group g, ⟨i, listed⟩, fun q kept => ?_⟩
    cases q with
    | group g' =>
      obtain ⟨j, listed'⟩ := kept
      rw [(rolls.listed_once listed listed').1]
    | call n | answer n => exact absurd ⟨g, i, listed⟩ (ledger.parted kept.1)
  · have unlisted : ∀ g, ¬ KeptBy h s k (.group g) :=
      fun g ⟨i, listed⟩ => ledger.parted took ⟨g, i, listed⟩
    -- A call that was answered is not pending.
    have apart : ∀ {c a}, s.pending.get? n = some c → s.answers.get? n = some a → False := by
      intro c a pending answer
      rw [(rolls.answered answer).2] at pending
      contradiction
    cases ledger.owed took ht with
    | pending pending =>
      refine ⟨.call n, ⟨took, _, pending⟩, fun q kept => ?_⟩
      cases q with
      | group g => exact absurd kept (unlisted g)
      | call m => rw [ledger.once kept.1 took]
      | answer m =>
        obtain ⟨took', a, answer⟩ := kept
        obtain rfl := ledger.once took' took
        exact (apart pending answer).elim
    | answered answer =>
      refine ⟨.answer n, ⟨took, _, answer⟩, fun q kept => ?_⟩
      cases q with
      | group g => exact absurd kept (unlisted g)
      | answer m => rw [ledger.once kept.1 took]
      | call m =>
        obtain ⟨took', c, pending⟩ := kept
        obtain rfl := ledger.once took' took
        exact (apart pending answer).elim

/-- However calls overlap, no task is lost or handed out twice, and neither is its report. -/
theorem every_task_is_accounted_for
    (trail : Trail take? (.new registry settings ⟨taskId, groupId, 0, 0⟩) h s) (fresh : s.Fresh) :
    Accounted h s := by
  obtain ⟨custody, rolls⟩ := rolls_of_trail trail fresh
  have ledger := ledger_of_trail trail fresh
  have given : ∀ {n a v}, s.answers.get? n = some a → v ∈ a.verdicts → ∃ k t,
      KeptBy h s k (.answer n) ∧ s.world.task? k = some t ∧ About t.context.taskId v ∧
        t.verdict = v := by
    intro n a v answer there
    obtain ⟨k, t, took, ht, -, rfl⟩ := ledger.given answer v there
    exact ⟨k, t, ⟨took, a, answer⟩, ht, about_verdict t, rfl⟩
  refine ⟨ledger.keeper rolls, rolls.listed, fun {n c k} pending holds => ?_,
    fun {n c k t} pending took ht => ?_, fun {n a k t} answer took ht => ?_, given,
    fun {n a v k t} answer there ht about => ?_, fun past l later split {n a} answer => ?_,
    fun asked idle {k t} ht => ?_⟩
  · exact ⟨ledger.held pending k holds, c, pending⟩
  · cases ledger.owed took ht with
    | pending found owes => exact Option.some.inj (found.symm.trans pending) ▸ owes
    | answered answer =>
      rw [(rolls.answered answer).2] at pending
      contradiction
  · cases ledger.owed took ht with
    | answered found ended accounts =>
      exact ⟨ended, Option.some.inj (found.symm.trans answer) ▸ accounts⟩
    | pending pending =>
      rw [(rolls.answered answer).2] at pending
      contradiction
  · obtain ⟨l, u, kept, hu, about', -⟩ := given answer there
    obtain rfl := custody.staffed.alone fresh hu ht (about'.alone about)
    exact kept
  · subst split
    obtain ⟨before, taken, after⟩ := trail.reach
    exact answer_of_trail (before.step taken) after fresh answer
  · have empty : s.groups = [] := by
      cases (closing_of_trail trail fresh).2 with
      | opened _ unasked =>
        obtain ⟨l, hl, called⟩ := asked
        exact absurd called (unasked l hl)
      | closing _ empty => exact empty
      | closed finished => exact finished.empty
    rcases ledger.kept ht with ⟨g, i, listed⟩ | ⟨n, took⟩
    · rw [listed?, empty] at listed
      contradiction
    · cases ledger.owed took ht with
      | answered answer => exact ⟨n, took, _, answer⟩
      | pending pending =>
        rw [idle n] at pending
        contradiction

end

end

/-- A task is stopped and panics, and the other one is shut down. -/
def clearance : List Occasion :=
  [.startGroup pair, .act (.monitor 0 .begin), .act (.task 0 .begin), .act (.task 0 .elect),
    .act (.task 0 .proceed), .stopTask (.ofNat 0), .act (.task 1 .begin), .shutdown,
    .act (.task 0 (.reply .empty .crashed)), .act (.monitor 0 .notice), .act (.task 1 .notice),
    .settle 1, .settle 0, .settle 1]

/-- What is left of the other task. -/
def leftover : TaskReport := ⟨.ofNat 1, .idle, .empty, .empty⟩

theorem clearance_of_a_pair :
    ∃ h s, Trail take? store h s ∧ s.Fresh ∧ Accounted h s ∧ (∃ l ∈ h, l.input = .shutdown) ∧
      s.pending = [] ∧
      (s.answers.get? 0).map Answer.verdicts = some [.error (.taskPanicked (.ofNat 0))] ∧
      (s.answers.get? 1).map Answer.verdicts = some [.ok leftover] := by
  have trail := Trail.of_inputs take? store clearance
  have fresh : (Trail.follow take? store clearance).2.Fresh :=
    fresh_of_pair (by decide) (by decide) (by decide)
  have asked : ∃ l ∈ (Trail.follow take? store clearance).1, l.input = .shutdown :=
    ⟨_, List.mem_of_getElem? (i := 7) rfl, rfl⟩
  have single : sortReports [leftover] = [leftover] := List.mergeSort_singleton _
  refine ⟨_, _, trail, fresh, every_task_is_accounted_for trail fresh, asked, by decide, rfl, ?_⟩
  show some ((sortReports [leftover]).map Except.ok) = _
  rw [single]
  rfl

end Supervisor

end Restock
