import Restock.Proofs.Supervisor.Custody
import Restock.Proofs.Supervisor.Deliveries

/-! Shutting down.

A supervisor closes once: its first shutdown takes all groups over, waits for them one
after the other and publishes the closing event, and every later one has nothing to do
(`Closing`). The shutdown waits only for those whom it has taken over itself. Whoever
was taken out of a group before belongs to the call that did so and may still run, and
be heard, after the closing event; when no such call is pending, everybody has ended
and nothing happens any more (`shutdown_closes_once`, `close_overtakes_a_stop`). -/
namespace Restock

namespace Supervisor

/-- The closing events so far. -/
def closesOf (h : List (Leg Supervisor Occasion Happening)) : List Event :=
  closesAmong (effectsOf h)

/-- The call under the number is a shutdown, and it is pending. -/
def Shuts (s : Supervisor) (n : Nat) : Prop :=
  ∃ left reports, s.pending.get? n = some (.shutdown left reports)

/-- A pending call that stops a task or a group waits for the activity. -/
def Leaving (s : Supervisor) (a : Activity) : Prop :=
  ∃ n c, s.pending.get? n = some c ∧ ¬ s.Shuts n ∧ a ∈ c.activities

/-- What a step is to the closing of the supervisor. -/
inductive Course (s s' : Supervisor) (o : Occasion) (seen : List Happening) : Prop
  | onward (closed : s'.closed = s.closed) (called : o = .shutdown → s.closed = true)
    (empty : s.closed = true → s.groups = [] → s'.groups = [])
    (shuts : ∀ n, s'.Shuts n ↔ s.Shuts n) (silent : closesAmong seen = [])
  | shuts (flag : s.closed = false) (called : o = .shutdown) (closed : s'.closed = true)
    (empty : s'.groups = []) (shuts : ∀ n, s'.Shuts n ↔ n = s.nextCall ∨ s.Shuts n)
    (silent : closesAmong seen = [])
  | close {n : Nat} (busy : s.Shuts n) (called : o = .settle n) (closed : s'.closed = s.closed)
    (groups : s'.groups = s.groups) (shuts : ∀ m, s'.Shuts m ↔ n ≠ m ∧ s.Shuts m)
    (closes : closesAmong seen = [.close "supervisor shutdown"])

/-- A shutdown is over. -/
structure Sealed (s : Supervisor) : Prop where
  closed : s.closed = true
  empty : s.groups = []
  idle : ∀ n, ¬ s.Shuts n

/-- How far the closing has come. -/
inductive Closing (h : List (Leg Supervisor Occasion Happening)) (s : Supervisor) : Prop
  | opened (flag : s.closed = false) (unasked : ∀ l ∈ h, l.input ≠ .shutdown)
    (idle : ∀ n, ¬ s.Shuts n) (silent : closesOf h = [])
  | closing {n : Nat} (flag : s.closed = true) (empty : s.groups = [])
    (asked : ∃ l ∈ h, l.input = .shutdown) (busy : s.Shuts n) (alone : ∀ m, s.Shuts m → m = n)
    (silent : closesOf h = [])
  | closed (finished : s.Sealed) (asked : ∃ l ∈ h, l.input = .shutdown)
    (once : closesOf h = [.close "supervisor shutdown"])

/-- What becomes of a supervisor on which a shutdown is over. -/
structure Fades (s s' : Supervisor) (o : Occasion) (seen : List Happening) : Prop where
  finished : s'.Sealed
  active : ∀ flag a, s'.world.Active flag a → s.world.Active flag a
  pending : (∀ n, s.pending.get? n = none) → ∀ n, s'.pending.get? n = none
  heard : (∃ m, o = .act m ∧ s.world.running m.actor = true) ∨
    (Hushed seen ∧ ((∀ n, s.pending.get? n = none) → seen = []))

/-- What a closing event leaves behind. -/
structure Aftermath (l : Leg Supervisor Occasion Happening)
    (later : List (Leg Supervisor Occasion Happening)) (s : Supervisor) : Prop where
  /-- Whoever runs has been told to stop, and a call that stops it waits for it. -/
  remains : ∀ a, l.after.world.running a = true → l.after.world.Active true a ∧ l.after.Leaving a
  /-- Nobody begins. -/
  ends : ∀ a, s.world.running a = true → l.after.world.running a = true
  /-- Nobody else publishes anything, and nobody else calls a collaborator. -/
  heard : ∀ m ∈ later, ¬ Hushed m.effects →
    ∃ move, m.input = .act move ∧ l.after.world.running move.actor = true
  /-- Without a pending call it is the last thing that happens. -/
  silence : (∀ n, l.after.pending.get? n = none) →
    (∀ a, l.after.world.running a = false) ∧ ∀ m ∈ later, m.effects = []

structure Finale (h : List (Leg Supervisor Occasion Happening)) (s : Supervisor) : Prop where
  once : closesOf h = [] ∨ closesOf h = [.close "supervisor shutdown"]
  asked : closesOf h ≠ [] → ∃ l ∈ h, l.input = .shutdown
  /-- The shutdown that is waited for closes. -/
  closes : (∃ l ∈ h, l.input = .shutdown) → (∀ n, ¬ s.Shuts n) →
    closesOf h = [.close "supervisor shutdown"]
  /-- A shutdown is not held up by anybody but those whom it waits for. -/
  onward : ∀ n left reports, s.pending.get? n = some (.shutdown left reports) →
    (∀ e ∈ left, s.wound e.2 = true) →
    ∃ w t, Trail take? s w t ∧ (∀ l ∈ w, l.input = .settle n) ∧
      closesOf w = [.close "supervisor shutdown"]
  aftermath : ∀ past l later, h = past ++ l :: later → closesAmong l.effects ≠ [] →
    Aftermath l later s

section
variable {s s' : Supervisor} {o : Occasion} {seen : List Happening} {n : Nat} {g : GroupId}
  {a : Activity} {h later : List (Leg Supervisor Occasion Happening)}

theorem closesOf_append (h later : List (Leg Supervisor Occasion Happening)) :
    closesOf (h ++ later) = closesOf h ++ closesOf later := by
  rw [closesOf, effectsOf_append, closesAmong_append, ← closesOf, ← closesOf]

theorem closesOf_snoc (h : List (Leg Supervisor Occasion Happening))
    (l : Leg Supervisor Occasion Happening) :
    closesOf (h ++ [l]) = closesOf h ++ closesAmong l.effects := by
  rw [closesOf_append]
  simp [closesOf]

/-! ### One step -/

theorem shuts_congr (pending : s'.pending = s.pending) : s'.Shuts n ↔ s.Shuts n := by
  rw [Shuts, Shuts, pending]

theorem shuts_put {m : Nat} {c : Call} (pending : s'.pending = s.pending.put n c) :
    s'.Shuts m ↔ if n = m then ∃ left reports, c = .shutdown left reports else s.Shuts m := by
  rw [Shuts, pending, Table.get?_put]
  split <;> simp [Shuts]

theorem shuts_erase {m : Nat} (pending : s'.pending = s.pending.erase n) :
    s'.Shuts m ↔ n ≠ m ∧ s.Shuts m := by
  rw [Shuts, pending, Table.get?_erase]
  by_cases same : n = m <;> simp [Shuts, same]

theorem Shuts.lt (custody : s.Custody) (shuts : s.Shuts n) : n < s.nextCall := by
  obtain ⟨left, reports, pending⟩ := shuts
  exact custody.numbered n _ pending

theorem hushed_stopped (as : List Activity) : Hushed [.stopped as] := by
  simp [Hushed, Happening.loud]

theorem hushed_enlist (s : Supervisor) (g : GroupId) (group : Group) :
    Hushed (s.enlist g group).2 := by
  cases hg : s.groups.get? g with
  | none => simp [enlist, hg, Hushed]
  | some old =>
    simp only [enlist, hg]
    exact World.hushed_leaveFeed _ _

theorem hushed_collect (s : Supervisor) (g : GroupId) (group : Group) :
    Hushed (s.collect g group).2.2 := by
  have forgets : Hushed (s.world.forgetGroup g).2 := World.hushed_withPool _ _ _
  exact forgets.append (World.hushed_leaveFeed (s.world.forgetGroup g).1 group.monitor)

/-- A stop that is no shutdown. -/
theorem course_stop {c : Call} (custody : s.Custody) (unasked : o ≠ .shutdown)
    (other : ∀ left reports, c ≠ .shutdown left reports) (closed : s'.closed = s.closed)
    (groups : s.groups = [] → s'.groups = []) (pending : s'.pending = s.pending.put s.nextCall c)
    (hushed : Hushed seen) : Course s s' o seen := by
  refine .onward closed (fun called => absurd called unasked) (fun _ => groups) (fun n => ?_)
    hushed.closes
  rw [shuts_put pending]
  split
  · next same =>
    subst same
    constructor
    · intro shuts
      obtain ⟨left, reports, same⟩ := shuts
      exact absurd same (other left reports)
    · intro shuts
      exact absurd (shuts.lt custody) (Nat.lt_irrefl _)
  · rfl

theorem course_shutdown (custody : s.Custody) :
    Course s s.shutdown.2.1 .shutdown s.shutdown.2.2 := by
  cases hc : s.closed with
  | true =>
    rw [shutdown_closed hc]
    refine .onward rfl (fun _ => hc) (fun _ empty => empty) (fun n => ?_) rfl
    rw [shuts_erase (s := s) (n := s.nextCall) rfl]
    constructor
    · exact fun shuts => shuts.2
    · intro shuts
      have := shuts.lt custody
      exact ⟨by omega, shuts⟩
  | false =>
    obtain ⟨as, -, effects, -, -, groups, pending, -, closed, -⟩ := shutdown_open hc
    rw [effects]
    refine .shuts hc rfl closed groups (fun n => ?_) (hushed_stopped as).closes
    rw [shuts_put pending]
    split
    · next same => simp [same]
    · next other => simp [Ne.symm other]

/-- Only a shutdown that is carried on to its end publishes anything. -/
theorem hushed_settle (settles : Settles s n s' seen) (other : ¬ s.Shuts n) : Hushed seen := by
  cases settles with
  | stopTask => simp [Hushed]
  | stopGroup => exact hushed_collect _ _ _
  | close pending | wind pending => exact absurd ⟨_, _, pending⟩ other

theorem not_shuts {c : Call} (pending : s.pending.get? n = some c)
    (other : ∀ left reports, c ≠ .shutdown left reports) : ¬ s.Shuts n := by
  intro shuts
  obtain ⟨left, reports, found⟩ := shuts
  exact other left reports (Option.some.inj (pending.symm.trans found))

/-- A call that is answered without a closing event. -/
theorem course_answer (other : ¬ s.Shuts n) (closed : s'.closed = s.closed)
    (groups : s'.groups = s.groups) (pending : s'.pending = s.pending.erase n)
    (hushed : Hushed seen) : Course s s' (.settle n) seen := by
  refine .onward closed (fun called => by contradiction) (fun _ empty => groups.trans empty)
    (fun m => ?_) hushed.closes
  rw [shuts_erase pending]
  exact and_iff_right_of_imp fun shuts same => other (same ▸ shuts)

theorem course_settle (settles : Settles s n s' seen) : Course s s' (.settle n) seen := by
  cases settles with
  | stopTask pending =>
    exact course_answer (not_shuts pending (by simp)) rfl rfl rfl (by simp [Hushed])
  | stopGroup pending =>
    exact course_answer (not_shuts pending (by simp)) rfl rfl rfl (hushed_collect _ _ _)
  | close pending => exact .close ⟨_, _, pending⟩ rfl rfl rfl (fun m => shuts_erase rfl) rfl
  | wind pending =>
    refine .onward rfl (fun called => by contradiction) (fun _ empty => empty) (fun m => ?_)
      (hushed_collect _ _ _).closes
    rw [shuts_put (s := s) (n := n) rfl]
    split
    · next same => simp [Shuts, ← same, pending]
    · rfl

theorem course_of_take? (custody : s.Custody) (h : s.take? o = some (s', seen)) :
    Course s s' o seen := by
  cases grants_of_take? h with
  | shutdown => exact course_shutdown custody
  | settle settles => exact course_settle settles
  | act acts =>
    obtain ⟨closed, pending, -⟩ := desk_eq_iff.1 (desk_act acts).1
    obtain ⟨w, hw, -, groups, -⟩ := act?_ok acts
    exact .onward closed (fun called => by contradiction) (fun _ empty => groups.trans empty)
      (fun n => shuts_congr pending) (World.closes_of_step? hw)
  | startGroup ok =>
    obtain ⟨desk, -⟩ := desk_startGroup custody.service.laid custody.lined ok
    obtain ⟨closed, pending, -⟩ := desk_eq_iff.1 desk
    obtain ⟨-, hs⟩ := startGroup_ok ok
    refine .onward closed (fun called => by contradiction) (fun flag => ?_)
      (fun n => shuts_congr pending) ?_
    · rw [(valid_of_startGroup ok).1] at flag
      contradiction
    · obtain ⟨-, rfl⟩ := Prod.ext_iff.1 hs
      exact (hushed_enlist _ _ _).closes
  | addTask ok =>
    obtain ⟨closed, pending, -⟩ := desk_eq_iff.1 (desk_addTask ok)
    obtain ⟨group, hg, -⟩ := addTask_ok ok
    refine .onward closed (fun called => by contradiction) (fun _ empty => ?_)
      (fun n => shuts_congr pending) rfl
    rw [empty] at hg
    contradiction
  | stopTask ok =>
    obtain ⟨g, n, -, rfl, -, -, groups, pending, -, closed, -⟩ := stopTask_ok ok
    refine course_stop custody (by simp) (by simp) closed (fun empty => ?_) pending
      (hushed_stopped _)
    rw [groups, empty]
    rfl
  | stopGroup ok =>
    obtain ⟨group, as, -, -, rfl, -, -, groups, pending, -, closed, -⟩ := stopGroup_ok ok
    refine course_stop custody (by simp) (by simp) closed (fun empty => ?_) pending
      (hushed_stopped _)
    rw [groups, empty]
    rfl

theorem Closing.step (closing : Closing h s) (course : Course s s' o seen) :
    Closing (h ++ [⟨s, o, seen, s'⟩]) s' := by
  have closes : closesOf (h ++ [⟨s, o, seen, s'⟩]) = closesOf h ++ closesAmong seen :=
    closesOf_snoc ..
  have lasts : (∃ l ∈ h, l.input = .shutdown) →
      ∃ l ∈ h ++ [⟨s, o, seen, s'⟩], l.input = .shutdown := by
    intro asked
    obtain ⟨l, hl, called⟩ := asked
    exact ⟨l, List.mem_append_left _ hl, called⟩
  cases course with
  | onward closed called empty shuts silent =>
    have same : closesOf (h ++ [⟨s, o, seen, s'⟩]) = closesOf h := by
      rw [closes, silent, List.append_nil]
    have idle' : (∀ n, ¬ s.Shuts n) → ∀ n, ¬ s'.Shuts n := by
      intro idle n
      rw [shuts]
      exact idle n
    cases closing with
    | opened flag unasked idle none =>
      refine .opened (closed.trans flag) (fun l hl => ?_) (idle' idle) (same.trans none)
      rcases List.mem_append.1 hl with hl | hl
      · exact unasked l hl
      · rw [List.mem_singleton.1 hl]
        intro shutdown
        rw [called shutdown] at flag
        contradiction
    | closing flag gone asked busy alone none =>
      exact .closing (closed.trans flag) (empty flag gone) (lasts asked) ((shuts _).2 busy)
        (fun m shutting => alone m ((shuts m).1 shutting)) (same.trans none)
    | closed finished asked once =>
      exact .closed ⟨closed.trans finished.closed, empty finished.closed finished.empty,
        idle' finished.idle⟩ (lasts asked) (same ▸ once)
  | shuts flag called closed empty shuts silent =>
    cases closing with
    | opened _ _ idle none =>
      refine .closing closed empty ⟨_, List.mem_append_right _ (List.mem_singleton_self _), called⟩
        ((shuts _).2 (.inl rfl)) (fun m shutting => ?_) (by rw [closes, none, silent]; rfl)
      exact ((shuts m).1 shutting).resolve_right (idle m)
    | closing flag' =>
      rw [flag] at flag'
      contradiction
    | closed finished =>
      rw [finished.closed] at flag
      contradiction
  | close busy called closed groups shuts one =>
    cases closing with
    | opened _ _ idle => exact absurd busy (idle _)
    | closed finished => exact absurd busy (finished.idle _)
    | closing flag gone asked _ alone none =>
      refine .closed ⟨closed.trans flag, groups.trans gone, fun m shutting => ?_⟩ (lasts asked) ?_
      · -- There was only one shutdown to carry on.
        obtain ⟨other, shutting⟩ := (shuts m).1 shutting
        exact other ((alone _ busy).trans (alone m shutting).symm)
      · rw [closes, none, one]
        rfl

/-! ### Along a trail -/

theorem Fresh.before {t : Supervisor} (fresh : t.Fresh) (trail : Trail take? s h t) : s.Fresh := by
  induction trail with
  | rest => exact fresh
  | step _ taken ih => exact ih (fresh.earlier taken)

theorem fresh_of_single (tasks : s.ids.tasks = 1) (groups : s.ids.groups = 1) : s.Fresh :=
  ⟨fun i j _ _ => by omega, fun i j _ _ => by omega⟩

theorem fresh_of_pair (tasks : s.ids.tasks = 2) (groups : s.ids.groups = 1)
    (apart : s.ids.taskId 0 ≠ s.ids.taskId 1) : s.Fresh := by
  refine ⟨fun i j hij hj => ?_, fun i j hij hj => by omega⟩
  obtain ⟨rfl, rfl⟩ : i = 0 ∧ j = 1 := by omega
  exact apart

theorem closing_of_trail {registry : Registry Unit} {settings : Settings} {taskId : Nat → TaskId}
    {groupId : Nat → GroupId}
    (trail : Trail take? (.new registry settings ⟨taskId, groupId, 0, 0⟩) h s) (fresh : s.Fresh) :
    s.Custody ∧ Closing h s := by
  induction trail with
  | rest =>
    refine ⟨custody_new .., .opened rfl (by simp) (fun n shuts => ?_) rfl⟩
    obtain ⟨left, reports, pending⟩ := shuts
    contradiction
  | step past taken ih =>
    obtain ⟨custody, closing⟩ := ih (fresh.earlier taken)
    exact ⟨custody.step fresh taken, closing.step (course_of_take? custody taken)⟩

/-! ### After the closing event -/

theorem fades_of_take? (finished : s.Sealed) (h : s.take? o = some (s', seen)) : Fades s s' o seen := by
  obtain ⟨closed, empty, idle⟩ := finished
  cases grants_of_take? h with
  | act acts =>
    obtain ⟨same, pending, -⟩ := desk_eq_iff.1 (desk_act acts).1
    obtain ⟨w, hw, rfl, groups, -⟩ := act?_ok acts
    refine ⟨⟨same.trans closed, groups.trans empty, fun n shuts => ?_⟩,
      fun flag a => World.active_of_step? hw, fun none => pending ▸ none,
      .inl ⟨_, rfl, World.running_of_step? hw⟩⟩
    exact idle n ((shuts_congr pending).1 shuts)
  | startGroup ok =>
    rw [(valid_of_startGroup ok).1] at closed
    contradiction
  | addTask ok =>
    obtain ⟨group, hg, -⟩ := addTask_ok ok
    rw [empty] at hg
    contradiction
  | stopTask ok =>
    obtain ⟨g, n, owner, -⟩ := stopTask_ok ok
    rw [owner?, empty] at owner
    contradiction
  | stopGroup ok =>
    obtain ⟨group, as, hg, -⟩ := stopGroup_ok ok
    rw [empty] at hg
    contradiction
  | shutdown =>
    rw [shutdown_closed closed]
    refine ⟨⟨closed, empty, fun n shuts => ?_⟩, fun flag a active => active, fun none n => ?_,
      .inr ⟨by simp [Hushed], fun _ => rfl⟩⟩
    · exact idle n ((shuts_erase (s := s) (n := s.nextCall) rfl).1 shuts).2
    · refine (Table.get?_erase ..).trans ?_
      rw [none, ite_self]
  | @settle n _ _ settles =>
    obtain ⟨groups, monitors, buyers, -⟩ := settles_frame settles
    have hushed := hushed_settle settles (idle n)
    have active : ∀ flag a, s'.world.Active flag a → s.world.Active flag a :=
      fun flag a => (World.active_congr monitors buyers).1
    cases settles with
    | close pending | wind pending => exact absurd ⟨_, _, pending⟩ (idle n)
    | stopTask pending | stopGroup pending =>
      have held : ¬ ∀ n, s.pending.get? n = none := by
        intro none
        rw [none n] at pending
        contradiction
      refine ⟨⟨closed, groups.trans empty, fun m shuts => ?_⟩, active, fun none => absurd none held,
        .inr ⟨hushed, fun none => absurd none held⟩⟩
      exact idle m ((shuts_erase (s := s) (n := n) rfl).1 shuts).2

theorem Sealed.trail {t : Supervisor} (finished : s.Sealed) (trail : Trail take? s later t) :
    t.Sealed ∧ (∀ a, t.world.running a = true → s.world.running a = true) ∧
      ((∀ n, s.pending.get? n = none) → ∀ n, t.pending.get? n = none) := by
  induction trail with
  | rest => exact ⟨finished, fun a runs => runs, fun none => none⟩
  | step _ taken ih =>
    obtain ⟨finished, runs, pending⟩ := ih
    have fades := fades_of_take? finished taken
    refine ⟨fades.finished, fun a running => ?_, fun none => fades.pending (pending none)⟩
    obtain ⟨flag, active⟩ := World.running_iff.1 running
    exact runs a (World.running_iff.2 ⟨flag, fades.active flag a active⟩)

/-- A step that publishes a closing event is the end of a shutdown. -/
theorem sealed_of_closes {past : List (Leg Supervisor Occasion Happening)}
    {l : Leg Supervisor Occasion Happening} (closing : Closing (past ++ [l]) s)
    (closes : closesAmong l.effects ≠ []) : s.Sealed := by
  have told : closesOf (past ++ [l]) ≠ [] := by
    rw [closesOf_snoc]
    exact fun none => closes (List.append_eq_nil_iff.1 none).2
  cases closing with
  | opened _ _ _ silent | closing _ _ _ _ _ silent => exact absurd silent told
  | closed finished => exact finished

theorem aftermath_of_sealed {l : Leg Supervisor Occasion Happening} (custody : l.after.Custody)
    (finished : l.after.Sealed) (trail : Trail take? l.after later s) : Aftermath l later s := by
  have remains : ∀ a, l.after.world.running a = true →
      l.after.world.Active true a ∧ l.after.Leaving a := by
    intro a runs
    obtain ⟨flag, active⟩ := World.running_iff.1 runs
    cases flag with
    | true =>
      obtain ⟨n, c, pending, there⟩ := custody.awaited a active
      exact ⟨active, n, c, pending, finished.idle n, there⟩
    | false =>
      obtain ⟨g, group, hg, -⟩ := custody.listed active
      rw [finished.empty] at hg
      contradiction
  have nobody : (∀ n, l.after.pending.get? n = none) → ∀ a, l.after.world.running a = false := by
    intro none a
    refine Bool.eq_false_iff.2 fun runs => ?_
    obtain ⟨-, n, c, pending, -⟩ := remains a runs
    rw [none] at pending
    contradiction
  -- What is heard of a later step is heard of somebody who ran at the closing.
  have fades : ∀ m ∈ later, ∃ v, Fades v m.after m.input m.effects ∧
      (∀ a, v.world.running a = true → l.after.world.running a = true) ∧
      ((∀ n, l.after.pending.get? n = none) → ∀ n, v.pending.get? n = none) := by
    intro m hm
    obtain ⟨past, rest, rfl⟩ := List.append_of_mem hm
    obtain ⟨before, taken, -⟩ := trail.reach
    obtain ⟨finished', runs, pending⟩ := finished.trail before
    exact ⟨m.before, fades_of_take? finished' taken, runs, pending⟩
  refine ⟨remains, (finished.trail trail).2.1, fun m hm loud => ?_, fun none => ⟨nobody none,
    fun m hm => ?_⟩⟩
  · obtain ⟨v, fades, runs, -⟩ := fades m hm
    rcases fades.heard with ⟨move, acts, running⟩ | ⟨hushed, -⟩
    · exact ⟨move, acts, runs _ running⟩
    · exact absurd hushed loud
  · obtain ⟨v, fades, runs, pending⟩ := fades m hm
    rcases fades.heard with ⟨move, -, running⟩ | ⟨-, silent⟩
    · have gone := nobody none move.actor
      rw [runs _ running] at gone
      contradiction
    · exact silent (pending none)

/-- A shutdown goes on past a group whose activities have ended. -/
theorem wind_of_wound {group : Group} {left : List (GroupId × Group)} {reports : List TaskReport}
    (pending : s.pending.get? n = some (.shutdown ((g, group) :: left) reports))
    (wound : s.wound group = true) :
    ∃ t seen more, s.take? (.settle n) = some (t, seen) ∧ Hushed seen ∧
      t.pending.get? n = some (.shutdown left more) ∧ ∀ other, t.wound other = s.wound other := by
  refine ⟨{ (s.collect g group).2.1 with
      pending := s.pending.put n (.shutdown left (reports ++ (s.collect g group).1)) },
    (s.collect g group).2.2, reports ++ (s.collect g group).1, ?_, hushed_collect _ _ _,
    Table.get?_put_self .., fun other => ?_⟩
  · simp only [take?, settle?, pending, wound, if_true]
    rfl
  · rfl

theorem ends_of_wound {left : List (GroupId × Group)} {reports : List TaskReport}
    (pending : s.pending.get? n = some (.shutdown left reports))
    (wound : ∀ e ∈ left, s.wound e.2 = true) :
    ∃ w t, Trail take? s w t ∧ (∀ l ∈ w, l.input = .settle n) ∧
      closesOf w = [.close "supervisor shutdown"] := by
  induction left generalizing s reports with
  | nil =>
    have taken : s.take? (.settle n) =
        some ({ s with world := (s.world.publish (.close "supervisor shutdown")).1 }.answer n
          (.reports (sortReports reports)), [.published (.close "supervisor shutdown")]) := by
      simp only [take?, settle?, pending]
      rfl
    exact ⟨_, _, .single taken, by simp, rfl⟩
  | cons e left ih =>
    obtain ⟨t, seen, more, taken, hushed, pending', same⟩ :=
      wind_of_wound pending (wound e List.mem_cons_self)
    obtain ⟨w, u, trail, inputs, closes⟩ := ih pending' fun e he => by
      rw [same]
      exact wound e (List.mem_cons_of_mem _ he)
    refine ⟨_, u, (Trail.single taken).append trail, fun l hl => ?_, ?_⟩
    · rcases List.mem_append.1 hl with hl | hl
      · rw [List.mem_singleton.1 hl]
      · exact inputs l hl
    · rw [closesOf_append, closesOf, effectsOf_singleton, hushed.closes]
      exact closes

/-- However its calls and the acts of its activities follow each other, a supervisor
closes once, and after that it hears only of those who were being stopped already. -/
theorem shutdown_closes_once {registry : Registry Unit} {settings : Settings}
    {taskId : Nat → TaskId} {groupId : Nat → GroupId}
    (trail : Trail take? (.new registry settings ⟨taskId, groupId, 0, 0⟩) h s) (fresh : s.Fresh) :
    Finale h s := by
  obtain ⟨-, closing⟩ := closing_of_trail trail fresh
  refine ⟨?_, fun told => ?_, fun asked idle => ?_, fun n left reports pending wound => ?_,
    fun past l later split closes => ?_⟩
  · cases closing with
    | opened _ _ _ silent | closing _ _ _ _ _ silent => exact .inl silent
    | closed _ _ once => exact .inr once
  · cases closing with
    | opened _ _ _ silent => exact absurd silent told
    | closing _ _ asked | closed _ asked => exact asked
  · cases closing with
    | opened _ unasked =>
      obtain ⟨l, hl, called⟩ := asked
      exact absurd called (unasked l hl)
    | closing _ _ _ busy => exact absurd busy (idle _)
    | closed _ _ once => exact once
  · exact ends_of_wound pending wound
  · subst split
    obtain ⟨before, taken, after⟩ := trail.reach
    have fresh' := fresh.before after
    obtain ⟨custody, closing⟩ := closing_of_trail (before.step taken) fresh'
    exact aftermath_of_sealed custody (sealed_of_closes closing closes) after

end

/-- A shop that closes in peace, and is told to close once more. -/
def closingTime : List Occasion :=
  [.startGroup stand, .act (.monitor 0 .begin), .act (.task 0 .begin), .shutdown,
    .act (.monitor 0 .notice), .act (.task 0 .notice), .settle 0, .settle 0, .shutdown]

theorem close_of_a_shop :
    ∃ h s, Trail take? shop h s ∧ s.Fresh ∧ Finale h s ∧
      closesOf h = [.close "supervisor shutdown"] ∧ s.world.running (.task 0) = false := by
  have trail := Trail.of_inputs take? shop closingTime
  have fresh : (Trail.follow take? shop closingTime).2.Fresh :=
    fresh_of_single (by decide) (by decide)
  exact ⟨_, _, trail, fresh, shutdown_closes_once trail fresh, by decide, by decide⟩

def served : TaskMove := .reply .empty (.outcome (.success none))

/-- A task is stopped while its driver places the order, and then everything is. -/
def overlap : List Occasion :=
  .startGroup stand :: firstWave ++
    [.act (.task 0 .proceed), .act (.task 0 served), .act (.task 0 .proceed),
      .act (.task 0 served), .act (.task 0 .proceed), .act (.task 0 served),
      .act (.task 0 .proceed), .act (.task 0 served), .act (.task 0 .proceed),
      .stopTask (.ofNat 0), .shutdown, .act (.monitor 0 .notice), .settle 1]

/-- The shop before its closing event. -/
def overtaken : Supervisor := (Trail.follow take? shop overlap).2

/-- The shop after its closing event. -/
def locked : Supervisor × List Happening := (overtaken.take? (.settle 1)).getD (overtaken, [])

theorem locks : overtaken.take? (.settle 1) = some (locked.1, locked.2) := rfl

/-- The closing event does not wait for a task that was stopped before: the task is in a
call of its driver then, and its order is told of later. -/
theorem close_overtakes_a_stop :
    ∃ past l later s, Trail take? shop (past ++ l :: later) s ∧ s.Fresh ∧
      closesAmong l.effects = [.close "supervisor shutdown"] ∧
      l.after.world.running (.task 0) = true ∧
      (l.after.world.task? 0).map (fun t => t.phase) = some (.calling .placeOrder) ∧
      ∃ payload, eventsAmong (effectsOf later) =
        [.task (.ofNat 0) .checkedOut .complete payload] := by
  have past := Trail.of_inputs take? shop overlap
  have later := Trail.of_inputs take? locked.1 [.act (.task 0 served)]
  have fresh : (Trail.follow take? locked.1 [.act (.task 0 served)]).2.Fresh :=
    fresh_of_single (by decide) (by decide)
  exact ⟨_, ⟨overtaken, .settle 1, locked.2, locked.1⟩,
    (Trail.follow take? locked.1 [.act (.task 0 served)]).1, _,
    past.append ((Trail.single locks).append later), fresh, by decide, by decide, by decide, _, rfl⟩

end Supervisor

end Restock
