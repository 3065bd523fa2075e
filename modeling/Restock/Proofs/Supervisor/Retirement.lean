import Restock.Proofs.Supervisor.Rolls
import Restock.Proofs.Supervisor.SharedLogin
import Restock.Proofs.Supervisor.Shutdown

/-! Retirement of a group.

A call that stops a group is answered when the activities of the group have ended, and
with its answer the pool forgets the group (`Stops`). From there on the group is gone: its
activities are over, and nobody can put an entry of the group into the pool again
(`Retired`). A claim needs a task whose flag is down, and such a task belongs to a running
group; a login that a stopped task still has under way finds its claim stale, whatever
it comes to. So a group that was stopped stays stopped (`stopped_groups_stay_stopped`). -/
namespace Restock

namespace Supervisor

/-- The group is closed, its activities have ended, and the pool has nothing of it. -/
structure Retired (s : Supervisor) (g : GroupId) (group : Group) : Prop where
  closed : s.Closed g
  ended : ∀ a ∈ group.activities, s.world.Over a
  empty : ∀ k, k.groupId = g → s.world.pool.entryAt? k = none

/-- How far the call that stops a group has come. -/
inductive Stops (s : Supervisor) (g : GroupId) (group : Group) (n : Nat) : Prop
  | waits (pending : s.pending.get? n = some (.stopGroup g group))
    (unanswered : s.answers.get? n = none)
  | answered {reports : List TaskReport} (answer : s.answers.get? n = some (.reports reports))
    (retired : s.Retired g group)

/-- The group is gone, and nothing was heard of it. -/
structure Gone (w : Legs) (t : Supervisor) (g : GroupId) (group : Group) : Prop where
  ended : ∀ a ∈ group.activities, t.world.Over a
  empty : ∀ k, k.groupId = g → t.world.pool.entryAt? k = none
  /-- None of its activities acts. -/
  idle : ∀ l ∈ w, ∀ m, l.input = .act m → m.actor ∉ group.activities
  /-- None publishes an event, feeds its feed or calls its collaborator. -/
  silent : ∀ l ∈ w, ∀ x ∈ l.effects, ∀ a ∈ group.activities, ¬ l.before.world.Voices a x

/-- What a call that stops a group comes to. -/
structure Retires (l : Leg Supervisor Occasion Happening) (later : Legs) (s : Supervisor)
    (g : GroupId) (group : Group) (n : Nat) : Prop where
  /-- The accounts of other groups are left alone, when the call is made and when it is
  answered. -/
  others : l.after.world.pool = l.before.world.pool ∧
    ∀ m ∈ later, m.input = .settle n → ∀ k, k.groupId ≠ g →
      m.after.world.pool.entryAt? k = m.before.world.pool.entryAt? k
  /-- Its answer is the reports. -/
  reports : ∀ a, s.answers.get? n = some a → ∃ reports, a = .reports reports
  /-- Once it is answered the group is gone for good. -/
  gone : s.answers.get? n ≠ none → ∀ w t, Trail take? s w t → t.Fresh → Gone w t g group

section
variable {s s' : Supervisor} {o : Occasion} {seen : List Happening} {n : Nat} {g : GroupId}
  {group : Group}

/-! ### One step -/

/-- Nobody puts an entry of a closed group into the pool. -/
theorem Shift.empty (shift : Shift s s' seen) (staffed : s.Staffed) (orderly : s.world.Orderly)
    (closed : s.Closed g) (empty : ∀ k, k.groupId = g → s.world.pool.entryAt? k = none) :
    ∀ k, k.groupId = g → s'.world.pool.entryAt? k = none := by
  intro k own
  have vacant := empty k own
  rcases shift.turn_or_rest with ⟨n, t, u, i, es, p, turn⟩ | ⟨-, -, entries⟩
  · have trade := turn.trade (orderly turn.task).1
    generalize s'.world.pool = p' at trade ⊢
    generalize eventsAmong seen = events at trade
    cases trade with
    | pass | adopt => exact vacant
    | claim account _ flag =>
      -- Whoever claims belongs to a running group.
      rw [Pool.entryAt?_claim, if_neg]
      · exact vacant
      · intro same
        obtain ⟨rfl, -⟩ := same
        obtain ⟨c, -, rfl⟩ := Option.map_eq_some_iff.1 account
        have own : t.context.groupId = g := own
        exact staffed.running turn.task flag (own ▸ closed)
    | share | giveUp =>
      rw [Pool.entryAt?_finish, if_neg]
      · exact vacant
      · intro same
        obtain ⟨rfl, holds⟩ := same
        rw [Pool.holds_iff, vacant] at holds
        contradiction
  · rcases entries k with same | ⟨gone, -⟩
    · exact same.trans vacant
    · exact gone

theorem Retired.step (retired : s.Retired g group) (custody : s.Custody) (orderly : s.world.Orderly)
    (fresh : s'.Fresh) (h : s.take? o = some (s', seen)) : s'.Retired g group := by
  have advance := advance_of_take? custody.staffed fresh h
  have lasts := (attends_of_take? custody.service h).lasts
  exact ⟨advance.closed g retired.closed, fun a ha => lasts.ended (retired.ended a ha),
    advance.shift.empty custody.staffed orderly retired.closed retired.empty⟩

theorem number_of_stopGroup (h : s.stopGroup g = .ok (n, s', seen)) : n = s.nextCall := by
  unfold stopGroup at h
  split at h
  · contradiction
  · simp only [Except.ok.injEq, Prod.mk.injEq] at h
    exact h.1.symm

/-- A group that is being stopped waits for its activities. -/
theorem stops_of_stopGroup (rolls : s.Rolls) (h : s.stopGroup g = .ok (n, s', seen)) :
    ∃ group, s.groups.get? g = some group ∧ s'.world.pool = s.world.pool ∧
      s'.Stops g group n := by
  have answers := answers_stopGroup h
  obtain rfl := number_of_stopGroup h
  obtain ⟨group, as, hg, -, -, world, -, -, pending, -⟩ := stopGroup_ok h
  refine ⟨group, hg, by rw [world, (s.world.raised_stop as).pool], .waits ?_ ?_⟩
  · rw [pending]
    exact Table.get?_put_self ..
  · rw [answers]
    refine Option.eq_none_iff_forall_ne_some.2 fun a answer => ?_
    exact absurd (rolls.answered answer).1 (Nat.lt_irrefl _)

/-- The call that stops a group is carried on when the group has wound down. -/
theorem settles_of_waits (pending : s.pending.get? n = some (.stopGroup g group))
    (settles : Settles s n s' seen) :
    s.wound group = true ∧ s'.world.pool = (s.world.pool.removeGroup g).1 ∧
      s'.answers.get? n = some (.reports (sortReports (s.collect g group).1)) := by
  cases settles with
  | stopTask found | close found | wind found =>
    rw [pending] at found
    cases found
  | stopGroup found wound =>
    rw [pending] at found
    obtain ⟨rfl, rfl⟩ := Call.stopGroup.inj (Option.some.inj found)
    exact ⟨wound, rfl, Table.get?_put_self ..⟩

theorem Stops.step (stops : s.Stops g group n) (custody : s.Custody) (rolls : s.Rolls)
    (orderly : s.world.Orderly) (fresh : s'.Fresh) (h : s.take? o = some (s', seen)) :
    s'.Stops g group n := by
  have deals := deals_of_take? rolls custody fresh h
  cases stops with
  | waits pending unanswered =>
    by_cases called : o = .settle n
    · subst called
      obtain ⟨wound, pool, answer⟩ := settles_of_waits pending (settles_of_settle? h)
      have closed := custody.staffed.winds ⟨n, _, pending, List.mem_singleton_self g⟩
      have enrolled : s.world.Enrolled g group := rolls.calls pending
      have lasts := (attends_of_take? custody.service h).lasts
      refine .answered answer ⟨(advance_of_take? custody.staffed fresh h).closed g closed,
        fun a ha => lasts.ended (enrolled.ended ?_ ha), fun k own => ?_⟩
      · simpa using List.all_eq_true.1 wound a ha
      · rw [pool, Pool.entryAt?_removeGroup, if_pos own]
    · obtain ⟨same, answers⟩ := deals.elsewhere (custody.numbered n _ pending) called
      exact .waits (same.trans pending) (answers.trans unanswered)
  | answered answer retired =>
    exact .answered (deals.keeps rolls answer) (retired.step custody orderly fresh h)

/-- Nothing that is not an act is anybody's doing. -/
theorem voiceless_of_take? (custody : s.Custody) (h : s.take? o = some (s', seen))
    (idle : ∀ m, o ≠ .act m) : ∀ x ∈ seen, ∀ a, ¬ s.world.Voices a x := by
  have quiet : ∀ n, wavesAmong n seen = [] := by
    intro n
    have duty := (attends_of_take? custody.service h).duties n
    generalize s.world.monitors.get? n = before at duty
    generalize s'.world.monitors.get? n = after at duty
    cases duty with
    | rests _ quiet | stopped _ quiet | begins _ _ _ quiet => exact quiet
    | acts called => exact absurd called (idle _)
  have hushed : Hushed seen → ∀ x ∈ seen, ∀ a, ¬ s.world.Voices a x := by
    intro hushed x hx a voices
    have busy := voices.busy
    cases x with
    | fed m wave =>
      have there : wave ∈ wavesAmong m seen := List.mem_filterMap.2 ⟨_, hx, if_pos rfl⟩
      rw [quiet] at there
      contradiction
    | _ => simp [Happening.busy, hushed _ hx] at busy
  cases grants_of_take? h with
  | act => exact absurd rfl (idle _)
  | startGroup ok =>
    obtain ⟨-, hs⟩ := startGroup_ok ok
    obtain ⟨-, rfl⟩ := Prod.ext_iff.1 hs
    exact hushed (hushed_enlist _ _ _)
  | addTask => exact fun x hx => absurd hx List.not_mem_nil
  | stopTask ok =>
    obtain ⟨g, n, -, rfl, -⟩ := stopTask_ok ok
    exact hushed (hushed_stopped _)
  | stopGroup ok =>
    obtain ⟨group, as, -, -, rfl, -⟩ := stopGroup_ok ok
    exact hushed (hushed_stopped _)
  | shutdown =>
    cases hc : s.closed with
    | true =>
      rw [shutdown_closed hc]
      exact fun x hx => absurd hx List.not_mem_nil
    | false =>
      obtain ⟨as, -, effects, -⟩ := shutdown_open hc
      rw [effects]
      exact fun x hx a voices => by
        rw [List.mem_singleton.1 hx] at voices
        cases voices
  | settle settles =>
    cases settles with
    | stopTask => exact fun x hx => absurd hx List.not_mem_nil
    | stopGroup | wind => exact hushed (hushed_collect _ _ _)
    | close =>
      intro x hx a voices
      rw [List.mem_singleton.1 hx] at voices
      cases voices <;> contradiction

/-- Nobody whose run is over acts or is heard. -/
theorem silent_of_take? (custody : s.Custody) (rolls : s.Rolls) (fresh : s.Fresh)
    (h : s.take? o = some (s', seen)) {a : Activity} (ended : s.world.Over a) :
    (∀ m, o = .act m → m.actor ≠ a) ∧ ∀ x ∈ seen, ¬ s.world.Voices a x := by
  have idle : ∀ m, o = .act m → m.actor ≠ a := by
    rintro m rfl rfl
    obtain ⟨w, hw, -⟩ := act?_ok h
    have runs := World.running_of_step? hw
    rw [ended.not_running] at runs
    contradiction
  refine ⟨idle, fun x hx voices => ?_⟩
  by_cases acts : ∃ m, o = .act m
  · obtain ⟨m, rfl⟩ := acts
    obtain ⟨w, hw, -⟩ := act?_ok h
    have actor := World.voices_of_step? hw x hx voices.busy
    exact idle m rfl (actor.alone voices rolls.alone (custody.staffed.alone fresh))
  · exact voiceless_of_take? custody h (fun m called => acts ⟨m, called⟩) x hx a voices

/-! ### Along a trail -/

section
variable {registry : Registry Unit} {settings : Settings} {taskId : Nat → TaskId}
  {groupId : Nat → GroupId} {past w : Legs} {t : Supervisor}

theorem Retired.trail (retired : s.Retired g group)
    (before : Trail take? (.new registry settings ⟨taskId, groupId, 0, 0⟩) past s)
    (trail : Trail take? s w t) (fresh : t.Fresh) : t.Retired g group := by
  induction trail with
  | rest => exact retired
  | step onward taken ih =>
    have fresh' := fresh.earlier taken
    have sofar := before.append onward
    exact (ih fresh').step (rolls_of_trail sofar fresh').1 (books_of_trail sofar fresh').orderly fresh
      taken

theorem Stops.trail (stops : s.Stops g group n)
    (before : Trail take? (.new registry settings ⟨taskId, groupId, 0, 0⟩) past s)
    (trail : Trail take? s w t) (fresh : t.Fresh) : t.Stops g group n := by
  induction trail with
  | rest => exact stops
  | step onward taken ih =>
    have fresh' := fresh.earlier taken
    have sofar := before.append onward
    obtain ⟨custody, rolls⟩ := rolls_of_trail sofar fresh'
    exact (ih fresh').step custody rolls (books_of_trail sofar fresh').orderly fresh taken

theorem Retired.gone (retired : s.Retired g group)
    (before : Trail take? (.new registry settings ⟨taskId, groupId, 0, 0⟩) past s)
    (trail : Trail take? s w t) (fresh : t.Fresh) : Gone w t g group := by
  obtain ⟨-, ended, empty⟩ := retired.trail before trail fresh
  have silent : ∀ l ∈ w, ∀ a ∈ group.activities, (∀ m, l.input = .act m → m.actor ≠ a) ∧
      ∀ x ∈ l.effects, ¬ l.before.world.Voices a x := by
    intro l hl a ha
    obtain ⟨first, rest, rfl⟩ := List.append_of_mem hl
    obtain ⟨onward, taken, after⟩ := trail.reach
    have fresh' := (fresh.before after).earlier taken
    obtain ⟨custody, rolls⟩ := rolls_of_trail (before.append onward) fresh'
    exact silent_of_take? custody rolls fresh' taken
      ((retired.trail before onward fresh').ended a ha)
  exact ⟨ended, empty, fun l hl m called member => (silent l hl _ member).1 m called rfl,
    fun l hl x hx a ha => (silent l hl a ha).2 x hx⟩

/-- A group that was stopped stays stopped, whatever calls and acts come after that, and
whatever becomes of the tasks that were taken out of it before. -/
theorem stopped_groups_stay_stopped {h : Legs}
    (trail : Trail take? (.new registry settings ⟨taskId, groupId, 0, 0⟩) h s) (fresh : s.Fresh) :
    ∀ past l later g, h = past ++ l :: later → l.input = .stopGroup g →
      ∃ group n, l.before.groups.get? g = some group ∧
        l.before.stopGroup g = .ok (n, l.after, l.effects) ∧ Retires l later s g group n := by
  rintro past ⟨b, i, effects, a⟩ later g rfl rfl
  obtain ⟨before, taken, after⟩ := trail.reach
  have fresh' := fresh.before after
  cases grants_of_take? taken with
  | @stopGroup _ n _ _ ok =>
    have sofar := before.step taken
    obtain ⟨group, hg, pool, stops⟩ :=
      stops_of_stopGroup (rolls_of_trail before (fresh'.earlier taken)).2 ok
    have whole := sofar.append after
    refine ⟨group, n, hg, ok, ⟨pool, fun m hm called k other => ?_⟩, fun x answer => ?_,
      fun answered w t onward fresh'' => ?_⟩
    · obtain ⟨first, rest, rfl⟩ := List.append_of_mem hm
      obtain ⟨onward, carried, after'⟩ := after.reach
      have fresh'' := (fresh.before after').earlier carried
      obtain ⟨-, rolls⟩ := rolls_of_trail (sofar.append onward) fresh''
      rw [called] at carried
      have settles := settles_of_settle? carried
      cases stops.trail sofar onward fresh'' with
      | waits pending =>
        rw [(settles_of_waits pending settles).2.1, Pool.entryAt?_removeGroup, if_neg other]
      | answered answer =>
        obtain ⟨c, pending⟩ := settles.pending
        rw [(rolls.answered answer).2] at pending
        contradiction
    · cases stops.trail sofar after fresh with
      | waits _ unanswered =>
        rw [unanswered] at answer
        contradiction
      | answered found => exact ⟨_, Option.some.inj (answer.symm.trans found)⟩
    · cases stops.trail sofar after fresh with
      | waits _ unanswered => exact absurd unanswered answered
      | answered _ retired => exact retired.gone whole onward fresh''

end

end

/-- A task is stopped in the call that logs in, and then its group is stopped. -/
def interrupted : List Occasion :=
  [.startGroup pair, .act (.monitor 0 .begin), .act (.task 0 .begin), .act (.task 1 .begin),
    .act (.task 0 .elect), .act (.task 1 .elect), .act (.task 0 .proceed), .stopTask (.ofNat 0)]

/-- The store before its group is stopped. -/
def manned : Supervisor := (Trail.follow take? store interrupted).2

/-- The store after that. -/
def stopped : Supervisor × List Happening :=
  (manned.take? (.stopGroup (.ofNat 0))).getD (manned, [])

theorem stops : manned.take? (.stopGroup (.ofNat 0)) = some (stopped.1, stopped.2) := rfl

/-- The others see their flags, and the call is answered. -/
def emptied : List Occasion := [.act (.monitor 0 .notice), .act (.task 1 .notice), .settle 1]

/-- The login of the task that was stopped first succeeds after all. -/
def belated : List Occasion :=
  [.act (.task 0 (.reply .empty (.outcome (.success (some session)))))]

theorem login_after_the_stop :
    ∃ past l later s group n w t, Trail take? store (past ++ l :: later) s ∧ s.Fresh ∧
      l.input = .stopGroup (.ofNat 0) ∧ Retires l later s (.ofNat 0) group n ∧
      (s.answers.get? n).isSome = true ∧ Trail take? s w t ∧ t.Fresh ∧
      authsOf w = [⟨⟨.ofNat 0, "a@b.c"⟩, .ofNat 0, .loggedIn⟩] ∧
      t.world.pool.entryAt? ⟨.ofNat 0, "a@b.c"⟩ = none := by
  have past := Trail.of_inputs take? store interrupted
  have later := Trail.of_inputs take? stopped.1 emptied
  have onward := Trail.of_inputs take? (Trail.follow take? stopped.1 emptied).2 belated
  have trail := past.append ((Trail.single stops).append later)
  have fresh : (Trail.follow take? stopped.1 emptied).2.Fresh :=
    fresh_of_pair (by decide) (by decide) (by decide)
  have fresh' : (Trail.follow take? (Trail.follow take? stopped.1 emptied).2 belated).2.Fresh :=
    fresh_of_pair (by decide) (by decide) (by decide)
  obtain ⟨group, n, -, ok, retires⟩ := stopped_groups_stay_stopped trail fresh _ _ _ _ rfl rfl
  obtain rfl := number_of_stopGroup ok
  exact ⟨_, ⟨manned, .stopGroup (.ofNat 0), stopped.2, stopped.1⟩, _, _, group, _, _, _, trail, fresh,
    rfl, retires, by decide, onward, fresh', by decide, by decide⟩

end Supervisor

end Restock
