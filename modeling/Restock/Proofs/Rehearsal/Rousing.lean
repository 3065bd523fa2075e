import Restock.Proofs.Task.Stopping
import Restock.Proofs.Supervisor.Staff
import Restock.Rehearsal.Basic

/-! A stop rouses those who rest.

A task that rests where it looks at its flag listens for the bell of its own stop
(`listens_of_rest`). Ringing takes no time and wakes whoever listens, and a task that
is awake with its flag raised does nothing but take leave (`leaves_of_flag`). So on a
virtual clock a stopped task waits for nothing any more: its run ends at the time of
the stop, unless a call of its driver is in flight. With what the machine of a task
allows at all this is `stopping_task`. -/
namespace Restock

namespace Rehearsal

/-! ### Bells -/

namespace Schedule

variable {α β : Type} {s : Schedule α β} {a : α} {r : Rest β}

/-- Who rests is woken, or goes on resting. -/
theorem rests_or_wakes (cond : Rest β → Bool) (rests : (a, r) ∈ s.resting) :
    a ∈ (s.wake cond).awake ∧ cond r = true ∨ (a, r) ∈ (s.wake cond).resting ∧ cond r = false := by
  cases h : cond r with
  | true =>
    refine .inl ⟨List.mem_append_right _ (List.mem_map.2 ⟨(a, r), ?_, rfl⟩), rfl⟩
    exact List.mem_filter.2 ⟨rests, h⟩
  | false => exact .inr ⟨List.mem_filter.2 ⟨rests, by simp [h]⟩, rfl⟩

theorem awake_wake (cond : Rest β → Bool) (awake : a ∈ s.awake) : a ∈ (s.wake cond).awake :=
  List.mem_append_left _ awake

variable [BEq β]

theorem awake_ring (bells : List β) (awake : a ∈ s.awake) : a ∈ (s.ring bells).awake := by
  induction bells generalizing s with
  | nil => exact awake
  | cons b bells ih => exact ih (awake_wake _ awake)

theorem now_ring (s : Schedule α β) (bells : List β) : (s.ring bells).now = s.now := by
  induction bells generalizing s with
  | nil => rfl
  | cons b bells ih => exact ih _

/-- A bell wakes whoever listens for it. -/
theorem wakes_of_rings [LawfulBEq β] {b : β} {bells : List β} (rests : (a, r) ∈ s.resting)
    (listens : b ∈ r.bells) (rings : b ∈ bells) : a ∈ (s.ring bells).awake := by
  induction bells generalizing s with
  | nil => exact absurd rings List.not_mem_nil
  | cons x bells ih =>
    rcases rests_or_wakes (fun r => r.bells.contains x) rests with ⟨awake, -⟩ | ⟨still, deaf⟩
    · exact awake_ring bells awake
    · refine ih still ((List.mem_cons.1 rings).resolve_left fun same => ?_)
      rw [← same, List.contains_iff_mem.2 listens] at deaf
      exact absurd deaf (by decide)

end Schedule

/-! ### Tasks at rest -/

namespace Company

variable {c c' : Company} {now n : Nat} {b : Buyer} {t : Task} {rung : List Bell} {r : Rest Bell}

theorem listens_of_turn (h : c.taskTurn now n t = .rest r) (looks : t.phase.looks = true) :
    .stop (.task n) ∈ r.bells := by
  cases phase : t.phase with
  | pausing s delay =>
    simp only [taskTurn, phase, pause] at h
    split at h
    · contradiction
    · cases h
      exact List.mem_singleton_self _
  | electing | awaitingLogin | entering | awaitingWave | ended | crashed =>
    simp [taskTurn, phase] at h
  | fresh | calling => simp [phase, Task.Phase.looks] at looks

/-- A task that rests where it looks at its flag listens for its stop. -/
theorem listens_of_rest (h : c.actTask now n = (c', rung, .rest r))
    (task : c'.world.task? n = some t) (looks : t.phase.looks = true) :
    .stop (.task n) ∈ r.bells := by
  unfold actTask at h
  split at h
  · simp at h
  · split at h
    · split at h
      · simp at h
      · simp only [Prod.mk.injEq, Turn.rest.injEq] at h
        rw [← h.2.2]
        unfold taskRest
        split <;> simp
    · dsimp only at h
      split at h
      · simp at h
      · rename_i there
        simp only [Prod.mk.injEq] at h
        obtain ⟨rfl, -, turn⟩ := h
        rw [there] at task
        cases task
        exact listens_of_turn turn looks

/-! ### Tasks whose flag is raised -/

/-- Calls that begin happen at the side of the world. -/
theorem world_begin (now : Nat) (c : Company) (seen : List Happening) :
    (seen.foldl (begin now) c).world = c.world := by
  induction seen generalizing c with
  | nil => rfl
  | cons x seen ih =>
    have beside : (begin now c x).world = c.world := by
      cases x with
      | calling m s =>
        show (c.beginCall now m s).world = c.world
        unfold beginCall
        split <;> rfl
      | _ => rfl
    exact (ih (begin now c x)).trans beside

theorem stepTask_notice {w : World} (buyer : w.buyers.get? n = some b)
    (looks : b.task.phase.looks = true) (flag : b.task.stopping = true) :
    ∃ w' seen, w.stepTask n .notice = some (w', seen) ∧
      w'.task? n = some (b.task.halt .stopped).1 := by
  simp only [World.stepTask, World.signal?, buyer, Task.notice_of_looks looks flag,
    Option.bind_eq_bind, Option.bind_some]
  refine ⟨_, _, rfl, ?_⟩
  rw [World.task?, (World.performTask_eq ..).2.1, Table.get?_put_self]
  rfl

/-- A task that is awake where it looks at its flag takes leave if the flag is raised. -/
theorem leaves_of_flag (now : Nat) (buyer : c.world.buyers.get? n = some b)
    (looks : b.task.phase.looks = true) (flag : b.task.stopping = true) :
    (c.actTask now n).2.2 = .leave ∧
      (c.actTask now n).1.world.task? n = some (b.task.halt .stopped).1 := by
  have move : c.taskMove? n b = some .notice := by
    cases phase : b.task.phase <;> simp [phase, Task.Phase.looks] at looks <;>
      simp [taskMove?, phase, flag]
  obtain ⟨w, seen, acts, task⟩ := stepTask_notice buyer looks flag
  have there : (c.step now (.task n .notice)).1.world.task? n = some (b.task.halt .stopped).1 := by
    obtain ⟨⟨s, seen'⟩, hs⟩ : ∃ x, c.supervisor.act? (.task n .notice) = some x := by
      simp only [Supervisor.act?, World.step?]
      exact ⟨_, congrArg (Option.map _) acts⟩
    obtain ⟨w', hw', same, -⟩ := Supervisor.act?_ok hs
    obtain rfl : w = w' := (Prod.mk.inj (Option.some.inj (acts.symm.trans hw'))).1
    rw [step, hs]
    dsimp only
    rw [world_begin, world, same]
    exact task
  unfold actTask
  simp only [buyer, move]
  rw [there]
  exact ⟨by simp [taskTurn, Task.phase_halt], there⟩

end Company

/-- On its clock a rehearsal does not let the task at a place wait on once it is stopped. -/
structure Rouses (n : Nat) : Prop where
  /-- A task that rests where it looks at its flag listens for its stop. -/
  listens : ∀ {c c' : Company} {now : Nat} {rung : List Bell} {r : Rest Bell} {t : Task},
    c.actTask now n = (c', rung, .rest r) → c'.world.task? n = some t → t.phase.looks = true →
      .stop (.task n) ∈ r.bells
  /-- The stop wakes it, at the time at which it comes. -/
  wakes : ∀ {r : Rehearsal} {rest : Rest Bell} {seen : List Happening} {as : List Activity},
    (.task n, rest) ∈ r.schedule.resting → .stop (.task n) ∈ rest.bells → .stopped as ∈ seen →
      .task n ∈ as → .task n ∈ (r.hear seen).schedule.awake ∧ (r.hear seen).now = r.now
  /-- Awake, it takes leave. -/
  leaves : ∀ {c : Company} {b : Buyer} (now : Nat), c.world.buyers.get? n = some b →
    b.task.phase.looks = true → b.task.stopping = true →
      (c.actTask now n).2.2 = .leave ∧
        (c.actTask now n).1.world.task? n = some (b.task.halt .stopped).1

theorem rouses (n : Nat) : Rouses n where
  listens := Company.listens_of_rest
  leaves := Company.leaves_of_flag
  wakes := by
    intro r rest seen as rests listens stops among
    refine ⟨Schedule.wakes_of_rings rests listens ?_, Schedule.now_ring ..⟩
    exact List.mem_flatMap.2 ⟨_, stops, List.mem_map_of_mem among⟩

end Rehearsal

namespace Task

variable {c : TaskContext} {d : Decider} {w : Legs} {u : Task}

/-- Whenever its flag is raised, a run that is over does nothing more, and one that is not
begins no call any more and winds down; and no rest of it lasts beyond the stop. -/
theorem stopping_task (h : Trail take? (Task.new c d) w u) :
    (∀ past l later, w = past ++ l :: later → l.input = .stop →
      if l.before.ended then
        u.phase = l.before.phase ∧ u.status = l.before.status ∧ effectsOf later = []
      else WindsDown past l.before later u) ∧
      ∀ n, Rehearsal.Rouses n := by
  refine ⟨?_, Rehearsal.rouses⟩
  rintro past l later rfl raised
  obtain ⟨before, taken, after⟩ := h.reach
  rw [raised] at taken
  rw [← (Prod.mk.inj (Option.some.inj taken)).1] at after
  split
  case isTrue gone => exact silent_of_ended (t := l.before.stop) gone after
  case isFalse on => exact windsDown_of_trail before (by simpa using on) after

/-- The flag is raised while the driver logs in; the login succeeds. -/
def stoppedLogin : Legs × Task :=
  Trail.follow take? (Task.new member patient)
    [.signal .begin, .signal (.elected (.claimed ⟨⟨default, "a@b.c"⟩, 0⟩)), .signal .proceed, .stop,
      .signal (.replied .empty (.outcome (.success (some ⟨"a@b.c", .null⟩)))), .signal .notice]

theorem trail_stoppedLogin :
    Trail take? (Task.new member patient)
      (stoppedLogin.1.take 3 ++ stoppedLogin.1[3] :: stoppedLogin.1.drop 4) stoppedLogin.2 := by
  have h := Trail.of_inputs take? (Task.new member patient) (stoppedLogin.1.map Leg.input)
  exact h

theorem stop_during_a_login :
    ∃ past l later u, Trail take? (Task.new member patient) (past ++ l :: later) u ∧
      l.input = .stop ∧ l.before.phase = .calling .login ∧ WindsDown past l.before later u ∧
      u.phase = .ended ∧ u.status = .idle ∧ u.attemptsAt .login = 1 ∧
      finishesIn (effectsOf later) = [(⟨⟨default, "a@b.c"⟩, 0⟩, some ⟨"a@b.c", .null⟩)] ∧
      (toldOf later).getLast? = some (lastWord member .stopped) := by
  have law := (stopping_task trail_stoppedLogin).1 _ _ _ rfl rfl
  rw [if_neg (by decide)] at law
  exact ⟨_, _, _, _, trail_stoppedLogin, rfl, by decide, law, by decide, by decide, by decide,
    by decide, by decide⟩

end Task

end Restock
