import Restock.Proofs.Bus.Subscriptions
import Restock.Proofs.Config.RoundTrip
import Restock.Proofs.Retry.Caps
import Restock.Proofs.Task.Ceilings

/-! What may break down under valid settings.

Three operations have their limits: a queue cannot be made with any capacity, a number of
seconds may be too large for a duration, and attempts are counted in 32 bits. What is asked
of settings keeps clear of none of them (`breakdowns_of_valid_settings`). But a bus whose
capacity is supported takes subscriptions for good, a wait is too large only if it grows under
a ceiling that is next to the limit of durations, which no stored one is, and the count is
wrong only after `2 ^ 32` attempts, which no ceiling allows (`valid_settings_are_sturdy`). -/
namespace Restock

/-! ### Queues -/

theorem Bus.subscribe?_eq_none_iff {α : Type} {b : Bus α} :
    b.subscribe? = none ↔ maxCapacity < b.capacity := by
  rw [subscribe?]
  split
  · next large => exact iff_of_true rfl large
  · next supported => exact iff_of_false (Option.some_ne_none _) supported

/-! ### Waits -/

namespace RetryPolicy

variable {c : TaskConfig} {n : UInt32}

/-- A wait without a value has grown to what the ceiling is as a float. -/
theorem large_of_nextDelay? (valid : c.Valid) (none : c.retry.nextDelay? n = none) :
    c.retry.Grows n ∧ 2 ^ 64 - 1024 ≤ c.retry.maxDelay.secs := by
  have waits := waits_of_valid valid n
  rw [none] at waits
  generalize same : Option.none = wait at waits
  cases waits with
  | steady => contradiction
  | cutOff => contradiction
  | computed grows worth _ within =>
    obtain ⟨x, limit, -⟩ := c.retry.maxDelay.worth_toSeconds
    have large := (Duration.large_of_ofSeconds? worth same.symm).trans (within x limit)
    exact ⟨grows, Duration.secs_of_large limit large⟩

theorem secs_of_stored {d : Duration} (stored : d.Stored) : d.secs < 2 ^ 64 - 1024 := by
  obtain ⟨ms, rfl⟩ := stored
  have less := ms.toNat_lt
  simp only [Duration.secs, Duration.ofMillis, nanosPerSecond, nanosPerMilli]
  omega

theorem nextDelay?_of_whole (valid : c.Valid) (whole : c.retry.Whole) (n : UInt32) :
    ∃ d, c.retry.nextDelay? n = some d := by
  cases next : c.retry.nextDelay? n with
  | some d => exact ⟨d, rfl⟩
  | none =>
    have short := secs_of_stored whole.maxDelay
    have long := (large_of_nextDelay? valid next).2
    omega

end RetryPolicy

/-! ### Counts -/

namespace Task

section
variable {c : TaskContext} {d : Decider} {p : RetryPolicy} {w : Legs} {t : Task} {s : Step}

theorem toNat_attemptsAt (h : Trail take? (Task.new c d) w t) (few : callsOf w s < 2 ^ 32) :
    (t.attemptsAt s).toNat = callsOf w s := by
  rw [(counted_of_trail h).attempts]
  exact UInt32.toNat_ofNat_of_lt' few

theorem callsOf_lt (h : Trail take? (Task.new c p.decide) w t) {max : UInt32}
    (ceiling : p.ceiling? s = some max) : callsOf w s < 2 ^ 32 := by
  have less := max.toNat_lt
  rcases (metered_of_trail h).calls s max ceiling with one | few
  · omega
  · omega

/-- The task is about to attempt the step, and has done so a number of times. -/
structure Tries (c : TaskContext) (d : Decider) (s : Step) (k : Nat) (w : Legs) (t : Task) :
    Prop where
  trail : Trail take? (Task.new c d) w t
  phase : t.phase = .entering s
  going : t.stopping = false
  calls : callsOf w s = k

theorem proceeds (phase : t.phase = .entering s) (going : t.stopping = false) :
    ∃ u es, take? t (.signal .proceed) = some (u, es) ∧ u.phase = .calling s := by
  refine ⟨(t.attempt s).1, (t.attempt s).2, ?_, rfl⟩
  show t.next? .proceed = some (t.attempt s)
  rw [next?, phase, going]

theorem pauses {delay : Duration} {reason : String} (phase : t.phase = .calling s)
    (decided : t.decider ⟨s, t.attemptsAt s, panicFailure s, false⟩ = some (.retry delay reason)) :
    ∃ u es, take? t (.signal (.replied .empty .panicked)) = some (u, es) ∧
      u.phase = .pausing s delay := by
  have replied : take? t (.signal (.replied .empty .panicked)) =
      some ((t.called s .empty).failAttempt s (panicFailure s) false) := by
    show t.next? (.replied .empty .panicked) = _
    rw [next?, phase]
    cases s <;> rfl
  rw [failAttempt, decider_called, attemptsAt_called, decided] at replied
  exact ⟨((t.called s .empty).pause s delay reason).1, _, replied, rfl⟩

theorem rests {delay : Duration} (phase : t.phase = .pausing s delay) :
    take? t (.signal .rested) = some (t.enter (.entering s), []) := by
  show t.next? .rested = _
  rw [next?, phase]

/-- Where there is no ceiling and always a wait, there is another attempt. -/
theorem Tries.again {k : Nat} (h : Tries c p.decide s k w t) (uncapped : p.ceiling? s = none)
    (waits : ∀ n, ∃ delay, p.nextDelay? n = some delay) :
    ∃ w' t', Tries c p.decide s (k + 1) w' t' := by
  obtain ⟨u, es, proceed, calling⟩ := proceeds h.phase h.going
  have called := h.trail.step proceed
  obtain ⟨delay, wait⟩ := waits (u.attemptsAt s)
  have decided : u.decider ⟨s, u.attemptsAt s, panicFailure s, false⟩ =
      some (.retry delay (panicFailure s).reason) := by
    rw [(counted_of_trail called).decider, decide_of_uncapped uncapped rfl rfl]
    exact congrArg (Option.map _) wait
  obtain ⟨v, fs, pause, pausing⟩ := pauses calling decided
  have rested := (called.step pause).step (rests pausing)
  refine ⟨_, _, rested, rfl, ?_, ?_⟩
  · have first := (does_of_signal proceed).same.2.2
    have second := (does_of_signal pause).same.2.2
    exact second.trans (first.trans h.going)
  · rw [callsOf_snoc, callsOf_snoc, callsOf_snoc, h.calls, (does_of_signal proceed).count_call,
      (does_of_signal pause).count_call, calling, pausing]
    simp

theorem Tries.often {k : Nat} (h : Tries c p.decide s k w t) (uncapped : p.ceiling? s = none)
    (waits : ∀ n, ∃ delay, p.nextDelay? n = some delay) (n : Nat) :
    ∃ w' t', Tries c p.decide s (k + n) w' t' := by
  induction n with
  | zero => exact ⟨w, t, h⟩
  | succ n ih =>
    obtain ⟨w', t', more⟩ := ih
    exact more.again uncapped waits

end

end Task

/-- What does not break down under valid settings. -/
structure Sturdy (s : Settings) (c : TaskConfig) : Prop where
  /-- As long as there is a bus there is room for another subscriber, if its capacity is
  supported at all. -/
  subscriptions : ∀ (α : Type) (w : Bus.History α) (b : Bus α),
    Trail Bus.take? (.new s.busCapacity.toNat) w b →
      (b.subscribe? = none ↔ maxCapacity < s.busCapacity.toNat)
  /-- Only a wait that grows under a ceiling next to the limit of durations has no value. -/
  waits : ∀ n, c.retry.nextDelay? n = none →
    c.retry.Grows n ∧ 2 ^ 64 - 1024 ≤ c.retry.maxDelay.secs
  /-- A task that was read has a wait after any number of attempts. -/
  decoded : ∀ source tree, TaskConfig.schema.decode source tree = .ok c →
    ∀ n, ∃ d, c.retry.nextDelay? n = some d
  /-- However the driver answers and the decider decides. -/
  counts : ∀ context decider w t, Trail Task.take? (Task.new context decider) w t →
    ∀ step, Task.callsOf w step < 2 ^ 32 → (t.attemptsAt step).toNat = Task.callsOf w step
  ceilings : ∀ context w t, Trail Task.take? (Task.new context c.retry.decide) w t →
    ∀ step max, c.retry.ceiling? step = some max →
      (t.attemptsAt step).toNat = Task.callsOf w step

theorem sturdy_of_valid {s : Settings} {c : TaskConfig} (settings : s.Valid) (task : c.Valid) :
    Sturdy s c where
  subscriptions := fun α w b trail => by
    have some : 1 ≤ s.busCapacity.toNat := UInt64.lt_iff_toNat_lt.1 settings.capacity
    rw [Bus.subscribe?_eq_none_iff, Bus.capacity_of_trail trail, Nat.max_eq_left some]
  waits := fun n none => RetryPolicy.large_of_nextDelay? task none
  decoded := fun source tree read =>
    RetryPolicy.nextDelay?_of_whole task (TaskConfig.whole_of_decode read).retry
  counts := fun context decider w t trail step few => Task.toNat_attemptsAt trail few
  ceilings := fun context w t trail step max ceiling =>
    Task.toNat_attemptsAt trail (Task.callsOf_lt trail ceiling)

/-- Valid settings keep a bus, the waits and the counts from breaking down, but for what none
of the rules asks. -/
theorem valid_settings_are_sturdy {s : Settings} {c : TaskConfig}
    (settings : s.validate = .ok ())
    (task : c.validate = .ok () ∨ ∃ g : GroupConfig, g.validate = .ok () ∧ c ∈ g.tasks) :
    Sturdy s c := by
  refine sturdy_of_valid (Settings.validate_eq_ok_iff.1 settings) ?_
  rcases task with alone | ⟨g, group, member⟩
  · exact TaskConfig.validate_eq_ok_iff.1 alone
  · exact (GroupConfig.validate_eq_ok_iff.1 group).tasks c member

/-- With waits that double, a task can go on and on. -/
theorem sturdiness_of_doubling :
    Sturdy .standard (RetryPolicy.guestWith RetryPolicy.doubling) ∧
      ∀ n, ∃ d, RetryPolicy.doubling.nextDelay? n = some d := by
  have sturdy := valid_settings_are_sturdy (s := .standard)
    (c := RetryPolicy.guestWith RetryPolicy.doubling) rfl (.inl rfl)
  refine ⟨sturdy, fun n => ?_⟩
  cases next : RetryPolicy.doubling.nextDelay? n with
  | some d => exact ⟨d, rfl⟩
  | none => exact absurd (sturdy.waits n next).2 (by decide)

/-- A ceiling that is next to the limit of durations, and half of that as a delay. -/
def RetryPolicy.lasting : RetryPolicy :=
  { doubling with
    delay := ⟨9223372036854775808000000000, by decide⟩
    maxDelay := ⟨18446744073709551615000000000, by decide⟩ }

/-- What is heard of the driver until the shipping is to be set. -/
def Task.toShipping : List (Stimulus Task.Signal) :=
  [.signal .begin, .signal (.fed (.wave ⟨"demo", default, [default]⟩)), .signal .proceed,
    .signal (.replied .empty (.outcome (.success none))), .signal .proceed,
    .signal (.replied .empty (.outcome (.success none)))]

/-- No queue is as long as valid settings may ask, no duration is as long as a wait of a valid
policy may be, and the standard policy lets a task attempt a step until it has lost count. -/
theorem breakdowns_of_valid_settings :
    (∃ s : Settings, s.validate = .ok () ∧
      (Bus.new (α := Event) s.busCapacity.toNat).subscribe? = none) ∧
    ((RetryPolicy.guestWith .lasting).validate = .ok () ∧
      RetryPolicy.lasting.nextDelay? 2 = none) ∧
    (TaskConfig.guest.validate = .ok () ∧
      ∃ w t, Trail Task.take? (Task.new default TaskConfig.guest.retry.decide) w t ∧
        Task.callsOf w .setShipping = 2 ^ 32 ∧ t.attemptsAt .setShipping = 0) := by
  refine ⟨⟨⟨2305843009213693952, .ofMillis 250⟩, rfl, rfl⟩, ⟨rfl, ?_⟩, rfl, ?_⟩
  · rw [RetryPolicy.nextDelay?_second rfl]
    decide +kernel
  · have trail := Trail.of_inputs Task.take? (Task.new default TaskConfig.guest.retry.decide)
      Task.toShipping
    have first : Task.Tries default TaskConfig.guest.retry.decide .setShipping 0 _ _ :=
      ⟨trail, by decide, by decide, by decide⟩
    have uncapped : TaskConfig.guest.retry.ceiling? .setShipping = none := by decide
    obtain ⟨w, t, tries⟩ := first.often uncapped (fun n => ⟨_, if_pos (Bool.or_true _)⟩) (2 ^ 32)
    refine ⟨w, t, tries.trail, tries.calls.trans (Nat.zero_add _), ?_⟩
    rw [(Task.counted_of_trail tries.trail).attempts, tries.calls]
    decide

end Restock
