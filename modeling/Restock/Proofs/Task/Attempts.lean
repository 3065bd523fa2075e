import Restock.Proofs.Task.Steps

/-! The attempts of a task.

A trail shows the calls of the driver and the replies to them. A task counts its
calls: the attempts at a step are the calls for it, and all of them are answered
but the one that is going on (`counted_of_trail`). Beyond that a step of a task is
steady: it changes neither what the task is about nor its counts. -/
namespace Restock.Task

abbrev Legs := List (Leg Task (Stimulus Signal) Effect)

/-- The reply of the driver to an attempt at the step. -/
def replyTo? (s : Step) (l : Leg Task (Stimulus Signal) Effect) : Option Reply :=
  match l.input with
  | .signal (.replied _ r) => if l.before.phase = .calling s then some r else none
  | _ => none

/-- The replies to the attempts at a step, in their order. -/
def repliesTo (w : Legs) (s : Step) : List Reply := w.filterMap (replyTo? s)

/-- How often the driver was called for a step. -/
def callsOf (w : Legs) (s : Step) : Nat := (effectsOf w).count (.call s)

section
variable {c : TaskContext} {d : Decider} {w : Legs} {t u : Task} {s : Step} {i : Signal}
  {es : List Effect}

theorem repliesTo_snoc (w : Legs) (l : Leg Task (Stimulus Signal) Effect) (s : Step) :
    repliesTo (w ++ [l]) s = repliesTo w s ++ (replyTo? s l).toList := by
  cases h : replyTo? s l <;> simp [repliesTo, h]

theorem callsOf_snoc (w : Legs) (l : Leg Task (Stimulus Signal) Effect) (s : Step) :
    callsOf (w ++ [l]) s = callsOf w s + l.effects.count (.call s) := by
  simp [callsOf, List.count_append]

/-! ### Steady steps -/

/-- The task is about the same and has attempted nothing. -/
structure Steady (t u : Task) (es : List Effect) : Prop where
  context : u.context = t.context
  decider : u.decider = t.decider
  stopping : u.stopping = t.stopping
  attempts : u.attempts = t.attempts
  uncalled : ∀ s, .call s ∉ es

theorem steady_announce (t : Task) (s : TaskStatus) (type : EventType) (payload : Json) :
    Steady t (t.announce s type payload).1 (t.announce s type payload).2 :=
  ⟨rfl, rfl, rfl, rfl, by simp [announce]⟩

theorem Steady.enter (h : Steady t u es) (p : Phase) : Steady t (u.enter p) es :=
  ⟨h.context, h.decider, h.stopping, h.attempts, h.uncalled⟩

theorem steady_close (t : Task) (h : Halt) : Steady t (t.close h).1 (t.close h).2 := by
  cases h <;> exact (steady_announce t _ _ _).enter .ended

theorem steady_halt (t : Task) (h : Halt) : Steady t (t.halt h).1 (t.halt h).2 := by
  unfold halt
  split
  · exact steady_close t h
  · obtain ⟨hc, hd, hs, ha, hu⟩ := steady_close { t with guard := none } h
    refine ⟨hc, hd, hs, ha, fun s => ?_⟩
    cases h <;> simpa [tellAuth] using hu s

theorem steady_crash (t : Task) : Steady t t.crash.1 t.crash.2 :=
  ⟨rfl, rfl, rfl, rfl, by cases hg : t.guard <;> simp [crash, hg]⟩

theorem steady_turn (t : Task) (s : TaskStatus) (type : EventType) (payload : Json) :
    Steady t (t.turn s type payload).1 (t.turn s type payload).2 := by
  unfold turn
  split
  · exact ⟨rfl, rfl, rfl, rfl, by simp⟩
  · exact steady_announce t s type payload

theorem steady_awaitWave (t : Task) : Steady t t.awaitWave.1 t.awaitWave.2 :=
  (steady_turn t .waitingForMonitor .update Event.noPayload).enter .awaitingWave

theorem steady_adopt (t : Task) (s : Session) (o : AuthOutcome) :
    Steady t (t.adopt s o).1 (t.adopt s o).2 := by
  obtain ⟨hc, hd, hs, ha, hu⟩ :=
    steady_awaitWave { t with state := { t.state with session := some s } }
  refine ⟨hc, hd, hs, ha, fun s' => ?_⟩
  simpa [adopt, tellAuth] using hu s'

theorem steady_share (t : Task) (s : Session) : Steady t (t.share s).1 (t.share s).2 := by
  obtain ⟨hc, hd, hs, ha, hu⟩ := steady_adopt { t with guard := none } s .loggedIn
  refine ⟨hc, hd, hs, ha, fun s' => ?_⟩
  cases hg : t.guard <;> simpa [share, hg] using hu s'

theorem steady_complete (t : Task) : Steady t t.complete.1 t.complete.2 :=
  steady_announce t _ _ _ |>.enter .ended

theorem steady_pause (t : Task) (s : Step) (delay : Duration) (reason : String) :
    Steady t (t.pause s delay reason).1 (t.pause s delay reason).2 :=
  steady_announce t _ _ _ |>.enter (.pausing s delay)

theorem steady_called (t : Task) (s : Step) (state : CheckoutState) :
    Steady t (t.called s state) [] := by
  cases s <;> exact ⟨rfl, rfl, rfl, rfl, by simp⟩

theorem Steady.trans {t u v : Task} {es fs : List Effect} (h : Steady t u es) (h' : Steady u v fs) :
    Steady t v fs :=
  ⟨h'.context.trans h.context, h'.decider.trans h.decider, h'.stopping.trans h.stopping,
    h'.attempts.trans h.attempts, h'.uncalled⟩

/-- Only an attempt is not steady. -/
theorem Does.steady (h : Does t i u es) (hi : i ≠ .proceed) : Steady t u es := by
  cases h with
  | beginGuest | beginMember => exact ⟨rfl, rfl, rfl, rfl, by simp [tells]⟩
  | stop | giveUp | sessionless => exact steady_halt t _
  | adopt | adoptLater => exact steady_adopt t _ _
  | wait | claim | elect | stay | advance | rest | receive | ignore =>
    exact ⟨rfl, rfl, rfl, rfl, by simp⟩
  | attempt => contradiction
  | share => exact steady_share t _
  | complete => exact (steady_called t .placeOrder _).trans (steady_complete _)
  | undecided | crash => exact (steady_called t _ _).trans (steady_crash _)
  | yield | abort => exact (steady_called t _ _).trans (steady_halt _ _)
  | pause => exact (steady_called t _ _).trans (steady_pause _ _ _ _)

/-! ### Calls and replies -/

theorem attemptsAt_attempt (t : Task) (s s' : Step) :
    (t.attempt s).1.attemptsAt s' = if s' = s then t.attemptsAt s + 1 else t.attemptsAt s' := by
  have ha := (steady_turn t s.status .update Event.noPayload).attempts
  by_cases h : s' = s <;> simp [attempt, attemptsAt, ha, h]

theorem count_call_attempt (t : Task) (s s' : Step) :
    (t.attempt s).2.count (.call s') = if s' = s then 1 else 0 := by
  have hu := (steady_turn t s.status .update Event.noPayload).uncalled s'
  rw [attempt, List.count_append, List.count_eq_zero_of_not_mem hu, Nat.zero_add]
  rw [List.count_singleton]
  by_cases h : s' = s
  · simp [h]
  · have h' : s ≠ s' := Ne.symm h
    simp [h, h']

/-- No step makes another's task of it, or changes its flag. -/
theorem Does.same (h : Does t i u es) :
    u.context = t.context ∧ u.decider = t.decider ∧ u.stopping = t.stopping := by
  by_cases hi : i = .proceed
  · subst hi
    cases h with
    | @attempt s =>
      obtain ⟨hc, hd, hs, -, -⟩ := steady_turn t s.status .update Event.noPayload
      exact ⟨hc, hd, hs⟩
  · obtain ⟨hc, hd, hs, -, -⟩ := h.steady hi
    exact ⟨hc, hd, hs⟩

/-- A call is one more attempt. -/
theorem Does.attemptsAt (h : Does t i u es) (s : Step) :
    u.attemptsAt s = t.attemptsAt s + .ofNat (es.count (.call s)) := by
  by_cases hi : i = .proceed
  · subst hi
    cases h with
    | @attempt s' =>
      rw [attemptsAt_attempt, count_call_attempt]
      by_cases hs : s = s' <;> simp [hs]
  · have hs := h.steady hi
    rw [Task.attemptsAt, hs.attempts, List.count_eq_zero_of_not_mem (hs.uncalled s)]
    simp [Task.attemptsAt]

/-- A task is in a call of the driver just when it has started one. -/
theorem Does.count_call (h : Does t i u es) (s : Step) :
    es.count (.call s) = if u.phase = .calling s then 1 else 0 := by
  by_cases hi : i = .proceed
  · subst hi
    cases h with
    | @attempt s' => simp [count_call_attempt, eq_comm]
  · rw [List.count_eq_zero_of_not_mem ((h.steady hi).uncalled s), if_neg]
    cases h with
    | attempt => contradiction
    | stay phase | ignore phase => simp [phase]
    | _ => simp

/-- In a call of the driver a task hears of nothing but the reply. -/
theorem Does.replied (h : Does t i u es) (s : Step) :
    (replyTo? s ⟨t, .signal i, es, u⟩).isSome = true ↔ t.phase = .calling s := by
  cases h with
  | stop looks =>
    simp only [replyTo?, Option.isSome_none, reduceCtorEq, false_iff]
    intro hp
    simp [hp, Phase.looks] at looks
  | share phase | sessionless phase | advance phase | complete phase | undecided phase
  | yield phase | abort phase | pause phase | crash phase =>
    simp only [replyTo?]
    split <;> simp_all
  | beginGuest phase | beginMember phase | adopt phase | wait phase | claim phase
  | adoptLater phase | elect phase | stay phase | attempt phase | rest phase | receive phase
  | ignore phase | giveUp phase => simp [replyTo?, phase]

/-- A task that went through a trail knows how often it called the driver, and what
each call but the one that is going on came to. -/
structure Counted (c : TaskContext) (d : Decider) (w : Legs) (t : Task) : Prop where
  context : t.context = c
  decider : t.decider = d
  attempts : ∀ s, t.attemptsAt s = .ofNat (callsOf w s)
  calls : ∀ s, callsOf w s = (repliesTo w s).length + if t.phase = .calling s then 1 else 0

theorem Counted.step (h : Counted c d w t) (does : Does t i u es) :
    Counted c d (w ++ [⟨t, .signal i, es, u⟩]) u := by
  obtain ⟨hc, hd, ha, hn⟩ := h
  obtain ⟨sameContext, sameDecider, -⟩ := does.same
  refine ⟨sameContext.trans hc, sameDecider.trans hd, fun s => ?_, fun s => ?_⟩
  · rw [does.attemptsAt, ha, callsOf_snoc, UInt32.ofNat_add]
  · have replies : (repliesTo (w ++ [⟨t, .signal i, es, u⟩]) s).length =
        (repliesTo w s).length + if t.phase = .calling s then 1 else 0 := by
      rw [repliesTo_snoc, List.length_append, Option.length_toList]
      simp only [does.replied]
    rw [callsOf_snoc, does.count_call, replies, hn]

theorem counted_of_trail (h : Trail take? (Task.new c d) w t) : Counted c d w t := by
  induction h with
  | rest => exact ⟨rfl, rfl, fun _ => rfl, fun _ => rfl⟩
  | @step w t u i es past taken ih =>
    cases i with
    | signal i => exact ih.step (does_of_signal taken)
    | stop =>
      obtain ⟨rfl, rfl⟩ := Prod.ext_iff.1 (Option.some.inj taken)
      obtain ⟨hc, hd, ha, hn⟩ := ih
      refine ⟨hc, hd, fun s => ?_, fun s => ?_⟩
      · rw [callsOf_snoc]
        exact ha s
      · rw [callsOf_snoc, repliesTo_snoc]
        simp only [replyTo?, Option.toList_none, List.append_nil, List.count_nil, Nat.add_zero]
        exact hn s

end

end Restock.Task
