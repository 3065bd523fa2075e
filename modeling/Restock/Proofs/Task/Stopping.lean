import Restock.Proofs.Task.Login
import Restock.Proofs.Task.Narration

/-! What a task still does once its flag is raised.

A raised flag is looked at before every election and every attempt and in every wait,
so no call of the driver begins any more. A call that is in flight is answered first,
and its answer counts as ever: a session goes to the pool for the claim, an order that
is placed completes the run. Nothing else keeps a run from its end: a wait can be left
at once, and whatever comes in the same instant (the end of a pause, a wave) only
leads to the next look at the flag (`left`). -/
namespace Restock.Task

/-- How often a task whose flag is raised may still change its phase. -/
def Phase.left : Phase → Nat
  | .fresh | .calling _ => 3
  | .pausing .. | .awaitingWave => 2
  | .electing | .awaitingLogin | .entering _ => 1
  | .ended | .crashed => 0

/-- The changes of phase on some legs. -/
def changes (w : Legs) : Nat := w.countP fun l => l.after.phase ≠ l.before.phase

/-- The answer to an attempt ends the run by itself: the order is placed, the decider
ends it, or a login has no session to go on with. -/
inductive Decides (d : Decider) (s : Step) (n : UInt32) (r : Reply) : TaskStatus → Prop
  | placed {v : Option Session} (order : s = .placeOrder) (success : r = .outcome (.success v)) :
    Decides d s n r .checkedOut
  | aborted {f : StepFailure} {terminal : Bool} {status : TaskStatus} {reason : String}
    (failed : r.failure? s = some (f, terminal))
    (decided : d ⟨s, n, f, terminal⟩ = some (.abort status reason)) : Decides d s n r status
  | sessionless (login : s = .login) (success : r = .outcome (.success none)) :
    Decides d s n r .checkoutFailed

/-- The answer to an attempt breaks the run down. -/
def Breaks (d : Decider) (s : Step) (n : UInt32) (r : Reply) : Prop :=
  r = .crashed ∨ ∃ f terminal, r.failure? s = some (f, terminal) ∧ d ⟨s, n, f, terminal⟩ = none

/-- What the answer to a call does to a task, whether its flag is raised or not. -/
structure Heeds (t : Task) (s : Step) (state : CheckoutState) (r : Reply) (u : Task)
    (es : List Effect) : Prop where
  /-- A checkout step leaves its state behind. -/
  leaves : s ≠ .login → u.state = state
  /-- A session is kept and told of, and takes the place of the claim if that still is the
  entry of its account. -/
  session : ∀ v, s = .login → r = .outcome (.success (some v)) → u.state.session = some v ∧
    authsIn es = [t.auth .loggedIn] ∧ ∃ g, t.guard = some g ∧ finishesIn es = [(g, some v)] ∧
      ∀ p : Pool, p.holds g = true → (p.finish g (some v)).1.entryAt? g.key = some (.ready v)
  /-- An order that is placed completes the run. -/
  order : ∀ v, s = .placeOrder → r = .outcome (.success v) → u.phase = .ended ∧
    es = [.publish (ordered t.context state.orderNumber)]

section
variable {c : TaskContext} {d : Decider} {past later : Legs} {t u v : Task} {i : Signal}
  {es : List Effect} {s : Step}

/-! ### One step of a stopping task -/

theorem ended_halt (t : Task) (h : Halt) : (t.halt h).1.ended = true := by
  rw [ended, phase_halt]
  rfl

theorem Does.held (h : Does t i u es) (flag : t.stopping = true) : i ≠ .proceed := by
  intro attempt
  subst attempt
  cases h with
  | attempt _ down => exact absurd (flag.symm.trans down) (by decide)

theorem Does.calm (h : Does t i u es) (flag : t.stopping = true) : Steady t u es :=
  h.steady (h.held flag)

/-- Whoever is not about to begin a call is not in one afterwards. -/
theorem Does.uncalled (h : Does t i u es) (flag : t.stopping = true) (s : Step) :
    u.phase ≠ .calling s := by
  intro calling
  have count := h.count_call s
  rw [if_pos calling, List.count_eq_zero_of_not_mem ((h.calm flag).uncalled s)] at count
  exact absurd count (by decide)

/-- Every step but a wave without products brings the run closer to its end. -/
theorem Does.wanes (h : Does t i u es) (flag : t.stopping = true) :
    u.phase = t.phase ∨ u.phase.left < t.phase.left := by
  cases h with
  | beginGuest phase | beginMember phase | share phase | advance phase | complete phase
  | sessionless phase | undecided phase | yield phase | abort phase | pause phase | crash phase
  | rest phase | receive phase | giveUp phase => exact .inr (by simp [phase, Phase.left])
  | stop looks =>
    right
    rw [phase_halt]
    cases hp : t.phase <;> first | (simp [Phase.left]; done) | simp [hp, Phase.looks] at looks
  | adopt _ down | wait _ down | claim _ down | adoptLater _ down | elect _ down | stay _ down
  | attempt _ down => exact absurd (flag.symm.trans down) (by decide)
  | ignore => exact .inl rfl

/-- After a step the run is over, or the flag is looked at next. -/
theorem Does.lands (h : Does t i u es) (flag : t.stopping = true) :
    u.ended = true ∨ u.phase.looks = true := by
  cases h with
  | beginGuest | beginMember | share | advance | pause | rest | receive => exact .inr rfl
  | ignore phase => exact .inr (by rw [phase]; rfl)
  | stop | sessionless | yield | abort | giveUp => exact .inl (ended_halt ..)
  | complete | undecided | crash => exact .inl rfl
  | adopt _ down | wait _ down | claim _ down | adoptLater _ down | elect _ down | stay _ down
  | attempt _ down => exact absurd (flag.symm.trans down) (by decide)

/-! ### The answer to a call -/

theorem state_halt (t : Task) (h : Halt) : (t.halt h).1.state = t.state := by
  unfold halt
  split <;> cases h <;> rfl

theorem state_called (checkout : s ≠ .login) (t : Task) (state : CheckoutState) :
    (t.called s state).state = state := by
  cases s <;> first | rfl | contradiction

/-- An attempt that failed only leaves its state behind. -/
theorem heeds_of_failure {state : CheckoutState} {r : Reply} {f : StepFailure} {terminal : Bool}
    (failed : r.failure? s = some (f, terminal)) (kept : u.state = (t.called s state).state) :
    Heeds t s state r u es := by
  refine ⟨fun checkout => kept.trans (state_called checkout t state), ?_, ?_⟩
  · rintro v - rfl
    simp [Reply.failure?] at failed
  · rintro v - rfl
    simp [Reply.failure?] at failed

theorem heeds_of_share (phase : t.phase = .calling .login) (sound : t.Sound)
    (state : CheckoutState) (v : Session) :
    Heeds t .login state (.outcome (.success (some v))) (t.share v).1 (t.share v).2 := by
  refine ⟨fun other => absurd rfl other, fun v' _ success => ?_, fun _ => by rintro ⟨⟩⟩
  obtain rfl : v = v' := by simpa using success
  obtain ⟨g, owns⟩ := guard_some sound (by rw [phase]; rfl)
  obtain ⟨finishes, auths⟩ := tells_adopt { t with guard := none } v .loggedIn
  have told : (t.share v).2 =
      .finish g (some v) :: ({ t with guard := none }.adopt v .loggedIn).2 := by
    simp [share, owns]
  rw [told]
  refine ⟨session_adopt _ v .loggedIn, auths, g, owns, congrArg ((g, some v) :: ·) finishes,
    fun p holds => ?_⟩
  rw [Pool.entryAt?_finish, if_pos ⟨rfl, holds⟩]
  rfl

theorem Does.heeds {state : CheckoutState} {r : Reply} (h : Does t (.replied state r) u es)
    (phase : t.phase = .calling s) (sound : t.Sound) : Heeds t s state r u es := by
  have step : ∀ {s' : Step}, t.phase = .calling s' → s' = s :=
    fun hp => Phase.calling.inj (hp.symm.trans phase)
  cases h with
  | share hp =>
    obtain rfl := step hp
    exact heeds_of_share phase sound state _
  | sessionless hp =>
    obtain rfl := step hp
    exact ⟨fun other => absurd rfl other, by simp, fun _ => by rintro ⟨⟩⟩
  | advance hp checkout onward =>
    obtain rfl := step hp
    refine ⟨fun _ => rfl, fun v login => absurd login checkout, fun v order => ?_⟩
    rw [order] at onward
    simp [Step.next?] at onward
  | complete hp =>
    obtain rfl := step hp
    exact ⟨fun _ => rfl, fun _ => by rintro ⟨⟩, fun v _ _ => ⟨rfl, rfl⟩⟩
  | undecided hp _ failed =>
    obtain rfl := step hp
    exact heeds_of_failure failed rfl
  | yield hp _ failed | abort hp _ failed =>
    obtain rfl := step hp
    exact heeds_of_failure failed (state_halt ..)
  | pause hp _ failed =>
    obtain rfl := step hp
    exact heeds_of_failure failed rfl
  | crash hp =>
    obtain rfl := step hp
    exact ⟨fun checkout => state_called checkout t state, by simp, by simp⟩

/-! ### How a stopping task ends -/

theorem status_halt_stopped (t : Task) : (t.halt .stopped).1.status = .idle := by
  unfold halt
  split <;> rfl

/-- What a step of a task whose flag is raised makes of the run: it goes on, it ends as a
stopped one, or the answer to the call in flight ends it. -/
inductive Parts (t : Task) (i : Signal) (u : Task) (es : List Effect) : Prop
  | goesOn (running : u.ended = false)
  | stopped (phase : u.phase = .ended) (status : u.status = .idle)
    (told : es.filterMap Effect.told? = [lastWord t.context .stopped])
  | decided {s : Step} {state : CheckoutState} {r : Reply} (calling : t.phase = .calling s)
    (answer : i = .replied state r) (decides : Decides t.decider s (t.attemptsAt s) r u.status)
    (phase : u.phase = .ended)
  | broken {s : Step} {state : CheckoutState} {r : Reply} (calling : t.phase = .calling s)
    (answer : i = .replied state r) (breaks : Breaks t.decider s (t.attemptsAt s) r)
    (phase : u.phase = .crashed)

theorem parts_stopped {t' : Task} (context : t'.context = t.context) :
    Parts t i (t'.halt .stopped).1 (t'.halt .stopped).2 :=
  .stopped (phase_halt ..) (status_halt_stopped t') (context ▸ told_halt t' .stopped)

theorem status_halt_failed (t : Task) (status : TaskStatus) (reason : String) :
    (t.halt (.failed status reason)).1.status = status := by
  unfold halt
  split <;> rfl

theorem Does.parts (h : Does t i u es) (flag : t.stopping = true) : Parts t i u es := by
  cases h with
  | beginGuest | beginMember | share | advance | pause | rest | receive => exact .goesOn rfl
  | ignore phase => exact .goesOn (by rw [ended, phase]; rfl)
  | stop | giveUp => exact parts_stopped rfl
  | yield => exact parts_stopped (steady_called t _ _).context
  | sessionless phase =>
    refine .decided phase rfl ?_ (phase_halt ..)
    rw [status_halt_failed]
    exact .sessionless rfl rfl
  | complete phase => exact .decided phase rfl (.placed rfl rfl) rfl
  | abort phase _ failed decided =>
    refine .decided phase rfl ?_ (phase_halt ..)
    rw [status_halt_failed]
    exact .aborted failed decided
  | undecided phase _ failed decided => exact .broken phase rfl (.inr ⟨_, _, failed, decided⟩) rfl
  | crash phase => exact .broken phase rfl (.inl rfl) rfl
  | adopt _ down | wait _ down | claim _ down | adoptLater _ down | elect _ down | stay _ down
  | attempt _ down => exact absurd (flag.symm.trans down) (by decide)

/-! ### What is left of the run -/

theorem sound_of_trail {w : Legs} (h : Trail take? (Task.new c d) w t) : t.Sound := by
  induction h with
  | rest => exact ⟨rfl, by rintro ⟨⟩⟩
  | @step w t u i es past taken ih =>
    cases i with
    | stop =>
      obtain ⟨rfl, -⟩ := Prod.mk.inj (Option.some.inj taken)
      exact ⟨ih.guard, ih.member⟩
    | signal i =>
      have does := does_of_signal taken
      exact (does.dealing ih).sound ih does.same.1

theorem changes_snoc (w : Legs) (l : Leg Task (Stimulus Signal) Effect) :
    changes (w ++ [l]) = changes w + if l.after.phase = l.before.phase then 0 else 1 := by
  by_cases h : l.after.phase = l.before.phase <;> simp [changes, List.countP_append, h]

/-- How a task whose flag was raised has taken leave, if it has. -/
inductive TakesLeave (t : Task) (later : Legs) (u : Task) : Prop
  | underWay (running : u.ended = false)
  | stopped (phase : u.phase = .ended) (status : u.status = .idle)
    (told : (toldOf later).getLast? = some (lastWord t.context .stopped))
  | decided {s : Step} {state : CheckoutState} {r : Reply} (inFlight : t.phase = .calling s)
    (answer : ∃ m ∈ later, m.input = .signal (.replied state r))
    (decides : Decides t.decider s (t.attemptsAt s) r u.status) (phase : u.phase = .ended)
  | broken {s : Step} {state : CheckoutState} {r : Reply} (inFlight : t.phase = .calling s)
    (answer : ∃ m ∈ later, m.input = .signal (.replied state r))
    (breaks : Breaks t.decider s (t.attemptsAt s) r) (phase : u.phase = .crashed)

/-- Where a task is whose flag was raised some legs ago. -/
structure Ebbs (t : Task) (later : Legs) (u : Task) : Prop where
  flag : u.stopping = true
  context : u.context = t.context
  decider : u.decider = t.decider
  attempts : u.attempts = t.attempts
  uncalled : ∀ s, .call s ∉ effectsOf later
  inFlight : ∀ s, u.phase = .calling s → t.phase = .calling s
  brief : changes later + u.phase.left ≤ t.phase.left
  leave : TakesLeave t later u

theorem running_of_does (h : Does t i u es) : t.ended = false := by
  obtain ⟨hended, hcrashed⟩ := h.live
  simp [ended, hended, hcrashed]

theorem TakesLeave.stop (h : TakesLeave t later u) :
    TakesLeave t (later ++ [⟨u, .stop, [], u.stop⟩]) u.stop := by
  cases h with
  | underWay running => exact .underWay running
  | stopped phase status told =>
    refine .stopped phase status ?_
    rw [toldOf_snoc]
    exact (congrArg List.getLast? (List.append_nil _)).trans told
  | decided inFlight answer decides phase =>
    obtain ⟨m, among, input⟩ := answer
    exact .decided inFlight ⟨m, List.mem_append_left _ among, input⟩ decides phase
  | broken inFlight answer breaks phase =>
    obtain ⟨m, among, input⟩ := answer
    exact .broken inFlight ⟨m, List.mem_append_left _ among, input⟩ breaks phase

theorem attemptsAt_congr (h : u.attempts = t.attempts) (s : Step) :
    u.attemptsAt s = t.attemptsAt s := by
  rw [attemptsAt, h]
  rfl

theorem Ebbs.leaves (h : Ebbs t later u) (does : Does u i v es) :
    TakesLeave t (later ++ [⟨u, .signal i, es, v⟩]) v := by
  have among : (⟨u, .signal i, es, v⟩ : Leg Task (Stimulus Signal) Effect) ∈
      later ++ [⟨u, .signal i, es, v⟩] := by simp
  cases does.parts h.flag with
  | goesOn running => exact .underWay running
  | stopped phase status told =>
    refine .stopped phase status ?_
    rw [toldOf_snoc, told, List.getLast?_concat, h.context]
  | @decided s _ _ calling answer decides phase =>
    rw [h.decider, attemptsAt_congr h.attempts] at decides
    exact .decided (h.inFlight s calling) ⟨_, among, congrArg Stimulus.signal answer⟩ decides phase
  | @broken s _ _ calling answer breaks phase =>
    rw [h.decider, attemptsAt_congr h.attempts] at breaks
    exact .broken (h.inFlight s calling) ⟨_, among, congrArg Stimulus.signal answer⟩ breaks phase

theorem Ebbs.step (h : Ebbs t later u) (does : Does u i v es) :
    Ebbs t (later ++ [⟨u, .signal i, es, v⟩]) v := by
  obtain ⟨context, decider, stopping, attempts, uncalled⟩ := does.calm h.flag
  refine ⟨stopping.trans h.flag, context.trans h.context, decider.trans h.decider,
    attempts.trans h.attempts, fun s => ?_, fun s hp => absurd hp (does.uncalled h.flag s), ?_,
    h.leaves does⟩
  · rw [effectsOf_append, effectsOf_singleton, List.mem_append, not_or]
    exact ⟨h.uncalled s, uncalled s⟩
  · have brief := h.brief
    rw [changes_snoc]
    rcases does.wanes h.flag with same | less
    · simpa [same] using brief
    · dsimp only
      split <;> omega

theorem ebbs_of_trail (running : t.ended = false) (h : Trail take? t.stop later u) :
    Ebbs t later u := by
  induction h with
  | rest =>
    exact ⟨rfl, rfl, rfl, rfl, fun s => List.not_mem_nil, fun _ => id, by simp [changes, stop],
      .underWay running⟩
  | @step later u v i es past taken ih =>
    cases i with
    | signal i => exact ih.step (does_of_signal taken)
    | stop =>
      obtain ⟨rfl, rfl⟩ := Prod.mk.inj (Option.some.inj taken)
      refine ⟨rfl, ih.context, ih.decider, ih.attempts, fun s => ?_, ih.inFlight, ?_,
        ih.leave.stop⟩
      · rw [effectsOf_append, effectsOf_singleton, List.append_nil]
        exact ih.uncalled s
      · rw [changes_snoc, if_pos (show u.stop.phase = u.phase from rfl)]
        exact ih.brief

/-- Whoever has ended stays so, and does nothing. -/
theorem silent_of_ended (gone : t.ended = true) (h : Trail take? t later u) :
    u.phase = t.phase ∧ u.status = t.status ∧ effectsOf later = [] := by
  induction h with
  | rest => exact ⟨rfl, rfl, rfl⟩
  | @step w a b i es past taken ih =>
    obtain ⟨same, status, none⟩ := ih
    cases i with
    | stop =>
      obtain ⟨rfl, rfl⟩ := Prod.mk.inj (Option.some.inj taken)
      exact ⟨same, status, by rw [effectsOf_append, none]; rfl⟩
    | signal i =>
      have running := running_of_does (does_of_signal taken)
      rw [ended, same] at running
      exact absurd (gone.symm.trans running) (by decide)

/-- Raising the flag again changes nothing. -/
theorem eq_of_stops (stops : ∀ x ∈ later, x.input = .stop) (h : Trail take? t.stop later u) :
    u = t.stop := by
  induction h with
  | rest => rfl
  | @step later u v i es past taken ih =>
    obtain rfl := ih fun x hx => stops x (List.mem_append_left _ hx)
    obtain rfl : i = .stop := stops _ (List.mem_append_right _ (List.mem_singleton_self _))
    exact (Prod.mk.inj (Option.some.inj taken)).1.symm

/-- To a task in a call nothing happens before the answer. -/
theorem answer_of_calling {i : Stimulus Signal} (phase : t.phase = .calling s)
    (taken : t.take? i = some (u, es)) (signal : i ≠ .stop) :
    ∃ state r, i = .signal (.replied state r) ∧ Does t (.replied state r) u es := by
  cases i with
  | stop => exact absurd rfl signal
  | signal i =>
    have does := does_of_signal taken
    have heard := (does.replied s).2 phase
    cases i with
    | replied state r => exact ⟨state, r, rfl, does⟩
    | _ => simp [replyTo?] at heard

/-! ### The end of the run -/

/-- What it takes to end a run: it begins, and the call in flight is answered. -/
def closing (state : CheckoutState) (r : Reply) : List (Stimulus Signal) :=
  [.signal .begin, .signal (.replied state r), .signal .notice]

/-- The run can be ended by this answer. -/
def Ends (state : CheckoutState) (r : Reply) (t : Task) : Prop :=
  ∃ w u, Trail take? t w u ∧ u.ended = true ∧ ∀ x ∈ w, x.input ∈ closing state r

/-- Where a task looks at its flag it sees that it is raised. -/
theorem notice_of_looks (looks : t.phase.looks = true) (flag : t.stopping = true) :
    t.next? .notice = some (t.halt .stopped) := by
  cases hp : t.phase <;> simp [hp, Phase.looks] at looks <;> simp [next?, hp, flag]

section
variable {state : CheckoutState} {r : Reply}

theorem ends_of_looks (looks : t.phase.looks = true) (flag : t.stopping = true) :
    Ends state r t :=
  ⟨_, _, .single (show t.take? (.signal .notice) = some _ from notice_of_looks looks flag),
    ended_halt t .stopped, by simp [closing]⟩

theorem ends_of_step (taken : t.take? (.signal i) = some (u, es)) (flag : t.stopping = true)
    (among : .signal i ∈ closing state r) : Ends state r t := by
  have does := does_of_signal taken
  rcases does.lands flag with ended | looks
  · exact ⟨_, u, .single taken, ended, by simpa using among⟩
  · have rest : Ends state r u := ends_of_looks looks ((does.calm flag).stopping.trans flag)
    obtain ⟨w, v, trail, ended, inputs⟩ := rest
    refine ⟨_, v, (Trail.single taken).append trail, ended, fun x hx => ?_⟩
    rcases List.mem_append.1 hx with first | later
    · rw [List.mem_singleton.1 first]
      exact among
    · exact inputs x later

/-- Whatever its driver answers, a run whose flag is raised ends without a pause that has to
run out, another's login or a wave. -/
theorem ends_of_flag (flag : t.stopping = true) (running : t.ended = false) : Ends state r t := by
  cases phase : t.phase with
  | fresh =>
    obtain ⟨x, hx⟩ : ∃ x, t.next? .begin = some x := by simp [next?, phase]
    exact ends_of_step (show t.take? (.signal .begin) = some (x.1, x.2) from hx) flag
      (by simp [closing])
  | calling s =>
    obtain ⟨x, hx⟩ : ∃ x, t.next? (.replied state r) = some x := by
      cases s <;> simp [next?, phase]
    exact ends_of_step (show t.take? (.signal (.replied state r)) = some (x.1, x.2) from hx) flag
      (by simp [closing])
  | electing | awaitingLogin | entering | pausing | awaitingWave =>
    exact ends_of_looks (by rw [phase]; rfl) flag
  | ended | crashed => simp [ended, phase] at running

end

/-- What is left of a run of which some legs were past when its flag was raised. -/
structure WindsDown (past : Legs) (t : Task) (later : Legs) (u : Task) : Prop where
  /-- No call of the driver begins. -/
  uncalled : ∀ s, .call s ∉ effectsOf later
  /-- A call in flight is answered before anything else happens, and its answer counts. -/
  answered : ∀ s, t.phase = .calling s → ∀ before m rest, later = before ++ m :: rest →
    (∀ x ∈ before, x.input = .stop) → m.input ≠ .stop →
      ∃ state r, m.input = .signal (.replied state r) ∧ Heeds m.before s state r m.after m.effects
  /-- The attempts are the calls that had begun, the one in flight among them. -/
  attempts : ∀ s, u.attemptsAt s = .ofNat (callsOf past s)
  /-- Where a task waits it can leave at once. -/
  prompt : u.phase.looks = true → u.next? .notice = some (u.halt .stopped)
  /-- What comes in the same instant does not keep it for long. -/
  brief : changes later + u.phase.left ≤ t.phase.left
  leave : TakesLeave t later u
  ends : u.ended = false → ∀ state r, Ends state r u

theorem windsDown_of_trail (before : Trail take? (Task.new c d) past t) (running : t.ended = false)
    (after : Trail take? t.stop later u) : WindsDown past t later u := by
  have ebbs := ebbs_of_trail running after
  refine ⟨ebbs.uncalled, ?_, fun s => ?_, fun looks => notice_of_looks looks ebbs.flag,
    ebbs.brief, ebbs.leave, fun running state r => ends_of_flag ebbs.flag running⟩
  · rintro s calling first m rest rfl stops signal
    obtain ⟨reached, answer, -⟩ := after.reach
    have same := eq_of_stops stops reached
    have phase : m.before.phase = .calling s := by rw [same]; exact calling
    obtain ⟨state, r, input, does⟩ := answer_of_calling phase answer signal
    obtain ⟨guard, member⟩ := sound_of_trail before
    exact ⟨state, r, input, does.heeds phase (by rw [same]; exact ⟨guard, member⟩)⟩
  · rw [attemptsAt_congr ebbs.attempts]
    exact (counted_of_trail before).attempts s

end

end Restock.Task
