import Restock.Proofs.Task.Stopping

/-! The verdict of a run.

A run with the standard decider goes on as long as the last answer of the driver
leaves it something to do: another attempt, the next step, the wait for a wave. Each
other answer settles the run in one of four statuses (`Settles`), and besides that a
run ends only when the task sees its flag or the end of its feed. So the status that
a run reports says how its last call came out, and the other way round
(`verdict_of_a_run`). -/
namespace Restock

/-! ### The standard decider -/

namespace RetryPolicy

/-- What the standard decider may decide, and when. -/
inductive Chooses (p : RetryPolicy) (a : FailedAttempt) : Decision → Prop
  | stop (kind : a.failure.kind = .cancelled) : Chooses p a .stop
  | giveUp (kind : a.failure.kind ≠ .cancelled)
    (final : a.terminal = true ∨ a.failure.kind.isRetryable = false) :
    Chooses p a (.abort a.ending a.failure.reason)
  | exhaust {max : UInt32} (kind : a.failure.kind.isRetryable = true)
    (ceiling : p.ceiling? a.step = some max) (reached : max ≤ a.attempts) :
    Chooses p a (.abort .checkoutFailed (a.exhausted max))
  | retry {delay : Duration} (asked : a.terminal = false)
    (kind : a.failure.kind.isRetryable = true)
    (below : ∀ max, p.ceiling? a.step = some max → ¬ max ≤ a.attempts) :
    Chooses p a (.retry delay a.failure.reason)

theorem chooses_of_decide {p : RetryPolicy} {a : FailedAttempt} {x : Decision}
    (h : p.decide a = some x) : p.Chooses a x := by
  unfold decide at h
  split at h
  · next kind =>
    cases h
    exact .stop kind
  · next kind =>
    split at h
    · next final =>
      cases h
      exact .giveUp kind (by simpa using final)
    · next asked =>
      obtain ⟨asked, retryable⟩ : a.terminal = false ∧ a.failure.kind.isRetryable = true := by
        simpa using asked
      split at h
      · next max exceeded =>
        cases h
        obtain ⟨ceiling, reached⟩ := Option.filter_eq_some_iff.1 exceeded
        exact .exhaust retryable ceiling (by simpa using reached)
      · next exceeded =>
        obtain ⟨delay, -, rfl⟩ := Option.map_eq_some_iff.1 h
        refine .retry asked retryable fun max ceiling => ?_
        simpa using Option.filter_eq_none_iff.1 exceeded max ceiling

end RetryPolicy

namespace Task

/-! ### The driver's answers -/

/-- The step that the driver was called for, and what it answers. -/
def answer? (l : Leg Task (Stimulus Signal) Effect) : Option (Step × Reply) :=
  match l.before.phase, l.input with
  | .calling s, .signal (.replied _ r) => some (s, r)
  | _, _ => none

/-- The answers of the driver, in their order. -/
def answersOf (w : Legs) : List (Step × Reply) := w.filterMap answer?

/-- The last call of the driver was for this step, and came to this. -/
def Last (w : Legs) (s : Step) (r : Reply) : Prop := (answersOf w).getLast? = some (s, r)

/-- The last call of the driver failed; a panic is a failure that asks to be retried. -/
def LastFailed (w : Legs) (s : Step) (f : StepFailure) (terminal : Bool) : Prop :=
  ∃ r, Last w s r ∧ r.failure? s = some (f, terminal)

def bought? : Step × Reply → Option Step
  | (.login, _) => none
  | (s, .outcome (.success _)) => some s
  | _ => none

/-- The checkout steps that succeeded, in their order. -/
def boughtOf (w : Legs) : List Step := (answersOf w).filterMap bought?

/-- The task saw that its flag was raised, or that its feed was gone. -/
def Left (w : Legs) : Prop :=
  ∃ l ∈ w, l.input = .signal .notice ∨ l.input = .signal (.fed .closed)

/-! ### What settles a run -/

/-- The n-th attempt at a step is the last one if it fails so. -/
def Final (p : RetryPolicy) (s : Step) (n : Nat) (f : StepFailure) (terminal : Bool) : Prop :=
  terminal = true ∨ f.kind.isRetryable = false ∨ ∃ max, p.ceiling? s = some max ∧ max.toNat ≤ n

/-- The answer to the n-th attempt at a step ends the run, in this status. -/
inductive Settles (p : RetryPolicy) (s : Step) (n : Nat) (r : Reply) : TaskStatus → Prop
  | placed {v : Option Session} (order : s = .placeOrder) (success : r = .outcome (.success v)) :
    Settles p s n r .checkedOut
  | cancelled {f : StepFailure} {terminal : Bool} (failed : r.failure? s = some (f, terminal))
    (kind : f.kind = .cancelled) : Settles p s n r .idle
  | declined {f : StepFailure} {terminal : Bool} (failed : r.failure? s = some (f, terminal))
    (order : s = .placeOrder) (kind : f.kind = .authoritativeRejection) :
    Settles p s n r .cardDeclined
  | failed {f : StepFailure} {terminal : Bool} (failed : r.failure? s = some (f, terminal))
    (kind : f.kind ≠ .cancelled)
    (undeclined : ¬ (s = .placeOrder ∧ f.kind = .authoritativeRejection))
    (final : Final p s n f terminal) : Settles p s n r .checkoutFailed

section
variable {c : TaskContext} {p : RetryPolicy} {w past later : Legs}
  {l : Leg Task (Stimulus Signal) Effect} {t u : Task} {s s' : Step} {n : Nat} {i : Signal}
  {r : Reply} {es : List Effect} {f : StepFailure} {terminal : Bool} {status : TaskStatus}
  {reason : String}

theorem not_settles_of_success {v : Option Session} (onward : s ≠ .placeOrder) :
    ¬ Settles p s n (.outcome (.success v)) status := by
  intro settles
  cases settles with
  | placed order => exact onward order
  | cancelled failed | declined failed | failed failed => simp [Reply.failure?] at failed

theorem settles_of_stop (failed : r.failure? s = some (f, terminal))
    (decided : p.decide ⟨s, .ofNat n, f, terminal⟩ = some .stop) : Settles p s n r .idle := by
  cases RetryPolicy.chooses_of_decide decided with
  | stop kind => exact .cancelled failed kind

theorem reached_iff (few : n < 2 ^ 32) (max : UInt32) : max ≤ .ofNat n ↔ max.toNat ≤ n := by
  rw [UInt32.le_iff_toNat_le, UInt32.toNat_ofNat_of_lt' few]

theorem settles_of_abort (few : n < 2 ^ 32) (failed : r.failure? s = some (f, terminal))
    (decided : p.decide ⟨s, .ofNat n, f, terminal⟩ = some (.abort status reason)) :
    Settles p s n r status := by
  cases RetryPolicy.chooses_of_decide decided with
  | giveUp kind final =>
    unfold FailedAttempt.ending
    split
    · next declined => exact .declined failed declined.1 declined.2
    · next undeclined =>
      exact .failed failed kind undeclined (final.elim .inl fun once => .inr (.inl once))
  | exhaust kind ceiling reached =>
    refine .failed failed ?_ ?_ (.inr (.inr ⟨_, ceiling, (reached_iff few _).1 reached⟩))
    · rintro cancelled
      simp [cancelled, ErrorKind.isRetryable] at kind
    · rintro ⟨-, rejected⟩
      simp [rejected, ErrorKind.isRetryable] at kind

/-- A failure that is tried again settles nothing. -/
theorem not_settles_of_retry {delay : Duration} (few : n < 2 ^ 32)
    (failed : r.failure? s = some (f, terminal))
    (decided : p.decide ⟨s, .ofNat n, f, terminal⟩ = some (.retry delay reason)) :
    ¬ Settles p s n r status := by
  cases RetryPolicy.chooses_of_decide decided with
  | retry asked kind below =>
    have same : ∀ {f' terminal'}, r.failure? s = some (f', terminal') →
        f' = f ∧ terminal' = terminal := fun h => by simpa using h.symm.trans failed
    intro settles
    cases settles with
    | placed _ success => simp [success, Reply.failure?] at failed
    | cancelled again cancelled =>
      obtain ⟨rfl, rfl⟩ := same again
      simp [cancelled, ErrorKind.isRetryable] at kind
    | declined again _ rejected =>
      obtain ⟨rfl, rfl⟩ := same again
      simp [rejected, ErrorKind.isRetryable] at kind
    | failed again _ _ final =>
      obtain ⟨rfl, rfl⟩ := same again
      rcases final with terminal | once | ⟨max, ceiling, reached⟩
      · exact absurd (terminal.symm.trans asked) (by decide)
      · exact absurd (kind.symm.trans once) (by decide)
      · exact below max ceiling ((reached_iff few max).2 reached)

/-! ### One more leg -/

theorem replyTo?_eq (s : Step) (l : Leg Task (Stimulus Signal) Effect) :
    replyTo? s l = (answer? l).bind fun a => if a.1 = s then some a.2 else none := by
  unfold replyTo? answer?
  cases hp : l.before.phase <;> cases hi : l.input with
  | stop => rfl
  | signal i => cases i <;> simp

theorem answersOf_snoc (w : Legs) (l : Leg Task (Stimulus Signal) Effect) :
    answersOf (w ++ [l]) = answersOf w ++ (answer? l).toList := by
  cases h : answer? l <;> simp [answersOf, h]

theorem boughtOf_snoc (w : Legs) (l : Leg Task (Stimulus Signal) Effect) :
    boughtOf (w ++ [l]) = boughtOf w ++ ((answer? l).bind bought?).toList := by
  rw [boughtOf, answersOf_snoc, List.filterMap_append, ← boughtOf]
  cases h : answer? l with
  | none => rfl
  | some a => cases h' : bought? a <;> simp [h']

theorem left_snoc_iff : Left (w ++ [l]) ↔
    Left w ∨ l.input = .signal .notice ∨ l.input = .signal (.fed .closed) := by
  simp only [Left, List.mem_append, List.mem_singleton, or_and_right, exists_or, exists_eq_left]

theorem last_of_silent (silent : answer? l = none) : Last (w ++ [l]) s r ↔ Last w s r := by
  rw [Last, answersOf_snoc, silent, Option.toList_none, List.append_nil, Last]

theorem last_of_answer {r' : Reply} (answer : answer? l = some (s, r)) :
    Last (w ++ [l]) s' r' ↔ s' = s ∧ r' = r := by
  rw [Last, answersOf_snoc, answer, Option.toList_some, List.getLast?_concat, Option.some.injEq,
    Prod.mk.injEq, eq_comm, @eq_comm _ r]

theorem repliesTo_of_silent (silent : answer? l = none) (s : Step) :
    repliesTo (w ++ [l]) s = repliesTo w s := by
  rw [repliesTo_snoc, replyTo?_eq, silent]
  exact List.append_nil _

theorem answer?_replied (next : Task × List Effect) (phase : t.phase = .calling s)
    (state : CheckoutState) (r : Reply) :
    answer? ⟨t, .signal (.replied state r), next.2, next.1⟩ = some (s, r) := by
  simp [answer?, phase]

theorem input_of_answer (answer : answer? l = some (s, r)) :
    l.before.phase = .calling s ∧ ∃ state, l.input = .signal (.replied state r) := by
  unfold answer? at answer
  split at answer
  · next phase input =>
    cases answer
    exact ⟨phase, _, input⟩
  · contradiction

/-- Whoever is answered does not leave. -/
theorem left_of_answer (answer : answer? l = some (s, r)) : Left (w ++ [l]) ↔ Left w := by
  obtain ⟨-, state, input⟩ := input_of_answer answer
  rw [left_snoc_iff, input]
  simp

/-- An answer to the step that a task was called for is one to its last call. -/
theorem Counted.answers {d : Decider} (h : Counted c d w l.before)
    (answer : answer? l = some (s, r)) : (repliesTo (w ++ [l]) s).length = callsOf w s := by
  rw [h.calls, if_pos (input_of_answer answer).1, repliesTo_snoc, replyTo?_eq, answer]
  simp

/-! ### Runs -/

/-- The checkout steps before a step. -/
def passed : Step → List Step
  | .login => []
  | s => Step.checkout.takeWhile (· ≠ s)

/-- The checkout steps that are behind a task in a phase. -/
def Phase.bought : Phase → List Step
  | .entering s | .calling s | .pausing s _ => passed s
  | _ => []

theorem passed_next (checkout : s ≠ .login) (onward : s.next? = some s') :
    passed s' = passed s ++ [s] := by
  cases s <;> cases s' <;> simp_all [passed, Step.next?, Step.checkout]

theorem bought?_success (checkout : s ≠ .login) (v : Option Session) :
    bought? (s, .outcome (.success v)) = some s := by
  cases s <;> first | rfl | contradiction

theorem bought?_failure (failed : r.failure? s = some (f, terminal)) : bought? (s, r) = none := by
  unfold bought?
  split
  · rfl
  · next answer =>
    cases answer
    simp [Reply.failure?] at failed
  · rfl

/-- The last answer of the driver leaves the run something to do. -/
def Unsettled (p : RetryPolicy) (w : Legs) : Prop :=
  ∀ s r status, Last w s r → ¬ Settles p s (repliesTo w s).length r status

/-- A run that goes on. -/
structure Open (p : RetryPolicy) (w : Legs) (t : Task) : Prop where
  stayed : ¬ Left w
  unsettled : Unsettled p w
  bought : boughtOf w = t.phase.bought

/-- How a run ended: the task left, or the last answer of the driver settled it. -/
inductive Ended (p : RetryPolicy) (w : Legs) (status : TaskStatus) : Prop
  | left (left : Left w) (unsettled : Unsettled p w) (idle : status = .idle)
  | settled {s : Step} {r : Reply} (stayed : ¬ Left w) (last : Last w s r)
    (settles : Settles p s (repliesTo w s).length r status)
    (whole : status = .checkedOut → boughtOf w = Step.checkout)

inductive Judged (p : RetryPolicy) (w : Legs) (t : Task) : Prop
  | underWay (running : t.ended = false) (goesOn : Open p w t)
  | ended (phase : t.phase = .ended) (how : Ended p w t.status)
  | crashed (phase : t.phase = .crashed)

theorem Unsettled.silent (h : Unsettled p w) (silent : answer? l = none) :
    Unsettled p (w ++ [l]) := by
  intro s r status last
  rw [repliesTo_of_silent silent]
  exact h s r status ((last_of_silent silent).1 last)

theorem Open.silent (h : Open p w t) (silent : answer? l = none)
    (stays : ¬ (l.input = .signal .notice ∨ l.input = .signal (.fed .closed)))
    (same : u.phase.bought = t.phase.bought) : Open p (w ++ [l]) u := by
  refine ⟨?_, h.unsettled.silent silent, ?_⟩
  · rw [left_snoc_iff, not_or]
    exact ⟨h.stayed, stays⟩
  · rw [boughtOf_snoc, silent, same, ← h.bought]
    exact List.append_nil _

theorem Open.answered (h : Open p w t) (answer : answer? l = some (s, r))
    (onward : ∀ status, ¬ Settles p s (repliesTo (w ++ [l]) s).length r status)
    (bought : t.phase.bought ++ (bought? (s, r)).toList = u.phase.bought) :
    Open p (w ++ [l]) u := by
  refine ⟨?_, ?_, ?_⟩
  · rw [left_of_answer answer]
    exact h.stayed
  · intro s' r' status last
    obtain ⟨rfl, rfl⟩ := (last_of_answer answer).1 last
    exact onward status
  · rw [boughtOf_snoc, answer, h.bought]
    exact bought

/-- A failure that settles a run is no order. -/
theorem Settles.unplaced (h : Settles p s n r status) (failed : r.failure? s = some (f, terminal)) :
    status ≠ .checkedOut := by
  cases h with
  | placed order success => simp [success, Reply.failure?] at failed
  | cancelled | declined | failed => rintro ⟨⟩

theorem Open.ends (h : Open p w t) (answer : answer? l = some (s, r))
    (settles : Settles p s (repliesTo (w ++ [l]) s).length r status)
    (whole : status = .checkedOut → boughtOf (w ++ [l]) = Step.checkout) :
    Ended p (w ++ [l]) status :=
  .settled (by rw [left_of_answer answer]; exact h.stayed)
    ((last_of_answer answer).2 ⟨rfl, rfl⟩) settles whole

theorem Open.step (h : Open p w t) (counted : Counted c p.decide w t) (does : Does t i u es)
    (sessions : .outcome (.success none) ∉ repliesTo (w ++ [⟨t, .signal i, es, u⟩]) .login)
    (few : ∀ s, callsOf w s < 2 ^ 32) : Judged p (w ++ [⟨t, .signal i, es, u⟩]) u := by
  have attempts : ∀ {s r}, answer? ⟨t, .signal i, es, u⟩ = some (s, r) →
      t.attemptsAt s = .ofNat (repliesTo (w ++ [⟨t, .signal i, es, u⟩]) s).length ∧
        (repliesTo (w ++ [⟨t, .signal i, es, u⟩]) s).length < 2 ^ 32 := by
    intro s r answer
    rw [Counted.answers (l := ⟨t, .signal i, es, u⟩) counted answer]
    exact ⟨counted.attempts s, few s⟩
  have decider := counted.decider
  cases does with
  | beginGuest phase | beginMember phase | adopt phase | wait phase | claim phase
  | adoptLater phase | elect phase | attempt phase | rest phase | receive phase =>
    refine .underWay rfl (h.silent (by simp [answer?]) (by simp) ?_)
    rw [phase]
    rfl
  | stay phase | ignore phase =>
    exact .underWay (by rw [ended, phase]; rfl) (h.silent (by simp [answer?]) (by simp) rfl)
  | stop looks =>
    refine .ended (phase_halt ..) (.left ?_ (h.unsettled.silent ?_) (status_halt_stopped t))
    · exact left_snoc_iff.2 (.inr (.inl rfl))
    · simp [answer?]
  | giveUp =>
    refine .ended (phase_halt ..) (.left ?_ (h.unsettled.silent ?_) (status_halt_stopped t))
    · exact left_snoc_iff.2 (.inr (.inr rfl))
    · simp [answer?]
  | share phase state v =>
    have answer := answer?_replied (t.share v) phase state (.outcome (.success (some v)))
    refine .underWay rfl (h.answered answer (fun _ => not_settles_of_success (by decide)) ?_)
    rw [phase]
    rfl
  | sessionless phase state =>
    refine absurd (List.mem_of_getLast? ?_) sessions
    exact getLast?_replies (replyTo?_replied phase state _)
  | @advance s n phase checkout onward state v =>
    refine .underWay rfl (h.answered (answer?_replied (_, _) phase state _) (fun _ => ?_) ?_)
    · refine not_settles_of_success fun order => ?_
      simp [order, Step.next?] at onward
    · rw [phase, bought?_success checkout]
      exact (passed_next checkout onward).symm
  | complete phase state v =>
    have answer := answer?_replied { t with state }.complete phase state (.outcome (.success v))
    refine .ended rfl (h.ends answer (.placed rfl rfl) fun _ => ?_)
    rw [boughtOf_snoc, answer, h.bought, phase]
    rfl
  | undecided | crash => exact .crashed rfl
  | @yield s phase state r f terminal failed decided =>
    have answer := answer?_replied ((t.called s state).halt .stopped) phase state r
    rw [decider, (attempts answer).1] at decided
    refine .ended (phase_halt ..) (h.ends answer ?_ ?_)
    · rw [status_halt_stopped]
      exact settles_of_stop failed decided
    · rw [status_halt_stopped]
      rintro ⟨⟩
  | @abort s phase state r f terminal failed status reason decided =>
    have answer := answer?_replied ((t.called s state).halt (.failed status reason)) phase state r
    rw [decider, (attempts answer).1] at decided
    have settles := settles_of_abort (attempts answer).2 failed decided
    refine .ended (phase_halt ..) (h.ends answer ?_ ?_)
    · rw [status_halt_failed]
      exact settles
    · rw [status_halt_failed]
      exact fun placed => absurd placed (settles.unplaced failed)
  | @pause s phase state r f terminal failed delay reason decided =>
    have answer := answer?_replied ((t.called s state).pause s delay reason) phase state r
    rw [decider, (attempts answer).1] at decided
    refine .underWay rfl (h.answered answer (fun _ => ?_) ?_)
    · exact not_settles_of_retry (attempts answer).2 failed decided
    · rw [phase, bought?_failure failed]
      exact List.append_nil _

/-- The flag may be raised at any time; that alone settles nothing. -/
theorem Judged.stop (h : Judged p w t) : Judged p (w ++ [⟨t, .stop, [], t.stop⟩]) t.stop := by
  have silent : answer? (⟨t, .stop, [], t.stop⟩ : Leg Task (Stimulus Signal) Effect) = none := by
    simp [answer?]
  have stays : Left (w ++ [⟨t, .stop, [], t.stop⟩]) ↔ Left w := by
    rw [left_snoc_iff]
    simp
  have bought : boughtOf (w ++ [⟨t, .stop, [], t.stop⟩]) = boughtOf w := by
    rw [boughtOf_snoc, silent]
    exact List.append_nil _
  cases h with
  | underWay running goesOn => exact .underWay running (goesOn.silent silent (by simp) rfl)
  | crashed phase => exact .crashed phase
  | ended phase how =>
    refine .ended phase ?_
    cases how with
    | left left unsettled idle => exact .left (stays.2 left) (unsettled.silent silent) idle
    | settled stayed last settles whole =>
      refine .settled (mt stays.1 stayed) ((last_of_silent silent).2 last) ?_ ?_
      · rw [repliesTo_of_silent silent]
        exact settles
      · rw [bought]
        exact whole

theorem judged_of_trail (h : Trail take? (Task.new c p.decide) w t)
    (sessions : .outcome (.success none) ∉ repliesTo w .login) (few : ∀ s, callsOf w s < 2 ^ 32) :
    Judged p w t := by
  induction h with
  | rest => exact .underWay rfl ⟨by simp [Left], by simp [Unsettled, Last, answersOf], rfl⟩
  | @step w t u i es past taken ih =>
    have sessions' : .outcome (.success none) ∉ repliesTo w .login := by
      intro sessionless
      refine sessions ?_
      rw [repliesTo_snoc]
      exact List.mem_append_left _ sessionless
    have few' : ∀ s, callsOf w s < 2 ^ 32 :=
      fun s => Nat.lt_of_le_of_lt (callsOf_le_snoc w _ s) (few s)
    have judged := ih sessions' few'
    cases i with
    | stop =>
      obtain ⟨rfl, rfl⟩ := Prod.mk.inj (Option.some.inj taken)
      exact judged.stop
    | signal i =>
      have does := does_of_signal taken
      cases judged with
      | underWay running goesOn => exact goesOn.step (counted_of_trail past) does sessions few'
      | ended phase => exact absurd phase does.live.1
      | crashed phase => exact absurd phase does.live.2

/-! ### Reports -/

theorem Does.counts (h : Does t i u es) (s : Step) : u.attempts.get? s =
    if es.count (.call s) = 0 then t.attempts.get? s else some (t.attemptsAt s + 1) := by
  by_cases hi : i = .proceed
  · subst hi
    cases h with
    | @attempt s' =>
      have same := (steady_turn t s'.status .update Event.noPayload).attempts
      rw [count_call_attempt]
      by_cases hs : s = s' <;> simp [Task.attempt, Task.attemptsAt, same, hs]
  · have steady := h.steady hi
    rw [steady.attempts, List.count_eq_zero_of_not_mem (steady.uncalled s), if_pos rfl]

/-- The counts of a task are those of its calls; a step that was not called for has none. -/
theorem attempts_of_trail {d : Decider} (h : Trail take? (Task.new c d) w t) (s : Step) :
    t.attempts.get? s = if callsOf w s = 0 then none else some (.ofNat (callsOf w s)) := by
  induction h with
  | rest => rfl
  | @step w t u i es past taken ih =>
    rw [callsOf_snoc]
    cases i with
    | stop =>
      obtain ⟨rfl, rfl⟩ := Prod.mk.inj (Option.some.inj taken)
      exact ih
    | signal i =>
      have does := does_of_signal taken
      rw [does.counts, does.count_call, (counted_of_trail past).attempts]
      by_cases calling : u.phase = .calling s
      · simp [calling]
      · simpa [calling] using ih

/-- What a report says of the calls of the driver, and what they say of it. -/
structure Verdict (p : RetryPolicy) (w : Legs) (r : TaskReport) : Prop where
  /-- Every step of the checkout succeeded, and the last of them was the last call. -/
  checkedOut : r.status = .checkedOut ↔
    boughtOf w = Step.checkout ∧ ∃ v, Last w .placeOrder (.outcome (.success v))
  cardDeclined : r.status = .cardDeclined ↔ ∃ f terminal, LastFailed w .placeOrder f terminal ∧
    f.kind = .authoritativeRejection
  idle : r.status = .idle ↔
    Left w ∨ ∃ s f terminal, LastFailed w s f terminal ∧ f.kind = .cancelled
  checkoutFailed : r.status = .checkoutFailed ↔ ∃ s f terminal, LastFailed w s f terminal ∧
    f.kind ≠ .cancelled ∧ ¬ (s = .placeOrder ∧ f.kind = .authoritativeRejection) ∧
      Final p s (callsOf w s) f terminal
  /-- There is no other status. -/
  outcomes : r.status ∈ [TaskStatus.checkedOut, .cardDeclined, .idle, .checkoutFailed]
  attempts : ∀ s, r.attempts.get? s =
    if callsOf w s = 0 then none else some (.ofNat (callsOf w s))
  /-- The call that settles the run is the last thing that happens in it. -/
  last : ∀ past l later, w = past ++ l :: later → ∀ s r status, answer? l = some (s, r) →
    Settles p s (callsOf past s) r status → effectsOf later = []

/-- The answer to an attempt settles a run in one way only. -/
theorem Settles.unique {status' : TaskStatus} (h : Settles p s n r status)
    (h' : Settles p s n r status') : status = status' := by
  have same : ∀ {f f' : StepFailure} {terminal terminal' : Bool},
      r.failure? s = some (f, terminal) → r.failure? s = some (f', terminal') → f = f' :=
    fun failed again => (Prod.mk.inj (Option.some.inj (failed.symm.trans again))).1
  cases h with
  | placed _ success =>
    cases h' with
    | placed => rfl
    | cancelled failed | declined failed | failed failed =>
      simp [success, Reply.failure?] at failed
  | cancelled failed kind =>
    cases h' with
    | placed _ success => simp [success, Reply.failure?] at failed
    | cancelled => rfl
    | declined again _ rejected =>
      rw [same failed again, rejected] at kind
      contradiction
    | failed again uncancelled => exact absurd (same failed again ▸ kind) uncancelled
  | declined failed order kind =>
    cases h' with
    | placed _ success => simp [success, Reply.failure?] at failed
    | cancelled again cancelled =>
      rw [same failed again, cancelled] at kind
      contradiction
    | declined => rfl
    | failed again _ undeclined => exact absurd ⟨order, same failed again ▸ kind⟩ undeclined
  | failed failed uncancelled undeclined =>
    cases h' with
    | placed _ success => simp [success, Reply.failure?] at failed
    | cancelled again kind => exact absurd (same failed again ▸ kind) uncancelled
    | declined again order kind => exact absurd ⟨order, same failed again ▸ kind⟩ undeclined
    | failed => rfl

/-- A run that ended has this status if the task left with it, or if its last answer settled
it so. -/
theorem Ended.status_iff (h : Ended p w status) {x : TaskStatus} : status = x ↔
    (x = .idle ∧ Left w) ∨ ∃ s r, Last w s r ∧ Settles p s (repliesTo w s).length r x := by
  constructor
  · rintro rfl
    cases h with
    | left left _ idle => exact .inl ⟨idle, left⟩
    | settled _ last settles => exact .inr ⟨_, _, last, settles⟩
  · rintro (⟨rfl, gone⟩ | ⟨s', r', last', settles'⟩)
    · cases h with
      | left _ _ idle => exact idle
      | settled stayed => exact absurd gone stayed
    · cases h with
      | left _ unsettled => exact absurd settles' (unsettled s' r' x last')
      | settled _ last settles =>
        obtain ⟨rfl, rfl⟩ := Prod.mk.inj (Option.some.inj (last'.symm.trans last))
        exact settles.unique settles'

theorem Ended.outcomes (h : Ended p w status) :
    status ∈ [TaskStatus.checkedOut, .cardDeclined, .idle, .checkoutFailed] := by
  cases h with
  | left _ _ idle => simp [idle]
  | settled _ _ settles => cases settles <;> simp

theorem Ended.checkedOut_iff (h : Ended p w status) : status = .checkedOut ↔
    boughtOf w = Step.checkout ∧ ∃ v, Last w .placeOrder (.outcome (.success v)) := by
  constructor
  · rintro rfl
    cases h with
    | left _ _ idle => exact absurd idle (by decide)
    | settled _ last settles whole =>
      cases settles with
      | placed order success =>
        obtain ⟨rfl, rfl⟩ := And.intro order success
        exact ⟨whole rfl, _, last⟩
  · rintro ⟨-, v, last⟩
    exact h.status_iff.2 (.inr ⟨_, _, last, .placed rfl rfl⟩)

theorem Ended.cardDeclined_iff (h : Ended p w status) : status = .cardDeclined ↔
    ∃ f terminal, LastFailed w .placeOrder f terminal ∧ f.kind = .authoritativeRejection := by
  rw [h.status_iff]
  constructor
  · rintro (⟨idle, -⟩ | ⟨s, r, last, settles⟩)
    · exact absurd idle (by decide)
    · cases settles with
      | declined failed order kind =>
        subst order
        exact ⟨_, _, ⟨r, last, failed⟩, kind⟩
  · rintro ⟨f, terminal, ⟨r, last, failed⟩, kind⟩
    exact .inr ⟨_, r, last, .declined failed rfl kind⟩

theorem Ended.idle_iff (h : Ended p w status) : status = .idle ↔
    Left w ∨ ∃ s f terminal, LastFailed w s f terminal ∧ f.kind = .cancelled := by
  rw [h.status_iff]
  constructor
  · rintro (⟨-, left⟩ | ⟨s, r, last, settles⟩)
    · exact .inl left
    · cases settles with
      | cancelled failed kind => exact .inr ⟨s, _, _, ⟨r, last, failed⟩, kind⟩
  · rintro (left | ⟨s, f, terminal, ⟨r, last, failed⟩, kind⟩)
    · exact .inl ⟨rfl, left⟩
    · exact .inr ⟨s, r, last, .cancelled failed kind⟩

theorem Ended.checkoutFailed_iff (h : Ended p w status) : status = .checkoutFailed ↔
    ∃ s f terminal, LastFailed w s f terminal ∧ f.kind ≠ .cancelled ∧
      ¬ (s = .placeOrder ∧ f.kind = .authoritativeRejection) ∧
        Final p s (repliesTo w s).length f terminal := by
  rw [h.status_iff]
  constructor
  · rintro (⟨idle, -⟩ | ⟨s, r, last, settles⟩)
    · exact absurd idle (by decide)
    · cases settles with
      | failed failed kind undeclined final =>
        exact ⟨s, _, _, ⟨r, last, failed⟩, kind, undeclined, final⟩
  · rintro ⟨s, f, terminal, ⟨r, last, failed⟩, kind, undeclined, final⟩
    exact .inr ⟨s, r, last, .failed failed kind undeclined final⟩

/-- What settles a run ends it. -/
theorem silent_of_settles (h : Trail take? (Task.new c p.decide) (past ++ l :: later) t)
    (sessions : .outcome (.success none) ∉ repliesTo (past ++ l :: later) .login)
    (few : ∀ s, callsOf (past ++ l :: later) s < 2 ^ 32) (answer : answer? l = some (s, r))
    (settles : Settles p s (callsOf past s) r status) : effectsOf later = [] := by
  have whole : past ++ l :: later = (past ++ [l]) ++ later := by simp
  rw [whole] at h sessions few
  obtain ⟨m, before, after⟩ := h.split
  obtain ⟨first, taken, same⟩ := before.last
  have sessions' : .outcome (.success none) ∉ repliesTo (past ++ [l]) .login := by
    intro sessionless
    refine sessions ?_
    rw [repliesTo, List.filterMap_append]
    exact List.mem_append_left _ sessionless
  have few' : ∀ s, callsOf (past ++ [l]) s < 2 ^ 32 := by
    intro s
    refine Nat.lt_of_le_of_lt ?_ (few s)
    rw [callsOf, callsOf, effectsOf_append _ later, List.count_append]
    exact Nat.le_add_right ..
  have gone : m.ended = true := by
    cases judged_of_trail before sessions' few' with
    | ended phase => rw [Task.ended, phase]; rfl
    | crashed phase => rw [Task.ended, phase]; rfl
    | underWay running goesOn =>
      refine absurd settles ?_
      rw [← (counted_of_trail first).answers answer]
      exact goesOn.unsettled s r status ((last_of_answer answer).2 ⟨rfl, rfl⟩)
  exact (silent_of_ended gone after).2.2

end

section
variable {c : TaskContext} {p : RetryPolicy} {w : Legs} {t : Task} {r : TaskReport}

/-- **The verdict of a run.** However the driver answers, with panics among its answers, and
whenever the task is stopped: if a run with the standard decider ends of itself, the status of
its report and the calls of the driver determine each other as `Verdict` says. A panic counts
as a transient failure that asks to be retried. A login that succeeds has a session to show,
and no step is attempted 2 ^ 32 times. -/
theorem verdict_of_a_run (h : Trail take? (Task.new c p.decide) w t) (report : t.report? = some r)
    (sessions : .outcome (.success none) ∉ repliesTo w .login) (few : ∀ s, callsOf w s < 2 ^ 32) :
    Verdict p w r ∧ ∀ (t : Task) (state : CheckoutState) (s : Step), t.phase = .calling s →
      ∃ reason, t.next? (.replied state .panicked) =
        t.next? (.replied state (.outcome (.transient reason))) := by
  constructor
  · unfold report? at report
    split at report
    case isFalse => contradiction
    case isTrue phase =>
      obtain rfl := Option.some.inj report
      have calls : ∀ s, callsOf w s = (repliesTo w s).length := by
        intro s
        rw [(counted_of_trail h).calls, phase]
        rfl
      cases judged_of_trail h sessions few with
      | underWay running => simp [Task.ended, phase] at running
      | crashed crashed => exact absurd (phase.symm.trans crashed) (by decide)
      | ended _ how =>
        refine ⟨how.checkedOut_iff, how.cardDeclined_iff, how.idle_iff, ?_, how.outcomes,
          attempts_of_trail h, ?_⟩
        · simp only [calls]
          exact how.checkoutFailed_iff
        · rintro past l later rfl s r status answer settles
          exact silent_of_settles h sessions few answer settles
  · intro t state s phase
    refine ⟨(panicFailure s).reason, ?_⟩
    cases s <;> simp only [next?, phase] <;> rfl

end

/-- The driver panics over the cart, and in the end the order is refused: the driver asks to
try again, but it was a rejection. -/
def declined : List (Stimulus Signal) :=
  [.signal .begin, .signal (.fed (.wave ⟨"demo", default, [default]⟩)), .signal .proceed,
    .signal (.replied .empty .panicked), .signal .rested, .signal .proceed,
    .signal (.replied .empty (.outcome (.success none))), .signal .proceed,
    .signal (.replied .empty (.outcome (.success none))), .signal .proceed,
    .signal (.replied .empty (.outcome (.success none))), .signal .proceed,
    .signal (.replied .empty (.outcome (.success none))), .signal .proceed,
    .signal (.replied .empty (.outcome (.retry ⟨.authoritativeRejection, "no funds", none⟩)))]

theorem verdict_of_a_declined_card :
    ∃ w t r, Trail take? (Task.new default RetryPolicy.standard.decide) w t ∧
      t.report? = some r ∧ Verdict .standard w r ∧ r.status = .cardDeclined ∧
      boughtOf w = [.addToCart, .getCartInfo, .setShipping, .setBilling] ∧
      r.attempts.get? .addToCart = some 2 ∧ r.attempts.get? .login = none := by
  have h := Trail.of_inputs take? (Task.new default RetryPolicy.standard.decide) declined
  refine ⟨_, _, _, h, rfl, (verdict_of_a_run h rfl ?_ ?_).1, by decide, by decide, by decide,
    by decide⟩
  · decide
  · intro s
    cases s <;> decide

end Task

end Restock
