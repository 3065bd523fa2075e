import Restock.Proofs.Task.Verdict
import Restock.Config.Validation

/-! Ceilings on the attempts at a step.

A task goes through the steps in their order and comes to each of them once
(`Phase.ahead`); after that it is the decider that lets it attempt the step again. The
standard decider does so only below the ceiling, and it is asked after every attempt that
failed. So a step is attempted as often as its ceiling says at most, but for a ceiling of
zero: the first attempt is made without asking (`Metered`, `attempt_above_ceiling`). Where
there is no ceiling, no number of attempts ends a run. -/
namespace Restock

/-- The steps after a step. -/
def Step.later : Step → List Step
  | .login => Step.checkout
  | s => (Step.checkout.dropWhile (· ≠ s)).tail

namespace Task

/-- The steps that a task in a phase may still come to. -/
def Phase.ahead : Phase → List Step
  | .fresh | .electing | .awaitingLogin => Step.all
  | .awaitingWave => Step.checkout
  | .entering s | .calling s | .pausing s _ => s.later
  | .ended | .crashed => []

/-- The next thing to do is an attempt at the step. -/
def Phase.aims (s : Step) : Phase → Bool
  | .entering s' | .pausing s' _ => s' = s
  | _ => false

section
variable {c : TaskContext} {p : RetryPolicy} {w : Legs} {t u : Task} {s : Step} {i : Signal}
  {es : List Effect}

theorem not_mem_later (s : Step) : s ∉ s.later := by
  cases s <;> decide

theorem later_eq {n : Step} (onward : s.next? = some n) : s.later = n :: n.later := by
  cases s <;> cases n <;> first | rfl | contradiction

/-- A task comes to the steps in their order, and to none of them again. -/
theorem Does.ahead (h : Does t i u es) (there : s ∈ u.phase.ahead) : s ∈ t.phase.ahead := by
  cases h with
  | stay | ignore => exact there
  | beginGuest phase | beginMember phase | adopt phase | wait phase | claim phase
  | adoptLater phase | elect phase =>
    rw [phase]
    exact s.mem_all
  | attempt phase | rest phase =>
    rw [phase]
    exact there
  | share phase =>
    rw [phase]
    exact there
  | advance phase _ onward =>
    rw [phase, Phase.ahead, later_eq onward]
    exact List.mem_cons_of_mem _ there
  | pause phase =>
    rw [phase]
    exact there
  | receive phase =>
    rw [phase]
    exact List.mem_cons_of_mem .addToCart there
  | stop | sessionless | complete | undecided | yield | abort | crash | giveUp =>
    simp [Phase.ahead] at there

/-- A task turns to a step when it comes to it, or when the decider lets it try again. -/
theorem Does.aims (h : Does t i u es) (aims : u.phase.aims s = true) :
    t.phase.aims s = true ∨ s ∈ t.phase.ahead ∨ t.phase = .calling s ∧
      ∃ f terminal delay reason,
        t.decider ⟨s, t.attemptsAt s, f, terminal⟩ = some (.retry delay reason) := by
  cases h with
  | stay | ignore => exact .inl aims
  | claim phase =>
    rw [phase]
    exact .inr (.inl s.mem_all)
  | rest phase =>
    rw [phase]
    exact .inl aims
  | advance phase _ onward =>
    obtain rfl := of_decide_eq_true aims
    rw [phase, Phase.ahead, later_eq onward]
    exact .inr (.inl List.mem_cons_self)
  | receive phase =>
    obtain rfl := of_decide_eq_true aims
    rw [phase]
    exact .inr (.inl (by decide))
  | pause phase state failed decided =>
    obtain rfl := of_decide_eq_true aims
    exact .inr (.inr ⟨phase, _, _, _, _, decided⟩)
  | _ => simp [Phase.aims] at aims

/-- A call of the driver is an attempt that was aimed at. -/
theorem Does.calling (h : Does t i u es) (calling : u.phase = .calling s) :
    t.phase.aims s = true := by
  cases h with
  | attempt phase =>
    obtain rfl := Phase.calling.inj calling
    rw [phase]
    exact decide_eq_true rfl
  | stay phase | ignore phase =>
    rw [phase] at calling
    contradiction
  | _ => simp at calling

/-- How far a run has used up the attempts that it is allowed. -/
structure Metered (p : RetryPolicy) (w : Legs) (t : Task) : Prop where
  unmet : ∀ s ∈ t.phase.ahead, callsOf w s = 0
  aims : ∀ s max, p.ceiling? s = some max → t.phase.aims s = true →
    callsOf w s = 0 ∨ callsOf w s < max.toNat
  calls : ∀ s max, p.ceiling? s = some max → callsOf w s = 1 ∨ callsOf w s ≤ max.toNat

/-- Below a ceiling the count of the attempts is exact. -/
theorem below_of_retry {a : FailedAttempt} {max : UInt32} {n : Nat} {delay : Duration}
    {reason : String} (ceiling : p.ceiling? a.step = some max) (count : a.attempts = .ofNat n)
    (few : n = 1 ∨ n ≤ max.toNat) (decided : p.decide a = some (.retry delay reason)) :
    n < max.toNat := by
  have lt := max.toNat_lt
  cases RetryPolicy.chooses_of_decide decided with
  | retry _ _ below =>
    have open' := below max ceiling
    rw [count, reached_iff (by omega)] at open'
    omega

theorem Metered.step (metered : Metered p w t) (counted : Counted c p.decide w t)
    (does : Does t i u es) : Metered p (w ++ [⟨t, .signal i, es, u⟩]) u := by
  have count : ∀ s, callsOf (w ++ [⟨t, .signal i, es, u⟩]) s =
      callsOf w s + if u.phase = .calling s then 1 else 0 := fun s => by
    rw [callsOf_snoc, does.count_call]
  refine ⟨fun s there => ?_, fun s max ceiling aims => ?_, fun s max ceiling => ?_⟩
  · have uncalled : u.phase ≠ .calling s := by
      intro calling
      rw [calling] at there
      exact not_mem_later s there
    rw [count, if_neg uncalled, metered.unmet s (does.ahead there)]
  · have uncalled : u.phase ≠ .calling s := by
      intro calling
      rw [calling] at aims
      contradiction
    rw [count, if_neg uncalled, Nat.add_zero]
    rcases does.aims aims with before | new | ⟨-, f, terminal, delay, reason, again⟩
    · exact metered.aims s max ceiling before
    · exact .inl (metered.unmet s new)
    · rw [counted.decider] at again
      exact .inr (below_of_retry ceiling (counted.attempts s) (metered.calls s max ceiling) again)
  · rw [count]
    split
    · next calling =>
      rcases metered.aims s max ceiling (does.calling calling) with none | some
      · exact .inl (by rw [none])
      · exact .inr some
    · exact metered.calls s max ceiling

theorem metered_of_trail (h : Trail take? (Task.new c p.decide) w t) : Metered p w t := by
  induction h with
  | rest => exact ⟨fun s _ => rfl, fun s max _ _ => .inl rfl, fun s max _ => .inr (Nat.zero_le _)⟩
  | @step w t u i es past taken ih =>
    cases i with
    | signal i => exact ih.step (counted_of_trail past) (does_of_signal taken)
    | stop =>
      obtain ⟨rfl, rfl⟩ := Prod.ext_iff.1 (Option.some.inj taken)
      have same : ∀ s, callsOf (w ++ [⟨t, .stop, [], t.stop⟩]) s = callsOf w s :=
        fun s => callsOf_snoc ..
      refine ⟨fun s there => ?_, fun s max ceiling aims => ?_, fun s max ceiling => ?_⟩
      · rw [same]
        exact ih.unmet s there
      · rw [same]
        exact ih.aims s max ceiling aims
      · rw [same]
        exact ih.calls s max ceiling

/-! ### Steps without a ceiling -/

/-- Without a ceiling, a failure that asks to be tried again is tried again. -/
theorem decide_of_uncapped {a : FailedAttempt} (uncapped : p.ceiling? a.step = none)
    (asked : a.terminal = false) (kind : a.failure.kind.isRetryable = true) :
    p.decide a = (p.wait? a).map fun delay => .retry delay a.failure.reason := by
  have cancelled : a.failure.kind ≠ .cancelled := by
    intro cancelled
    rw [cancelled] at kind
    contradiction
  rw [RetryPolicy.decide, if_neg cancelled, asked, kind, RetryPolicy.exceeded?, uncapped]
  rfl

/-- Without a ceiling, the count of the attempts has no part in giving up. -/
theorem abort_iff_of_uncapped {a : FailedAttempt} (uncapped : p.ceiling? a.step = none) :
    (∃ status reason, p.decide a = some (.abort status reason)) ↔
      a.failure.kind ≠ .cancelled ∧ (a.terminal = true ∨ a.failure.kind.isRetryable = false) := by
  constructor
  · rintro ⟨status, reason, chosen⟩
    cases RetryPolicy.chooses_of_decide chosen with
    | giveUp kind final => exact ⟨kind, final⟩
    | exhaust _ ceiling =>
      rw [uncapped] at ceiling
      contradiction
  · rintro ⟨kind, final⟩
    exact ⟨_, _, by rw [RetryPolicy.decide, if_neg kind, if_pos (by simpa using final)]⟩

/-- What becomes of a task whose attempt has failed is up to the decider. -/
theorem failed_of_take? {state : CheckoutState} {r : Reply} {f : StepFailure} {terminal : Bool}
    (calling : t.phase = .calling s) (failed : r.failure? s = some (f, terminal))
    (taken : take? t (.signal (.replied state r)) = some (u, es)) :
    (t.called s state).failAttempt s f terminal = (u, es) := by
  have finished : (t.called s state).finishAttempt s r = (u, es) := by
    unfold take? next? at taken
    rw [calling] at taken
    cases s <;> exact Option.some.inj taken
  cases r with
  | panicked =>
    cases Option.some.inj failed
    exact finished
  | crashed => contradiction
  | outcome o =>
    cases o with
    | success => contradiction
    | retry | terminal =>
      cases Option.some.inj failed
      exact finished

theorem goesOn_of_uncapped {l : Leg Task (Stimulus Signal) Effect} {r : Reply} {f : StepFailure}
    (decider : l.before.decider = p.decide)
    (taken : take? l.before l.input = some (l.after, l.effects)) (answer : answer? l = some (s, r))
    (uncapped : p.ceiling? s = none) (failed : r.failure? s = some (f, false))
    (kind : f.kind.isRetryable = true) :
    (∃ delay, l.after.phase = .pausing s delay) ∨
      l.after.phase = .crashed ∧ p.wait? ⟨s, l.before.attemptsAt s, f, false⟩ = none := by
  obtain ⟨calling, state, replied⟩ := input_of_answer answer
  rw [replied] at taken
  have after := failed_of_take? calling failed taken
  rw [failAttempt, decider_called, attemptsAt_called, decider,
    decide_of_uncapped (a := ⟨s, _, f, false⟩) uncapped rfl kind] at after
  cases wait : p.wait? ⟨s, l.before.attemptsAt s, f, false⟩ with
  | none =>
    rw [wait] at after
    obtain ⟨same, -⟩ := Prod.mk.inj after
    exact .inr ⟨by rw [← same], rfl⟩
  | some delay =>
    rw [wait] at after
    obtain ⟨same, -⟩ := Prod.mk.inj after
    exact .inl ⟨delay, by rw [← same, phase_enter]⟩

end

/-- The ceilings of a policy bound a run, and nothing else does. -/
structure Capped (p : RetryPolicy) (w : Legs) : Prop where
  /-- No more calls than the ceiling says; the first one is made under a ceiling of zero too. -/
  calls : ∀ s max, p.ceiling? s = some max →
    callsOf w s ≤ max.toNat ∨ max = 0 ∧ callsOf w s = 1
  /-- Without a ceiling, the count of the attempts has no part in giving up. -/
  aborts : ∀ a, p.ceiling? a.step = none →
    ((∃ status reason, p.decide a = some (.abort status reason)) ↔
      a.failure.kind ≠ .cancelled ∧ (a.terminal = true ∨ a.failure.kind.isRetryable = false))
  /-- Without a ceiling, what can be tried again is tried again, as long as there is a wait. -/
  goesOn : ∀ past l later s r f, w = past ++ l :: later → answer? l = some (s, r) →
    p.ceiling? s = none → r.failure? s = some (f, false) → f.kind.isRetryable = true →
    (∃ delay, l.after.phase = .pausing s delay) ∨
      l.after.phase = .crashed ∧ p.wait? ⟨s, l.before.attemptsAt s, f, false⟩ = none

section
variable {c : TaskContext} {p : RetryPolicy} {w : Legs} {t : Task}

/-- However the driver answers, a run with the standard decider keeps to the ceilings. -/
theorem calls_keep_within_ceilings (h : Trail take? (Task.new c p.decide) w t) : Capped p w := by
  refine ⟨fun s max ceiling => ?_, fun a uncapped => abort_iff_of_uncapped uncapped, ?_⟩
  · rcases (metered_of_trail h).calls s max ceiling with one | few
    · by_cases zero : max = 0
      · exact .inr ⟨zero, one⟩
      · have positive : max.toNat ≠ 0 := fun same => zero (UInt32.toNat_inj.1 same)
        exact .inl (by omega)
    · exact .inl few
  · rintro past l later s r f rfl answer uncapped failed kind
    obtain ⟨before, taken, -⟩ := h.reach
    exact goesOn_of_uncapped (counted_of_trail before).decider taken answer uncapped failed kind

end

/-- A guest with a ceiling on the attempts for the cart. -/
def capped (max : UInt32) : TaskConfig :=
  { TaskConfig.guest with retry := RetryPolicy.standard.withCeiling .addToCart max }

/-- What is heard of the driver until the cart has been refused twice. -/
def refusedCart : List (Stimulus Signal) :=
  [.signal .begin, .signal (.fed (.wave ⟨"demo", default, [default]⟩)), .signal .proceed,
    .signal (.replied .empty (.outcome (.transient "busy"))), .signal .rested, .signal .proceed,
    .signal (.replied .empty .panicked)]

theorem calls_under_a_ceiling_of_two :
    ∃ w t, Trail take? (Task.new default (capped 2).retry.decide) w t ∧
      Capped (capped 2).retry w ∧ callsOf w .addToCart = 2 ∧ t.status = .checkoutFailed := by
  have h := Trail.of_inputs take? (Task.new default (capped 2).retry.decide) refusedCart
  exact ⟨_, _, h, calls_keep_within_ceilings h, by decide, by decide⟩

/-- A ceiling of zero is valid, and yet the cart is attempted once. -/
theorem attempt_above_ceiling :
    (capped 0).validate = .ok () ∧ (capped 0).retry.ceiling? .addToCart = some 0 ∧
      ∃ w t, Trail take? (Task.new default (capped 0).retry.decide) w t ∧
        callsOf w .addToCart = 1 ∧ t.status = .checkoutFailed := by
  have h := Trail.of_inputs take? (Task.new default (capped 0).retry.decide) (refusedCart.take 4)
  exact ⟨rfl, by decide, _, _, h, by decide, by decide⟩

end Task

end Restock
