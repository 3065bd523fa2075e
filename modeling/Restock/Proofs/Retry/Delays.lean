import Restock.Config.Validation
import Restock.Proofs.Binary64.Seconds
import Restock.Retry.Decision

/-! The wait before the next attempt, next to the delay of the policy.

A policy is valid if its delay is not zero and its multiplier is finite and not below one;
nothing is asked of how the delay relates to the ceiling of the waits and to the cap of the
retailer's. A wait keeps to these two before it keeps to the delay. So with a delay above
them a task tries again too soon (`retry_before_the_delay`), and otherwise it never does
(`retries_are_patient`): a wait that grows is computed in floats, but not even their
rounding lets it fall short of the delay, because the least multiplier above one adds more
than all the rounding takes away. -/
namespace Restock

open Binary64
open Float.Model (UnpackedFloat)

/-- Powers of a factor that is not below one are not below the factor. -/
theorem atLeast_power {r a : Float} {z : ℚ} {n : ℕ} (hr : AtLeast 1 r) (ha : AtLeast z a)
    (grid : Grid z) (one : 1 ≤ z) (some : n ≠ 0) : AtLeast z (power r a n) := by
  have pos : 0 < z := zero_lt_one.trans_le one
  induction n using Nat.strongRecOn generalizing r a with
  | ind n ih =>
    have odd : AtLeast z (r * a) := hr.mul ha one_pos pos grid (one_mul z).ge
    have square : AtLeast z (a * a) := ha.mul ha pos pos grid (le_mul_of_one_le_left pos.le one)
    rw [power]
    -- Until the first odd exponent the result so far is only known to be at least one; the
    -- last exponent is one, and so the factor goes in at some point.
    split_ifs with last parity parity
    · exact odd
    · omega
    · exact ih _ (by omega) (odd.mono one) square last
    · exact ih _ (by omega) hr square last

namespace RetryPolicy

variable {p : RetryPolicy} {n : UInt32} {d : Duration}

/-- No float is between one and the least multiplier above it. -/
theorem atLeast_multiplier (finite : p.multiplier.isFinite = true) (least : ¬ p.multiplier < 1.0)
    (apart : ¬ p.multiplier == 1.0) : AtLeast (1 + 2 ^ (-52 : ℤ)) p.multiplier := by
  obtain ⟨v, worth, above⟩ := worth_of_not_lt finite worth_one one_pos least
  have more : 1 < v :=
    lt_of_le_of_ne above fun same => apart ((worth.beq_iff worth_one).2 same.symm)
  have one : Grid 1 := by exact_mod_cast grid_of_le (n := 1) (by decide)
  exact .worth worth (one.next_le (Canonical.grid worth) (by norm_num) more)

/-- The wait after an attempt grows with the attempts. -/
def Grows (p : RetryPolicy) (n : UInt32) : Prop := exponent n ≠ 0 ∧ ¬ p.multiplier == 1.0

/-- How the wait after an attempt comes about. -/
inductive Waits (p : RetryPolicy) (n : UInt32) : Option Duration → Prop
  | steady (same : ¬ p.Grows n) : Waits p n (some (p.delay.min p.maxDelay))
  | cutOff (grows : p.Grows n) : Waits p n (some p.maxDelay)
  /-- A float that is worth no less than the delay, and no more than the ceiling as a float. -/
  | computed {secs : Float} {v : ℚ} (grows : p.Grows n) (worth : Worth secs v)
      (above : p.delay.exact ≤ v) (within : ∀ x, Worth p.maxDelay.toSeconds x → v ≤ x) :
      Waits p n (Duration.ofSeconds? secs)

theorem waits_nextDelay? (some : p.delay.nanos ≠ 0) (finite : p.multiplier.isFinite = true)
    (least : ¬ p.multiplier < 1.0) : p.Waits n (p.nextDelay? n) := by
  unfold nextDelay?
  dsimp only
  split
  · next same =>
    refine .steady fun grows => ?_
    rw [Bool.or_eq_true, decide_eq_true_eq] at same
    exact same.elim grows.1 grows.2
  next grows =>
  rw [Bool.or_eq_true, decide_eq_true_eq, not_or] at grows
  split
  · exact .cutOff grows
  next within =>
  rw [Bool.or_eq_true, Bool.or_eq_true, not_or, not_or, decide_eq_true_eq,
    decide_eq_true_eq] at within
  have factor : AtLeast (1 + 2 ^ (-52 : ℤ)) (power 1.0 p.multiplier (exponent n)) :=
    atLeast_power (.worth worth_one le_rfl) (atLeast_multiplier finite least grows.2)
      ⟨2 ^ 52 + 1, -52, by decide, by decide, by norm_num⟩ (by norm_num) grows.1
  cases p.delay.exact_le_of_stretched some factor with
  | worth worth above =>
    have within : ¬ p.maxDelay.toSeconds <
        p.delay.toSeconds * power 1.0 p.multiplier (exponent n) := within.2
    exact .computed grows worth above fun x limit => not_lt.1 (mt (limit.lt_iff worth).2 within)
  | infinite infinite =>
    have bounded : (p.delay.toSeconds * power 1.0 p.multiplier (exponent n)).isFinite = false := by
      show UnpackedFloat.isFinite _ = false
      rw [infinite]
      rfl
    simp [bounded] at within

/-- A wait that grows is cut off at the ceiling, and is otherwise not below the delay. -/
theorem min_le_of_nextDelay? (finite : p.multiplier.isFinite = true)
    (least : ¬ p.multiplier < 1.0) (next : p.nextDelay? n = some d) :
    (p.delay.min p.maxDelay).nanos ≤ d.nanos := by
  by_cases none : p.delay.nanos = 0
  · rw [Duration.nanos_min]
    omega
  have waits := waits_nextDelay? (n := n) none finite least
  rw [next] at waits
  generalize same : some d = wait at waits
  cases waits with
  | steady => rw [Option.some.inj same]
  | cutOff =>
    rw [Option.some.inj same, Duration.nanos_min]
    exact Nat.min_le_right ..
  | computed _ worth above =>
    rw [Duration.nanos_min]
    exact (Nat.min_le_left ..).trans (Duration.nanos_le_of_ofSeconds? worth above same.symm)

end RetryPolicy

/-- The retailer's own wait, if it gave one. -/
def FailedAttempt.hint? (a : FailedAttempt) : Option Duration :=
  if a.failure.kind = .rateLimited then a.failure.retryAfter else none

namespace RetryPolicy

/-- The longest wait after an attempt: the cap of the retailer's waits, or the ceiling. -/
def limit (p : RetryPolicy) (a : FailedAttempt) : Duration :=
  if a.hint?.isSome then p.rateLimitCap else p.maxDelay

/-- The wait before the next attempt, next to the delay of the policy. -/
structure Patient (p : RetryPolicy) (a : FailedAttempt) (d : Duration) : Prop where
  /-- The retailer's own wait is kept between the delay and the cap. -/
  hinted : ∀ wait, a.hint? = some wait → d = (wait.max p.delay).min p.rateLimitCap
  /-- Otherwise the wait is at least the delay, cut off at the ceiling, -/
  unhinted : a.hint? = none → (p.delay.min p.maxDelay).nanos ≤ d.nanos
  /-- and exactly that if it does not grow. -/
  constant : a.hint? = none → p.multiplier == 1.0 → d = p.delay.min p.maxDelay
  /-- Within the limit, no wait is shorter than the delay, -/
  patient : p.delay.nanos ≤ (p.limit a).nanos → p.delay.nanos ≤ d.nanos
  /-- and one that does not grow is the delay. -/
  exactly : p.delay.nanos ≤ (p.limit a).nanos → a.hint? = none → p.multiplier == 1.0 → d = p.delay

theorem wait?_eq (p : RetryPolicy) (a : FailedAttempt) :
    p.wait? a = p.rateLimitedDelay? a.hint? a.attempts := by
  unfold wait? FailedAttempt.hint?
  split <;> rfl

theorem wait_of_retry {p : RetryPolicy} {a : FailedAttempt} {reason : String}
    (decided : p.decide a = some (.retry d reason)) : p.wait? a = some d := by
  unfold decide at decided
  split at decided
  · cases decided
  split at decided
  · cases decided
  split at decided
  · cases decided
  obtain ⟨wait, waited, same⟩ := Option.map_eq_some_iff.1 decided
  cases same
  exact waited

theorem patient_of_wait {a : FailedAttempt} (finite : p.multiplier.isFinite = true)
    (least : ¬ p.multiplier < 1.0) (wait : p.wait? a = some d) : Patient p a d := by
  rw [wait?_eq] at wait
  have hinted : ∀ asked, a.hint? = some asked → d = (asked.max p.delay).min p.rateLimitCap := by
    intro asked hint
    rw [hint] at wait
    exact (Option.some.inj wait).symm
  have unhinted : a.hint? = none → (p.delay.min p.maxDelay).nanos ≤ d.nanos := by
    intro hint
    rw [hint] at wait
    exact min_le_of_nextDelay? finite least wait
  have constant : a.hint? = none → p.multiplier == 1.0 → d = p.delay.min p.maxDelay := by
    intro hint one
    rw [hint, rateLimitedDelay?, nextDelay?, if_pos (by rw [one, Bool.or_true])] at wait
    exact (Option.some.inj wait).symm
  refine ⟨hinted, unhinted, constant, fun within => ?_, fun within hint one => ?_⟩
  · cases hint : a.hint? with
    | none =>
      have within : p.delay.nanos ≤ p.maxDelay.nanos := by simpa [limit, hint] using within
      have := unhinted hint
      rw [Duration.nanos_min] at this
      omega
    | some asked =>
      have within : p.delay.nanos ≤ p.rateLimitCap.nanos := by simpa [limit, hint] using within
      rw [hinted asked hint, Duration.nanos_min, Duration.nanos_max]
      omega
  · rw [constant hint one]
    exact Duration.min_eq_left (by simpa [limit, hint] using within)

/-- With a valid policy a task that tries again waits for the delay first, as far as the
policy itself lets it. -/
theorem retries_are_patient {c : TaskConfig} {a : FailedAttempt} {reason : String}
    (valid : c.validate = .ok ()) (decided : c.retry.decide a = some (.retry d reason)) :
    Patient c.retry a d := by
  obtain ⟨_, -, valid⟩ := bind_eq_ok_iff.1 valid
  obtain ⟨_, multiplier, -⟩ := bind_eq_ok_iff.1 valid
  have multiplier := require_eq_ok_iff.1 multiplier
  rw [Bool.and_eq_true, Bool.not_eq_true', decide_eq_false_iff_not] at multiplier
  exact patient_of_wait multiplier.1 multiplier.2 (wait_of_retry decided)

/-- A guest with a policy. -/
def guestWith (p : RetryPolicy) : TaskConfig := { TaskConfig.guest with retry := p }

/-- A failure that can be tried again. -/
def busy (attempts : UInt32) : FailedAttempt :=
  ⟨.setShipping, attempts, ⟨.transient, "busy", none⟩, false⟩

/-- The standard policy with waits that double. -/
def doubling : RetryPolicy := { standard with multiplier := 2.0 }

theorem patience_of_doubling :
    doubling.decide (busy 3) = some (.retry (.ofMillis 4000) "busy") ∧
      Patient doubling (busy 3) (.ofMillis 4000) := by
  have square : power 1.0 2.0 2 = 4.0 := by
    rw [power, power]
    rfl
  have next : doubling.nextDelay? 3 = some (.ofMillis 4000) := by
    have twice : exponent 3 = 2 := rfl
    have double : doubling.multiplier = 2.0 := rfl
    rw [nextDelay?, twice, double, square]
    decide +kernel
  have decided : doubling.decide (busy 3) = some (.retry (.ofMillis 4000) "busy") := by
    show (doubling.nextDelay? 3).map _ = _
    rw [next]
    rfl
  exact ⟨decided, retries_are_patient (c := guestWith doubling) rfl decided⟩

/-- A delay of a minute is valid and does not grow, and yet the wait is half a minute. -/
theorem retry_before_the_delay :
    (guestWith (fixed (.ofMillis 60000))).validate = .ok () ∧
      (fixed (.ofMillis 60000)).multiplier = 1.0 ∧ (busy 1).hint? = none ∧
      (fixed (.ofMillis 60000)).decide (busy 1) = some (.retry (.ofMillis 30000) "busy") ∧
      (Duration.ofMillis 30000).nanos < (fixed (.ofMillis 60000)).delay.nanos :=
  ⟨rfl, rfl, rfl, rfl, by decide⟩

end RetryPolicy

end Restock
