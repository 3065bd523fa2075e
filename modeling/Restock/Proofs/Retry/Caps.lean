import Restock.Proofs.Config.Rules
import Restock.Proofs.Retry.Delays

/-! The caps of a policy.

The wait that a retailer asks for is cut off as a duration, and so it keeps to its cap. A wait
that grows is compared to the ceiling in floats, and then rounded to nanoseconds. The ceiling
as a float may be above the ceiling, and then so may be the wait (`wait_above_the_ceiling`).
It is not if the ceiling is worth a float, or is shorter than `2 ^ 23` seconds, for then all
that is rounded up is less than half a nanosecond; and in any case a wait is too long by one
part in `2 ^ 52` of the ceiling at most (`waits_keep_to_caps`). -/
namespace Restock

open Binary64

namespace RetryPolicy

variable {p : RetryPolicy} {n : UInt32} {d : Duration}

theorem waits_of_valid {c : TaskConfig} (valid : c.Valid) (n : UInt32) :
    c.retry.Waits n (c.retry.nextDelay? n) :=
  waits_nextDelay? valid.delay.ne' valid.multiplier.1
    ((not_lt_iff_le valid.multiplier.1 (by decide)).2 valid.multiplier.2)

/-- A wait is above the ceiling only as far as the ceiling as a float is, and half a nanosecond. -/
theorem le_of_waits (waits : p.Waits n (some d)) {u : ℚ}
    (ceiling : ∀ x, Worth p.maxDelay.toSeconds x → x ≤ u) :
    d.nanos ≤ p.maxDelay.nanos ∨ (d.nanos : ℚ) ≤ u * nanosPerSecond + 1 / 2 := by
  generalize same : some d = wait at waits
  cases waits with
  | steady =>
    rw [Option.some.inj same, Duration.nanos_min]
    exact .inl (Nat.min_le_right ..)
  | cutOff => exact .inl (by rw [Option.some.inj same])
  | @computed secs v _ worth _ within =>
    obtain ⟨x, limit, -⟩ := p.maxDelay.worth_toSeconds
    have below : v ≤ u := (within x limit).trans (ceiling x limit)
    have half := (abs_le.1 (Duration.nearestNanos_half worth)).2
    rw [← Duration.nanos_of_ofSeconds? worth same.symm] at half
    have scaled := mul_le_mul_of_nonneg_right below Duration.nanosPerSecond_pos.le
    exact .inr (by linarith)

theorem nanos_le_of_lt {e : Duration} (below : (d.nanos : ℚ) < e.nanos + 1) :
    d.nanos ≤ e.nanos := Nat.lt_succ_iff.1 (by exact_mod_cast below)

/-- Below `2 ^ 23` seconds floats are less than a nanosecond apart. -/
theorem le_of_short (waits : p.Waits n (some d)) (short : p.maxDelay.secs < 2 ^ 23) :
    d.nanos ≤ p.maxDelay.nanos := by
  rcases le_of_waits waits fun x worth => Duration.toSeconds_near worth short with below | near
  · exact below
  · apply nanos_le_of_lt
    rw [add_mul, Duration.exact_mul] at near
    norm_num [nanosPerSecond] at near ⊢
    linarith

theorem le_of_exact (waits : p.Waits n (some d)) (grid : Grid p.maxDelay.exact) :
    d.nanos ≤ p.maxDelay.nanos := by
  rcases le_of_waits waits fun x worth => Duration.toSeconds_le worth grid le_rfl with below | near
  · exact below
  · apply nanos_le_of_lt
    rw [Duration.exact_mul] at near
    linarith

theorem le_of_close (waits : p.Waits n (some d)) :
    d.nanos ≤ p.maxDelay.nanos + (p.maxDelay.nanos + 2 ^ 51) / 2 ^ 52 := by
  rcases le_of_waits waits fun x worth => Duration.toSeconds_close worth with below | near
  · exact below.trans (Nat.le_add_right ..)
  · rw [mul_right_comm, Duration.exact_mul] at near
    have scaled : (d.nanos : ℚ) * 2 ^ 52 ≤ p.maxDelay.nanos * 2 ^ 52 +
        (p.maxDelay.nanos + 2 ^ 51) := by
      norm_num at near ⊢
      linarith
    have scaled : d.nanos * 2 ^ 52 ≤ p.maxDelay.nanos * 2 ^ 52 +
        (p.maxDelay.nanos + 2 ^ 51) := by exact_mod_cast scaled
    omega

/-- What the waits of a policy keep to. -/
structure Bounded (p : RetryPolicy) (n : UInt32) : Prop where
  /-- The retailer's own wait keeps to its cap. -/
  hinted : ∀ wait, ∃ d, p.rateLimitedDelay? (some wait) n = some d ∧
    d.nanos ≤ p.rateLimitCap.nanos
  unhinted : p.rateLimitedDelay? none n = p.nextDelay? n
  steady : ¬ p.Grows n → p.nextDelay? n = some (p.delay.min p.maxDelay)
  /-- A ceiling of up to 97 days. -/
  short : p.maxDelay.secs < 2 ^ 23 → ∀ d, p.nextDelay? n = some d →
    d.nanos ≤ p.maxDelay.nanos
  /-- A ceiling that is worth a float. -/
  exact : Grid p.maxDelay.exact → ∀ d, p.nextDelay? n = some d → d.nanos ≤ p.maxDelay.nanos
  /-- In any case the wait is too long by one part in `2 ^ 52` of the ceiling at most. -/
  close : ∀ d, p.nextDelay? n = some d →
    d.nanos ≤ p.maxDelay.nanos + (p.maxDelay.nanos + 2 ^ 51) / 2 ^ 52

/-- Every wait of a valid policy keeps to its cap, but for what the ceiling as a float is
above the ceiling. -/
theorem waits_keep_to_caps {c : TaskConfig} (valid : c.validate = .ok ()) (n : UInt32) :
    c.retry.Bounded n := by
  have waits := waits_of_valid (TaskConfig.validate_eq_ok_iff.1 valid) n
  constructor
  · intro wait
    refine ⟨_, rfl, ?_⟩
    rw [Duration.nanos_min]
    exact Nat.min_le_right ..
  · rfl
  · intro steady
    generalize c.retry.nextDelay? n = wait at waits
    cases waits with
    | steady => rfl
    | cutOff grows => exact absurd grows steady
    | computed grows => exact absurd grows steady
  · intro short d next
    exact le_of_short (next ▸ waits) short
  · intro grid d next
    exact le_of_exact (next ▸ waits) grid
  · intro d next
    exact le_of_close (next ▸ waits)

/-- A task that is asked to wait for an hour. -/
theorem caps_of_doubling :
    doubling.Bounded 40 ∧ doubling.rateLimitedDelay? (some (.ofMillis 3600000)) 40 =
      some (.ofMillis 60000) :=
  ⟨waits_keep_to_caps (c := guestWith doubling) rfl 40, by decide +kernel⟩

/-- With waits that double, the second wait is twice the delay, as far as the ceiling lets it. -/
theorem nextDelay?_second (double : p.multiplier = 2.0) :
    p.nextDelay? 2 =
      (let secs := p.delay.toSeconds * 2.0
      if !secs.isFinite || secs < 0.0 || p.maxDelay.toSeconds < secs then some p.maxDelay
      else Duration.ofSeconds? secs) := by
  have one : exponent 2 = 1 := rfl
  have once : power 1.0 2.0 1 = 2.0 := by
    rw [power]
    rfl
  have grows : ((exponent 2 = 0 : Bool) || (2.0 : Float) == 1.0) = false := rfl
  rw [nextDelay?, double, grows, one, once]
  rfl

/-- A ceiling that is worth no float, and a delay that is half of what the ceiling is as a
float. -/
def fine : RetryPolicy :=
  { doubling with
    delay := ⟨4194304000000001, by decide⟩
    maxDelay := ⟨8388608000000001, by decide⟩ }

/-- The second wait is a nanosecond above the ceiling. -/
theorem wait_above_the_ceiling :
    (guestWith fine).validate = .ok () ∧
      fine.nextDelay? 2 = some ⟨8388608000000002, by decide⟩ ∧
      fine.maxDelay.nanos < 8388608000000002 := by
  refine ⟨rfl, ?_, by decide⟩
  rw [nextDelay?_second rfl]
  decide +kernel

end RetryPolicy

end Restock
