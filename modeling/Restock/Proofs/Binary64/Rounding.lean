import Mathlib
import Restock.Proofs.Binary64.Nearest

/-! The rounding of mantissas.

An exact number is kept as a mantissa with two residual bits, which say where between two
mantissas it stands (`Stands`). Shifting digits out of the mantissa keeps that
(`Stands.shiftRight`), and rounding it gives a whole number within a half
(`Stands.rounded`). So what comes out is the nearest float, in the one form in which floats
are packed (`Canonical`): for a mantissa with all the digits that it may have
(`canonical_of_stands`), and for any mantissa that is exact (`canonical_normalize`). -/
namespace Restock.Binary64

open Float.Model
open Float.Model.UnpackedFloat hiding round unpack pack

/-! ### Mantissas with residual bits -/

/-- The number that a mantissa and its residual bits stand for. -/
def Stands (em : ExtendedMantissa) (x : ℚ) : Prop :=
  match em.roundBit, em.stickyBit with
  | false, false => x = em.mantissa
  | false, true => em.mantissa < x ∧ x < em.mantissa + 1 / 2
  | true, false => x = em.mantissa + 1 / 2
  | true, true => em.mantissa + 1 / 2 < x ∧ x < em.mantissa + 1

theorem stands_exact (m : ℕ) : Stands (.ofMantissaAndAccuracy m .exact) m := rfl

section
variable {em : ExtendedMantissa} {x : ℚ}

theorem Stands.bounds (h : Stands em x) : em.mantissa ≤ x ∧ x < em.mantissa + 1 := by
  obtain ⟨m, r, s⟩ := em
  cases r <;> cases s <;> simp only [Stands] at h <;> constructor <;> linarith

theorem Stands.rounded (h : Stands em x) : |(em.roundedMantissa : ℚ) - x| ≤ 1 / 2 := by
  obtain ⟨m, r, s⟩ := em
  rw [abs_le]
  have parity : ((m % 2 : ℕ) : ℚ) = 0 ∨ ((m % 2 : ℕ) : ℚ) = 1 := by
    rcases Nat.mod_two_eq_zero_or_one m with even | odd
    · exact .inl (by rw [even, Nat.cast_zero])
    · exact .inr (by rw [odd, Nat.cast_one])
  cases r <;> cases s <;>
    simp only [Stands, ExtendedMantissa.roundedMantissa, ExtendedMantissa.accuracy,
      Accuracy.roundToNearestEven, Nat.cast_add, Nat.cast_one] at h ⊢
  · constructor <;> linarith
  · constructor <;> linarith
  · rcases parity with even | odd <;> constructor <;> linarith
  · constructor <;> linarith

theorem Stands.shiftRightOne (h : Stands em x) : Stands em.shiftRightOne (x / 2) := by
  obtain ⟨m, r, s⟩ := em
  have split : ((m % 2 : ℕ) : ℚ) + 2 * ((m / 2 : ℕ) : ℚ) = m := by
    exact_mod_cast Nat.mod_add_div m 2
  rcases Nat.mod_two_eq_zero_or_one m with even | odd
  · rw [even, Nat.cast_zero] at split
    cases r <;> cases s <;> simp [Stands, ExtendedMantissa.shiftRightOne, even] at h ⊢ <;>
      first | linarith | constructor <;> linarith
  · rw [odd, Nat.cast_one] at split
    cases r <;> cases s <;> simp [Stands, ExtendedMantissa.shiftRightOne, odd] at h ⊢ <;>
      first | linarith | constructor <;> linarith

theorem Stands.shiftRight (h : Stands em x) (k : ℕ) : Stands (em >>> k) (x / 2 ^ k) := by
  show Stands (k.repeat ExtendedMantissa.shiftRightOne em) _
  induction k with
  | zero => simpa [Nat.repeat] using h
  | succ k ih =>
    rw [pow_succ, ← div_div]
    exact ih.shiftRightOne

end

/-! ### Rounding -/

/-- A float in the one form in which it is packed, with what it is worth. -/
inductive Canonical : UnpackedFloat → ℚ → Prop
  | zero : Canonical (.zero .positive) 0
  | finite {m : ℕ} {e : ℤ} (pos : 0 < m) (small : m < 2 ^ 53) (low : -1074 ≤ e)
      (normal : 2 ^ 52 ≤ m ∨ e = -1074) : Canonical (.finite .positive m e pos) (m * 2 ^ e)

theorem Canonical.grid {f : UnpackedFloat} {q : ℚ} (h : Canonical f q) : Grid q := by
  cases h with
  | zero => exact Nearest.zero.grid
  | finite _ small low => exact ⟨_, _, small.le, low, rfl⟩

theorem Canonical.isFinite {f : UnpackedFloat} {q : ℚ} (h : Canonical f q) : f.isFinite = true := by
  cases h <;> rfl

/-- A float that is not tiny has all the digits that a float may have. -/
theorem Canonical.normal {f : UnpackedFloat} {q : ℚ} (h : Canonical f q)
    (large : 2 ^ (-1021 : ℤ) ≤ q) :
    ∃ (m : ℕ) (e : ℤ), m < 2 ^ 53 ∧ -1074 ≤ e ∧ 2 ^ 52 ≤ m ∧ q = m * 2 ^ e := by
  cases h with
  | zero => exact absurd large (not_le.2 (two_zpow_pos _))
  | @finite m e pos small low normal =>
    refine ⟨m, e, small, low, normal.resolve_right ?_, rfl⟩
    rintro rfl
    have few : (m : ℚ) < 2 ^ (53 : ℤ) := by exact_mod_cast small
    have tiny : (m : ℚ) * 2 ^ (-1074 : ℤ) < 2 ^ (53 + -1074 : ℤ) := by
      rw [zpow_add₀ two_ne_zero]
      exact mul_lt_mul_of_pos_right few (two_zpow_pos _)
    exact absurd large (not_le.2 tiny)

theorem target_eq (m : ℕ) (e : ℤ) :
    Format.binary64.targetExponent (totalExponent m e) = max (m.log2 + 1 + e - 53) (-1074) := rfl

theorem shiftToTarget_of_le {m : ℕ} {e : ℤ} (coarse : m.log2 + 1 + e - 53 ≤ e) (low : -1074 ≤ e) :
    shiftToTargetExponent .binary64 m e .exact = (⟨m, false, false⟩, e) := by
  have still : (max (m.log2 + 1 + e - 53) (-1074) - e).toNat = 0 := by omega
  rw [shiftToTargetExponent, target_eq, shiftToExponent, still]
  simp [HShiftRight.hShiftRight, Nat.repeat, ExtendedMantissa.ofMantissaAndAccuracy]

/-- A mantissa that was rounded up to a power of two is one digit too long. -/
theorem shiftToTarget_of_carry {e : ℤ} (low : -1074 ≤ e) :
    shiftToTargetExponent .binary64 (2 ^ 53) e .exact = (⟨2 ^ 52, false, false⟩, e + 1) := by
  have one : (max (((2 ^ 53 : ℕ).log2 : ℤ) + 1 + e - 53) (-1074) - e).toNat = 1 := by
    rw [Nat.log2_two_pow]
    omega
  rw [shiftToTargetExponent, target_eq, shiftToExponent, one]
  rfl

theorem canonical_of_carry {n : ℕ} {t : ℤ} {a : ExtendedMantissa × ℤ} (small : n ≤ 2 ^ 53)
    (low : -1074 ≤ t) (normal : 2 ^ 52 ≤ n ∨ t = -1074)
    (shifted : shiftToTargetExponent .binary64 n t .exact = a) :
    Canonical (if h : a.1.mantissa = 0 then .zero .positive
      else .finite .positive a.1.mantissa a.2 (Nat.pos_of_ne_zero h)) (n * 2 ^ t) := by
  rcases small.lt_or_eq with lt | rfl
  · have digits : n.log2 < 53 := by
      by_cases zero : n = 0
      · rw [zero, Nat.log2_zero]
        decide
      · exact (Nat.log2_lt zero).2 lt
    rw [shiftToTarget_of_le (by omega) low] at shifted
    subst shifted
    split
    · next zero =>
      rw [show n = 0 from zero, Nat.cast_zero, zero_mul]
      exact .zero
    · exact .finite _ lt low normal
  · rw [shiftToTarget_of_carry low] at shifted
    subst shifted
    have worth : ((2 ^ 53 : ℕ) : ℚ) * 2 ^ t = ((2 ^ 52 : ℕ) : ℚ) * 2 ^ (t + 1) := by
      rw [two_zpow_succ]
      push_cast
      ring
    rw [worth]
    exact .finite (m := 2 ^ 52) (by decide) (by decide) (by omega) (.inl le_rfl)

/-- The digits that a float has no room for are shifted into the residual bits. -/
theorem shiftToTarget_of_stands {m : ℕ} {e : ℤ} {a : Accuracy} {x : ℚ}
    (h : Stands (.ofMantissaAndAccuracy m a) x) (fine : 52 ≤ m.log2 ∨ e ≤ -1074) :
    ∃ em t y, shiftToTargetExponent .binary64 m e a = (em, t) ∧ Stands em y ∧
      x * 2 ^ e = y * 2 ^ t ∧ -1074 ≤ t ∧ y < 2 ^ 53 ∧ (t = -1074 ∨ 2 ^ 52 ≤ y) := by
  have mantissa : (ExtendedMantissa.ofMantissaAndAccuracy m a).mantissa = m := by
    rcases a with - | o
    · rfl
    · cases o <;> rfl
  obtain ⟨t, target⟩ : ∃ t, t = max ((m.log2 : ℤ) + 1 + e - 53) (-1074) := ⟨_, rfl⟩
  obtain ⟨k, moved⟩ := Int.eq_ofNat_of_zero_le (show 0 ≤ t - e by omega)
  have below : x < 2 ^ (m.log2 + 1) := calc
    x < m + 1 := mantissa ▸ h.bounds.2
    _ ≤ 2 ^ (m.log2 + 1) := by exact_mod_cast Nat.lt_log2_self
  have step : (0 : ℚ) < 2 ^ k := by positivity
  refine ⟨_, t, _, ?_, h.shiftRight k, ?_, by omega, ?_, ?_⟩
  · rw [shiftToTargetExponent, target_eq, ← target, shiftToExponent, moved, Int.toNat_natCast,
      show e + k = t by omega]
  · rw [show t = e + k by omega, zpow_add₀ two_ne_zero, zpow_natCast]
    field_simp
  · rw [div_lt_iff₀ step, ← pow_add]
    exact below.trans_le (pow_le_pow_right₀ one_le_two (by omega))
  · by_cases least : t = -1074
    · exact .inl least
    · have some : m ≠ 0 := by
        rintro rfl
        rw [Nat.log2_zero] at target fine
        omega
      have above : (2 : ℚ) ^ m.log2 ≤ x := calc
        (2 : ℚ) ^ m.log2 ≤ m := by exact_mod_cast Nat.log2_self_le some
        _ ≤ x := mantissa ▸ h.bounds.1
      rw [le_div_iff₀ step, ← pow_add, show 52 + k = m.log2 by omega]
      exact .inr above

/-- Rounding a mantissa that has all the digits it may have, or more. -/
theorem canonical_of_stands {m : ℕ} {e : ℤ} {a : Accuracy} {x : ℚ}
    (h : Stands (.ofMantissaAndAccuracy m a) x) (fine : 52 ≤ m.log2 ∨ e ≤ -1074) :
    ∃ r, Nearest (x * 2 ^ e) r ∧ Canonical (roundWithAccuracy .binary64 .positive m e a) r := by
  obtain ⟨em, t, y, shifted, stands, same, low, small, far⟩ := shiftToTarget_of_stands h fine
  have half := stands.rounded
  have few : em.roundedMantissa ≤ 2 ^ 53 := le_of_half half (by exact_mod_cast small.le)
  have many : 2 ^ 52 ≤ em.roundedMantissa ∨ t = -1074 :=
    far.symm.imp_left fun far => ge_of_half half (by exact_mod_cast far)
  refine ⟨_, same ▸ nearest_of_half half low small far, ?_⟩
  rw [roundWithAccuracy, shifted]
  exact canonical_of_carry few low many rfl

/-! ### Mantissas that lack digits -/

theorem log2_shiftLeft {m : ℕ} (pos : m ≠ 0) (k : ℕ) : (m <<< k).log2 = m.log2 + k := by
  induction k with
  | zero => rfl
  | succ k ih =>
    have some : m <<< k ≠ 0 := by
      rw [Nat.shiftLeft_eq]
      exact Nat.mul_ne_zero pos (Nat.two_pow_pos k).ne'
    rw [Nat.shiftLeft_succ, Nat.log2_two_mul some, ih, Nat.add_assoc]

theorem worth_shiftLeft (m : ℕ) (e : ℤ) (k : ℕ) :
    ((m <<< k : ℕ) : ℚ) * 2 ^ (e - k) = m * 2 ^ e := by
  rw [Nat.shiftLeft_eq, Nat.cast_mul, Nat.cast_pow, Nat.cast_ofNat, ← zpow_natCast, mul_assoc,
    ← zpow_add₀ two_ne_zero, show (k : ℤ) + (e - k) = e by omega]

/-- Rounding a mantissa that may lack digits. -/
theorem canonical_round (m : ℕ) (e : ℤ) (pos : m ≠ 0) :
    ∃ r, Nearest (m * 2 ^ e) r ∧ Canonical (UnpackedFloat.round .binary64 .positive m e) r := by
  obtain ⟨k, shift⟩ : ∃ k, k = (e - max ((m.log2 : ℤ) + 1 + e - 53) (-1074)).toNat := ⟨_, rfl⟩
  have fine : 52 ≤ (m <<< k).log2 ∨ e - k ≤ -1074 := by
    rw [log2_shiftLeft pos]
    omega
  obtain ⟨r, nearest, canonical⟩ := canonical_of_stands (stands_exact _) fine
  refine ⟨r, worth_shiftLeft m e k ▸ nearest, ?_⟩
  rw [UnpackedFloat.round, target_eq, decreaseExponent, ← shift]
  exact canonical

theorem canonical_normalize (m : ℕ) (e : ℤ) :
    ∃ r, Nearest (m * 2 ^ e) r ∧ Canonical (UnpackedFloat.normalize .binary64 m e .positive) r := by
  rcases Nat.eq_zero_or_pos m with rfl | pos
  · refine ⟨0, ?_, .zero⟩
    rw [Nat.cast_zero, zero_mul]
    exact .zero
  · have compare : compare (m : ℤ) 0 = .gt := Int.compare_eq_gt.2 (by omega)
    rw [UnpackedFloat.normalize, compare]
    exact canonical_round m e pos.ne'

end Restock.Binary64
