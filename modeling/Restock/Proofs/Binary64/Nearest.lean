import Mathlib.Algebra.Order.Archimedean.Basic
import Mathlib.Algebra.Order.Field.Power
import Mathlib.Algebra.Order.Round
import Mathlib.Data.Rat.Floor
import Mathlib.Tactic.FieldSimp
import Mathlib.Tactic.Linarith
import Mathlib.Tactic.NormNum
import Mathlib.Tactic.Positivity

/-! Rounding to the nearest number that a float can hold.

The magnitudes of floats form a grid (`Grid`); that there is a largest float is left out of
it. A number is rounded to the point of the grid that is closest to it (`Nearest`). All that
is used of rounding follows from this: it never passes a point of the grid
(`Nearest.le_of_le`), it leaves the points of the grid alone (`Nearest.eq`), and it is off by
half a step at most (`Nearest.error`). To round is to round to a whole number of steps
(`nearest_of_half`), because above `2 ^ 52` steps the grid has no other points
(`Grid.multiple`). -/
namespace Restock.Binary64

/-- A magnitude with at most 53 binary digits, none of them below `2 ^ -1074`. -/
def Grid (z : ℚ) : Prop := ∃ (m : ℕ) (e : ℤ), m ≤ 2 ^ 53 ∧ -1074 ≤ e ∧ z = m * 2 ^ e

theorem two_zpow_pos (t : ℤ) : (0 : ℚ) < 2 ^ t := by positivity

theorem two_zpow_succ (t : ℤ) : (2 : ℚ) ^ (t + 1) = 2 ^ t * 2 := zpow_add_one₀ two_ne_zero t

theorem two_zpow_le {s t : ℤ} (le : s ≤ t) : (2 : ℚ) ^ s ≤ 2 ^ t :=
  zpow_le_zpow_right₀ one_le_two le

/-- The mantissas of a step reach to `2 ^ 52` of any greater step. -/
theorem mul_two_zpow_le {m : ℕ} {e t : ℤ} (small : m ≤ 2 ^ 53) (lt : e < t) :
    (m : ℚ) * 2 ^ e ≤ 2 ^ 52 * 2 ^ t := by
  have few : (m : ℚ) ≤ 2 ^ 53 := by exact_mod_cast small
  calc (m : ℚ) * 2 ^ e ≤ 2 ^ 53 * 2 ^ e := mul_le_mul_of_nonneg_right few (two_zpow_pos e).le
    _ = 2 ^ 52 * 2 ^ (e + 1) := by
      rw [two_zpow_succ]
      ring
    _ ≤ 2 ^ 52 * 2 ^ t := mul_le_mul_of_nonneg_left (two_zpow_le lt) (by positivity)

theorem grid_of_le {n : ℕ} (small : n ≤ 2 ^ 53) : Grid n :=
  ⟨n, 0, small, by decide, by simp⟩

theorem grid_two_zpow {t : ℤ} (low : -1074 ≤ t) : Grid (2 ^ t) :=
  ⟨1, t, by decide, low, by simp⟩

theorem Grid.nonneg {z : ℚ} (h : Grid z) : 0 ≤ z := by
  obtain ⟨m, e, -, -, rfl⟩ := h
  positivity

/-- From `2 ^ 52` steps on, the points of the grid are whole numbers of steps. -/
theorem Grid.multiple {z : ℚ} {t : ℤ} (h : Grid z) (far : t = -1074 ∨ 2 ^ 52 * 2 ^ t ≤ z) :
    ∃ k : ℕ, z = k * 2 ^ t := by
  obtain ⟨m, e, small, low, rfl⟩ := h
  rcases le_or_gt t e with le | lt
  · refine ⟨m * 2 ^ (e - t).toNat, ?_⟩
    rw [Nat.cast_mul, Nat.cast_pow, ← zpow_natCast, Int.toNat_of_nonneg (by omega), mul_assoc,
      Nat.cast_ofNat, ← zpow_add₀ two_ne_zero, Int.sub_add_cancel]
  · have far : (2 : ℚ) ^ 52 * 2 ^ t ≤ m * 2 ^ e := far.resolve_left (by omega)
    have near := mul_two_zpow_le small lt
    exact ⟨2 ^ 52, by push_cast; linarith⟩

/-- There, any two points of the grid are a step apart at least. -/
theorem Grid.next_le {y z : ℚ} {t : ℤ} (hz : Grid z) (hy : Grid y) (far : 2 ^ 52 * 2 ^ t ≤ z)
    (lt : z < y) : z + 2 ^ t ≤ y := by
  obtain ⟨i, rfl⟩ := hz.multiple (.inr far)
  obtain ⟨j, rfl⟩ := hy.multiple (.inr (far.trans lt.le))
  have less : (i : ℚ) < j := lt_of_mul_lt_mul_right lt (two_zpow_pos t).le
  have less : (i + 1 : ℚ) ≤ j := by exact_mod_cast less
  rw [← add_one_mul]
  exact mul_le_mul_of_nonneg_right less (two_zpow_pos t).le

/-- Not far above any number there is a point of the grid. -/
theorem exists_grid_ge {q : ℚ} (normal : 2 ^ (-1022 : ℤ) ≤ q) :
    ∃ z, Grid z ∧ q ≤ z ∧ z ≤ q * (1 + 2 ^ (-52 : ℤ)) := by
  have pos : 0 < q := (two_zpow_pos _).trans_le normal
  obtain ⟨n, low, high⟩ := exists_mem_Ico_zpow pos (one_lt_two (α := ℚ))
  have exponent : (-1022 : ℤ) < n + 1 :=
    (zpow_lt_zpow_iff_right₀ one_lt_two).1 (normal.trans_lt high)
  -- Of the step that `q` has, `q` is at most `2 ^ 53`.
  obtain ⟨t, rfl⟩ : ∃ t, n = t + 52 := ⟨n - 52, by omega⟩
  have step := two_zpow_pos t
  have few : q / 2 ^ t ≤ (2 ^ 53 : ℕ) := by
    rw [div_le_iff₀ step, Nat.cast_pow, Nat.cast_ofNat, ← zpow_natCast, ← zpow_add₀ two_ne_zero]
    exact (high.trans_le (two_zpow_le (by norm_num; omega))).le
  have small : (2 : ℚ) ^ t ≤ q * 2 ^ (-52 : ℤ) := by
    calc (2 : ℚ) ^ t = 2 ^ (t + 52) * 2 ^ (-52 : ℤ) := by
          rw [← zpow_add₀ two_ne_zero, Int.add_neg_cancel_right]
      _ ≤ q * 2 ^ (-52 : ℤ) := mul_le_mul_of_nonneg_right low (two_zpow_pos _).le
  refine ⟨⌈q / 2 ^ t⌉₊ * 2 ^ t, ⟨_, t, Nat.ceil_le.2 few, by omega, rfl⟩, ?_, ?_⟩
  · exact (div_le_iff₀ step).1 (Nat.le_ceil _)
  · have next := (Nat.ceil_lt_add_one (div_nonneg pos.le step.le)).le
    calc (⌈q / 2 ^ t⌉₊ : ℚ) * 2 ^ t ≤ (q / 2 ^ t + 1) * 2 ^ t :=
          mul_le_mul_of_nonneg_right next step.le
      _ = q + 2 ^ t := by rw [add_mul, div_mul_cancel₀ _ step.ne', one_mul]
      _ ≤ q * (1 + 2 ^ (-52 : ℤ)) := by linarith

/-! ### Whole numbers within a half -/

section
variable {x : ℚ} {n b : ℕ}

theorem le_of_half (half : |(n : ℚ) - x| ≤ 1 / 2) (le : x ≤ b) : n ≤ b := by
  have less : (n : ℚ) < b + 1 := by linarith [(abs_le.1 half).2]
  exact Nat.lt_succ_iff.1 (by exact_mod_cast less)

theorem ge_of_half (half : |(n : ℚ) - x| ≤ 1 / 2) (ge : b ≤ x) : b ≤ n := by
  have less : (b : ℚ) < n + 1 := by linarith [(abs_le.1 half).1]
  exact Nat.lt_succ_iff.1 (by exact_mod_cast less)

/-- A whole number within a half is as close as any other. -/
theorem abs_le_of_half (half : |(n : ℚ) - x| ≤ 1 / 2) : |(n : ℚ) - x| ≤ |b - x| := by
  rcases eq_or_ne b n with rfl | apart
  · exact le_rfl
  · have far : (1 : ℚ) ≤ |(b : ℚ) - n| := by
      have := Int.one_le_abs (sub_ne_zero.2 (Int.ofNat_inj.ne.2 apart))
      exact_mod_cast this
    have := abs_sub_le (b : ℚ) x n
    rw [abs_sub_comm x] at this
    linarith

end

/-! ### Rounding -/

/-- A point of the grid that no other point is closer than. -/
structure Nearest (x r : ℚ) : Prop where
  grid : Grid r
  closest : ∀ z, Grid z → |r - x| ≤ |z - x|

namespace Nearest

variable {x r z : ℚ}

theorem le_of_le (h : Nearest x r) (grid : Grid z) (le : z ≤ x) : z ≤ r := by
  by_contra lt
  have closest := h.closest z grid
  rw [abs_of_nonpos (by linarith), abs_of_nonpos (by linarith)] at closest
  linarith

theorem le_of_ge (h : Nearest x r) (grid : Grid z) (ge : x ≤ z) : r ≤ z := by
  by_contra lt
  have closest := h.closest z grid
  rw [abs_of_nonneg (by linarith), abs_of_nonneg (by linarith)] at closest
  linarith

theorem of_grid (grid : Grid x) : Nearest x x := ⟨grid, fun z _ => by simp⟩

theorem zero : Nearest 0 0 := .of_grid (grid_of_le (n := 0) (Nat.zero_le _))

theorem eq (h : Nearest x r) (grid : Grid x) : r = x :=
  le_antisymm (h.le_of_ge grid le_rfl) (h.le_of_le grid le_rfl)

/-- What is less than half a step above a point of the grid is not rounded up from it, -/
theorem le_of_near {t : ℤ} (h : Nearest x r) (grid : Grid z) (far : 2 ^ 52 * 2 ^ t ≤ z)
    (near : x < z + 2 ^ t / 2) : r ≤ z := by
  by_contra above
  have step := two_zpow_pos t
  have next := grid.next_le h.grid far (not_le.1 above)
  have closest := h.closest z grid
  rw [abs_of_pos (by linarith), le_abs] at closest
  rcases closest with closest | closest <;> linarith

/-- and what is less than half a step below it is not rounded down from it. -/
theorem ge_of_near {t : ℤ} (h : Nearest x r) (grid : Grid z) (far : 2 ^ 52 * 2 ^ t ≤ r)
    (near : z - 2 ^ t / 2 < x) : z ≤ r := by
  by_contra below
  have step := two_zpow_pos t
  have next := h.grid.next_le grid far (not_le.1 below)
  have closest := h.closest z grid
  rw [abs_of_neg (by linarith), le_abs] at closest
  rcases closest with closest | closest <;> linarith

/-- A number of at most `2 ^ 53` steps is rounded by half a step at most. -/
theorem error {t : ℤ} (h : Nearest x r) (low : -1074 ≤ t) (nonneg : 0 ≤ x)
    (small : x ≤ 2 ^ 53 * 2 ^ t) : |r - x| ≤ 2 ^ t / 2 := by
  have step := two_zpow_pos t
  have few : x / 2 ^ t ≤ 2 ^ 53 := (div_le_iff₀ step).2 small
  have whole : |x / 2 ^ t - round (x / 2 ^ t)| ≤ 1 / 2 := abs_sub_round _
  have positive : 0 ≤ round (x / 2 ^ t) := by
    rw [round_eq]
    exact Int.floor_nonneg.2 (by positivity)
  obtain ⟨n, round⟩ := Int.eq_ofNat_of_zero_le positive
  rw [round, Int.cast_natCast, abs_sub_comm] at whole
  have grid : Grid (n * 2 ^ t) := ⟨n, t, le_of_half whole (by exact_mod_cast few), low, rfl⟩
  calc |r - x| ≤ |n * 2 ^ t - x| := h.closest _ grid
    _ = |n - x / 2 ^ t| * 2 ^ t := by
      rw [← abs_of_pos step, ← abs_mul, abs_of_pos step, sub_mul, div_mul_cancel₀ _ step.ne']
    _ ≤ 1 / 2 * 2 ^ t := mul_le_mul_of_nonneg_right whole step.le
    _ = 2 ^ t / 2 := by ring

end Nearest

/-- To round is to round to a whole number of steps, of which there are between `2 ^ 52` and
`2 ^ 53`, or as many as there may be of the smallest. -/
theorem nearest_of_half {x : ℚ} {n : ℕ} {t : ℤ} (half : |(n : ℚ) - x| ≤ 1 / 2)
    (low : -1074 ≤ t) (small : x < 2 ^ 53) (far : t = -1074 ∨ 2 ^ 52 ≤ x) :
    Nearest (x * 2 ^ t) (n * 2 ^ t) := by
  have step := two_zpow_pos t
  have scaled : ∀ k : ℚ, |k * 2 ^ t - x * 2 ^ t| = |k - x| * 2 ^ t := fun k => by
    rw [← sub_mul, abs_mul, abs_of_pos step]
  constructor
  · exact ⟨n, t, le_of_half half (by exact_mod_cast small.le), low, rfl⟩
  · intro z grid
    rw [scaled]
    by_cases inside : t = -1074 ∨ 2 ^ 52 * 2 ^ t ≤ z
    · obtain ⟨k, rfl⟩ := grid.multiple inside
      rw [scaled]
      exact mul_le_mul_of_nonneg_right (abs_le_of_half half) step.le
    · -- What is finer than a step lies below `2 ^ 52` steps, which are closer.
      rw [not_or, not_le] at inside
      have above : (2 : ℚ) ^ 52 ≤ x := far.resolve_left inside.1
      have closer := abs_le_of_half (b := 2 ^ 52) half
      rw [abs_of_nonpos (show ((2 ^ 52 : ℕ) : ℚ) - x ≤ 0 by push_cast; linarith)] at closer
      push_cast at closer
      have closer := mul_le_mul_of_nonneg_right closer step.le
      exact le_trans (by linarith [inside.2]) (neg_le_abs (z - x * 2 ^ t))

end Restock.Binary64
