import Restock.Duration
import Restock.Proofs.Binary64.Arithmetic

/-! Durations as floats.

A duration becomes a float in two parts, each of them rounded, whose sum is rounded again.
The result is still not below any float that the duration is not below (`worth_toSeconds`):
above `2 ^ 53` seconds all floats are whole numbers, and below the part of a second is off
by far less than a sum has to be to be rounded the wrong way (`le_of_parts`). So a duration
that is stretched by any factor above one comes back as one that is no shorter
(`exact_le_of_stretched`, `nanos_le_of_ofSeconds?`). Nor is it above any float that the
duration is not above (`toSeconds_le`), but it may be above the duration: by less than half a
nanosecond if there are few seconds (`toSeconds_near`), and so far that it is no duration any
more only next to the limit of durations (`secs_of_large`). -/
namespace Restock.Duration

open Binary64
open Decimal (Binary)

/-- A duration in seconds, exactly. -/
def exact (d : Duration) : ℚ := d.nanos / nanosPerSecond

/-- Whole seconds and a part of one, each rounded, and their sum rounded again: this is not
below any float that the exact sum is not below. -/
theorem le_of_parts {s : ℕ} {b A B x z : ℚ} (hA : Nearest s A) (hB : Nearest b B)
    (hx : Nearest (A + B) x) (nonneg : 0 ≤ b) (part : b < 1) (grid : Grid z) (le : z ≤ s + b) :
    z ≤ x := by
  have unsigned := hB.grid.nonneg
  rcases le_or_gt z s with whole | more
  · have := hA.le_of_le grid whole
    exact hx.le_of_le grid (by linarith)
  rcases Nat.eq_zero_or_pos s with rfl | pos
  · have none : A = 0 := by simpa using hA.eq (grid_of_le (Nat.zero_le _))
    have := hB.le_of_le grid (by simpa using le)
    exact hx.le_of_le grid (by linarith)
  have pos : (1 : ℚ) ≤ s := by exact_mod_cast pos
  rcases lt_or_ge s (2 ^ 53) with small | large
  · obtain rfl : A = s := hA.eq (grid_of_le small.le)
    have error := hB.error (t := -53) (by decide) nonneg (by norm_num; linarith)
    have one : 1 ≤ x := by
      simpa using hx.le_of_le (grid_of_le (n := 1) (by decide)) (by push_cast; linarith)
    refine hx.ge_of_near (t := -52) grid (by norm_num; linarith) ?_
    rw [show (-52 : ℤ) = -53 + 1 from rfl, two_zpow_succ]
    linarith [(abs_le.1 error).1, two_zpow_pos (-53)]
  · -- Floats that large are whole numbers, and there is none between the two.
    have large : (2 : ℚ) ^ 53 ≤ s := by exact_mod_cast large
    obtain ⟨k, rfl⟩ := grid.multiple (t := 0) (.inr (by norm_num; linarith))
    rw [zpow_zero, mul_one] at le more
    have above : s + 1 ≤ k := by exact_mod_cast more
    have : (s : ℚ) + 1 ≤ k := by exact_mod_cast above
    linarith

/-- Nor is it above any float that the exact sum is not above, if the part of a second ends
before the last float in it. -/
theorem ge_of_parts {s : ℕ} {b A B x z : ℚ} (hA : Nearest s A) (hB : Nearest b B)
    (hx : Nearest (A + B) x) (nonneg : 0 ≤ b) (part : b ≤ 1 - 2 ^ (-53 : ℤ)) (grid : Grid z)
    (le : s + b ≤ z) : x ≤ z := by
  have last : Grid (1 - 2 ^ (-53 : ℤ)) := ⟨2 ^ 53 - 1, -53, by decide, by decide, by norm_num⟩
  have less : B ≤ 1 - 2 ^ (-53 : ℤ) := hB.le_of_ge last part
  have unit := two_zpow_pos (-53)
  rcases Nat.eq_zero_or_pos s with rfl | pos
  · have none : A = 0 := by simpa using hA.eq (grid_of_le (Nat.zero_le _))
    have := hB.le_of_ge grid (by simpa using le)
    exact hx.le_of_ge grid (by linarith)
  have pos : (1 : ℚ) ≤ s := by exact_mod_cast pos
  rcases lt_or_ge s (2 ^ 53) with small | large
  · obtain rfl : A = s := hA.eq (grid_of_le small.le)
    have error := hB.error (t := -53) (by decide) nonneg (by norm_num; linarith)
    refine hx.le_of_near (t := -52) grid (by norm_num; linarith) ?_
    rw [show (-52 : ℤ) = -53 + 1 from rfl, two_zpow_succ]
    linarith [(abs_le.1 error).2]
  · -- Floats that large are even numbers.
    have large : (2 : ℚ) ^ 53 ≤ s := by exact_mod_cast large
    have whole : A ≤ z := hA.le_of_ge grid (by linarith)
    refine hx.le_of_near (t := 1) grid (by norm_num; linarith) ?_
    norm_num
    linarith

theorem worth_billion : Worth 1e9 nanosPerSecond := by
  have worth : Worth 1e9 ((8388608000000000 : ℕ) * 2 ^ (-23 : ℤ)) :=
    .finite (m := 8388608000000000) (by decide) (by decide) (by decide) (.inl (by decide))
  have same : ((8388608000000000 : ℕ) : ℚ) * 2 ^ (-23 : ℤ) = nanosPerSecond := by
    norm_num [nanosPerSecond]
  rwa [same] at worth

theorem nanosPerSecond_pos : (0 : ℚ) < nanosPerSecond := by norm_num [nanosPerSecond]

theorem exact_mul (d : Duration) : d.exact * nanosPerSecond = d.nanos :=
  div_mul_cancel₀ _ nanosPerSecond_pos.ne'

theorem le_exact_of_pos {d : Duration} (pos : 0 < d.nanos) : 2 ^ (-30 : ℤ) ≤ d.exact := by
  have one : (1 : ℚ) ≤ d.nanos := by exact_mod_cast pos
  calc (2 : ℚ) ^ (-30 : ℤ) ≤ 1 / nanosPerSecond := by norm_num [nanosPerSecond]
    _ ≤ d.exact := div_le_div_of_nonneg_right one nanosPerSecond_pos.le

theorem exact_eq_parts (d : Duration) :
    d.exact = d.secs + d.subsecNanos / nanosPerSecond := by
  have parts : (d.nanos : ℚ) = nanosPerSecond * d.secs + d.subsecNanos := by
    exact_mod_cast (Nat.div_add_mod d.nanos nanosPerSecond).symm
  rw [exact, parts, add_div, mul_div_cancel_left₀ _ nanosPerSecond_pos.ne']

/-- A part of a second is rounded once, for as a number of nanoseconds it is exact. -/
theorem worth_part {n : ℕ} (part : n < nanosPerSecond) :
    ∃ B, Nearest (n / nanosPerSecond) B ∧ Worth (Float.ofNat n / 1e9) B := by
  have few : n ≤ 2 ^ 53 := part.le.trans (by decide)
  obtain ⟨N, hN, worth⟩ := (rounds_ofNat n).finite
    ((natCast_le (part.trans (by decide))).trans (two_zpow_le (by decide)))
  obtain rfl := hN.eq (grid_of_le few)
  have small : (n : ℚ) / nanosPerSecond ≤ 1 :=
    (div_le_one nanosPerSecond_pos).2 (by exact_mod_cast part.le)
  exact (worth.div worth_billion nanosPerSecond_pos.ne').finite
    (small.trans (one_le_zpow₀ one_le_two (by decide)))

theorem part_nonneg (d : Duration) : 0 ≤ (d.subsecNanos : ℚ) / nanosPerSecond :=
  div_nonneg (Nat.cast_nonneg _) nanosPerSecond_pos.le

/-- The last nanosecond of a second begins well below the last float in it. -/
theorem part_le (d : Duration) : (d.subsecNanos : ℚ) / nanosPerSecond ≤ 1 - 2 ^ (-53 : ℤ) := by
  have few : d.subsecNanos ≤ 999999999 := Nat.le_of_lt_succ (Nat.mod_lt _ (by decide))
  have few : (d.subsecNanos : ℚ) ≤ 999999999 := by exact_mod_cast few
  calc (d.subsecNanos : ℚ) / nanosPerSecond ≤ 999999999 / nanosPerSecond :=
        div_le_div_of_nonneg_right few nanosPerSecond_pos.le
    _ ≤ 1 - 2 ^ (-53 : ℤ) := by norm_num [nanosPerSecond]

theorem part_lt (d : Duration) : (d.subsecNanos : ℚ) / nanosPerSecond < 1 :=
  (part_le d).trans_lt (sub_lt_self 1 (two_zpow_pos _))

/-- A duration as a float is the rounded sum of its rounded parts. -/
theorem rounds_toSeconds (d : Duration) :
    ∃ A B x, Nearest d.secs A ∧ Nearest (d.subsecNanos / nanosPerSecond) B ∧ Nearest (A + B) x ∧
      Worth d.toSeconds x := by
  have secs : d.secs < 2 ^ 64 := Nat.div_lt_of_lt_mul (by rw [Nat.mul_comm]; exact d.inRange)
  obtain ⟨A, hA, worthA⟩ := (rounds_ofNat d.secs).finite
    ((natCast_le secs).trans (two_zpow_le (by decide)))
  obtain ⟨B, hB, worthB⟩ := worth_part (n := d.subsecNanos) (Nat.mod_lt _ (by decide))
  have left : A ≤ 2 ^ (64 : ℤ) := hA.le_of_ge (grid_two_zpow (by decide)) (natCast_le secs)
  have right : B ≤ 2 ^ (0 : ℤ) :=
    hB.le_of_ge (grid_two_zpow (by decide)) (by simpa using (part_lt d).le)
  have sum : A + B ≤ 2 ^ (1023 : ℤ) := calc
    A + B ≤ 2 ^ (64 : ℤ) + 2 ^ (64 : ℤ) := add_le_add left (right.trans (two_zpow_le (by decide)))
    _ = 2 ^ (64 + 1 : ℤ) := by rw [← mul_two, two_zpow_succ]
    _ ≤ 2 ^ (1023 : ℤ) := two_zpow_le (by decide)
  obtain ⟨x, hx, worth⟩ := (worthA.add worthB).finite sum
  exact ⟨A, B, x, hA, hB, hx, worth⟩

/-- A duration as a float is not below any float that the duration is not below. -/
theorem worth_toSeconds (d : Duration) :
    ∃ x, Worth d.toSeconds x ∧ ∀ z, Grid z → z ≤ d.exact → z ≤ x := by
  obtain ⟨A, B, x, hA, hB, hx, worth⟩ := rounds_toSeconds d
  refine ⟨x, worth, fun z grid le => ?_⟩
  rw [exact_eq_parts] at le
  exact le_of_parts hA hB hx (part_nonneg d) (part_lt d) grid le

/-- Nor is it above any float that the duration is not above. -/
theorem toSeconds_le {d : Duration} {x z : ℚ} (worth : Worth d.toSeconds x) (grid : Grid z)
    (le : d.exact ≤ z) : x ≤ z := by
  obtain ⟨A, B, y, hA, hB, hy, worth'⟩ := rounds_toSeconds d
  obtain rfl := worth.unique worth'
  rw [exact_eq_parts] at le
  exact ge_of_parts hA hB hy (part_nonneg d) (part_le d) grid le

/-- So it is off by the distance of two floats at most, -/
theorem toSeconds_close {d : Duration} {x : ℚ} (worth : Worth d.toSeconds x) :
    x ≤ d.exact * (1 + 2 ^ (-52 : ℤ)) := by
  by_cases none : d.nanos = 0
  · have zero : d.exact = 0 := by rw [exact, none, Nat.cast_zero, zero_div]
    rw [zero, zero_mul]
    exact toSeconds_le worth Nearest.zero.grid zero.le
  · have normal : (2 : ℚ) ^ (-1022 : ℤ) ≤ d.exact :=
      (two_zpow_le (by decide)).trans (le_exact_of_pos (Nat.pos_of_ne_zero none))
    obtain ⟨z, grid, above, close⟩ := exists_grid_ge normal
    exact (toSeconds_le worth grid above).trans close

/-- by less than half a nanosecond if there are few seconds, -/
theorem toSeconds_near {d : Duration} {x : ℚ} (worth : Worth d.toSeconds x)
    (short : d.secs < 2 ^ 23) : x ≤ d.exact + (2 ^ (-31 : ℤ) + 2 ^ (-54 : ℤ)) := by
  obtain ⟨A, B, y, hA, hB, hy, worth'⟩ := rounds_toSeconds d
  obtain rfl := worth.unique worth'
  obtain rfl : A = d.secs := hA.eq (grid_of_le (short.le.trans (by decide)))
  have unsigned := hB.grid.nonneg
  have secs : (d.secs : ℚ) + 1 ≤ 2 ^ 23 := by exact_mod_cast short
  have part := hB.error (t := -53) (by decide) (part_nonneg d) (by norm_num; linarith [part_lt d])
  have one : B ≤ 1 :=
    hB.le_of_ge (by simpa using grid_of_le (n := 1) (by decide)) (part_lt d).le
  have sum := hy.error (t := -30) (by decide) (by positivity) (by norm_num; linarith)
  rw [exact_eq_parts]
  norm_num at part sum ⊢
  linarith [(abs_le.1 part).2, (abs_le.1 sum).2]

/-- and it is less than the limit of durations unless it is next to it. -/
theorem secs_of_large {d : Duration} {x : ℚ} (worth : Worth d.toSeconds x) (large : 2 ^ 64 ≤ x) :
    2 ^ 64 - 1024 ≤ d.secs := by
  by_contra less
  obtain ⟨A, B, y, hA, hB, hy, worth'⟩ := rounds_toSeconds d
  obtain rfl := worth.unique worth'
  have less : d.secs + 1024 < 2 ^ 64 := by omega
  have less : (d.secs : ℚ) + 1024 < 2 ^ 64 := by exact_mod_cast less
  have one : B ≤ 1 :=
    hB.le_of_ge (by simpa using grid_of_le (n := 1) (by decide)) (part_lt d).le
  -- The last float before the limit; the two are 2048 apart.
  have grid : Grid (2 ^ 64 - 2048) := ⟨2 ^ 53 - 1, 11, by decide, by decide, by norm_num⟩
  have far : (2 : ℚ) ^ 52 * 2 ^ (11 : ℤ) ≤ 2 ^ 64 - 2048 := by norm_num
  have half : (2 : ℚ) ^ (11 : ℤ) / 2 = 1024 := by norm_num
  have left : A ≤ 2 ^ 64 - 2048 := hA.le_of_near grid far (by linarith)
  have sum : x ≤ 2 ^ 64 - 2048 := hy.le_of_near grid far (by linarith)
  linarith

/-- The least factor above one makes up for all that the conversion has rounded off. -/
theorem exact_le_of_stretched (d : Duration) (some : d.nanos ≠ 0) {y : Float}
    (stretched : AtLeast (1 + 2 ^ (-52 : ℤ)) y) : AtLeast d.exact (d.toSeconds * y) := by
  obtain ⟨x, worth, above⟩ := worth_toSeconds d
  have large : (2 : ℚ) ^ (-30 : ℤ) ≤ x :=
    above _ (grid_two_zpow (by decide)) (le_exact_of_pos (Nat.pos_of_ne_zero some))
  obtain ⟨m, e, small, low, many, rfl⟩ := worth.normal ((two_zpow_le (by decide)).trans large)
  refine (worth.atLeast_next small many low stretched).mono (le_of_not_gt fun below => ?_)
  have next := above _ ⟨m + 1, e, small, low, rfl⟩ below.le
  have step := two_zpow_pos e
  rw [Nat.cast_add, Nat.cast_one, add_mul] at next
  linarith

/-! ### Back from floats -/

theorem roundDiv_half (num : ℕ) {den : ℕ} (pos : 0 < den) :
    |(roundDiv num den : ℚ) - num / den| ≤ 1 / 2 := by
  have step : (0 : ℚ) < den := by exact_mod_cast pos
  have split : (num : ℚ) = (num / den : ℕ) * den + (num % den : ℕ) := by
    exact_mod_cast (Nat.div_add_mod' num den).symm
  have part : (num : ℚ) / den = (num / den : ℕ) + (num % den : ℕ) / den := by
    rw [← mul_div_cancel_right₀ ((num / den : ℕ) : ℚ) step.ne', ← add_div, ← split]
  have nonneg : (0 : ℚ) ≤ (num % den : ℕ) / den := by positivity
  have less : ((num % den : ℕ) : ℚ) / den < 1 := by
    rw [div_lt_one step]
    exact_mod_cast Nat.mod_lt num pos
  have below (h : 2 * (num % den) ≤ den) : ((num % den : ℕ) : ℚ) / den ≤ 1 / 2 := by
    rw [div_le_div_iff₀ step two_pos, one_mul, mul_comm]
    exact_mod_cast h
  have above (h : den ≤ 2 * (num % den)) : 1 / 2 ≤ ((num % den : ℕ) : ℚ) / den := by
    rw [div_le_div_iff₀ two_pos step, one_mul, mul_comm]
    exact_mod_cast h
  rw [part, abs_le]
  unfold roundDiv
  dsimp only
  split_ifs with down up even
  · have := below down.le
    constructor <;> linarith
  · have := above up.le
    push_cast
    constructor <;> linarith
  · have := below (not_lt.1 up)
    constructor <;> linarith
  · have := above (not_lt.1 down)
    push_cast
    constructor <;> linarith

/-- The nearest whole number of nanoseconds to a finite float. -/
def nearestNanos (x : Float) : ℕ :=
  let b := Binary.ofFloat x
  if 0 ≤ b.exponent then b.mantissa <<< b.exponent.toNat * nanosPerSecond
  else roundDiv (b.mantissa * nanosPerSecond) (1 <<< (-b.exponent).toNat)

section
variable {x : Float} {v : ℚ} {d r : Duration}

theorem nearestNanos_half (worth : Worth x v) :
    |(nearestNanos x : ℚ) - v * nanosPerSecond| ≤ 1 / 2 := by
  rw [worth.eq, nearestNanos]
  generalize Binary.ofFloat x = exact
  obtain ⟨m, e, narrow⟩ := exact
  dsimp only
  split_ifs with whole
  · rw [← Int.toNat_of_nonneg whole, zpow_natCast, Int.toNat_natCast, Nat.shiftLeft_eq]
    push_cast
    rw [sub_self, abs_zero]
    exact one_half_pos.le
  · have inverse : (2 : ℚ) ^ e = 1 / 2 ^ (-e).toNat := by
      rw [one_div, ← zpow_natCast, ← zpow_neg, Int.toNat_of_nonneg (by omega), neg_neg]
    have half := roundDiv_half (m * nanosPerSecond) (Nat.two_pow_pos (-e).toNat)
    rw [Nat.one_shiftLeft, inverse, mul_one_div, div_mul_eq_mul_div]
    exact_mod_cast half

theorem ofSeconds?_eq (worth : Worth x v) : ofSeconds? x =
    if h : nearestNanos x < secondsLimit * nanosPerSecond then some ⟨nearestNanos x, h⟩
    else none := by
  have finite : x.isFinite = true := Canonical.isFinite worth
  have unsigned : ¬ x < 0.0 := fun negative =>
    ((worth.lt_iff worth_zero).1 negative).not_ge (Canonical.grid worth).nonneg
  rw [ofSeconds?, finite, decide_eq_false unsigned]
  rfl

theorem nanos_of_ofSeconds? (worth : Worth x v) (nearest : ofSeconds? x = some r) :
    r.nanos = nearestNanos x := by
  rw [ofSeconds?_eq worth] at nearest
  split at nearest
  · rw [← Option.some.inj nearest]
  · contradiction

/-- The nearest duration is not below any duration that the exact number is not below. -/
theorem nanos_le_of_ofSeconds? (worth : Worth x v) (le : d.exact ≤ v)
    (nearest : ofSeconds? x = some r) : d.nanos ≤ r.nanos := by
  rw [nanos_of_ofSeconds? worth nearest]
  exact ge_of_half (nearestNanos_half worth) ((div_le_iff₀ nanosPerSecond_pos).1 le)

/-- Only what is worth more than any duration has no nearest duration. -/
theorem large_of_ofSeconds? (worth : Worth x v) (none : ofSeconds? x = none) : 2 ^ 64 ≤ v := by
  rw [ofSeconds?_eq worth] at none
  split at none
  · contradiction
  next large =>
  have large : ((2 ^ 64 * nanosPerSecond : ℕ) : ℚ) ≤ nearestNanos x := by
    exact_mod_cast not_lt.1 large
  have near := large.trans (sub_le_iff_le_add'.1 (abs_le.1 (nearestNanos_half worth)).2)
  norm_num [nanosPerSecond] at near
  by_contra less
  have limit : Grid (2 ^ 64) := by exact_mod_cast grid_two_zpow (t := 64) (by decide)
  -- The floats before the limit are too far from it.
  have grid := Canonical.grid worth
  have next := grid.next_le (t := 11) limit (by norm_num; linarith) (not_le.1 less)
  norm_num at next
  linarith

end

end Restock.Duration
