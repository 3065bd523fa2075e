import Restock.Proofs.Binary64.Packing

/-! Arithmetic of floats, as exact numbers that are rounded.

Only floats without a sign occur: they are worth a number (`Worth`) or infinite. A sum, a
product and a quotient are the exact ones, rounded to the nearest float (`Rounds`), and so
is a whole number as a float. Of a float that may be infinite it is still known what it is
at least (`AtLeast`). Floats are in the order of what they are worth (`Worth.lt_iff`). -/
namespace Restock.Binary64

open Float.Model
open Float.Model.UnpackedFloat hiding round unpack pack
open Decimal (Binary)

/-- What a finite float without a sign is worth. -/
def Worth (x : Float) (q : ℚ) : Prop := Canonical x.toModel.unpack q

/-- A float is a number rounded, to infinity if it is too large. -/
inductive Rounds (q : ℚ) (x : Float) : Prop
  | worth {r : ℚ} (nearest : Nearest q r) (worth : Worth x r)
  | infinite {r : ℚ} (nearest : Nearest q r) (large : 2 ^ (1024 : ℤ) ≤ r)
      (infinite : x.toModel.unpack = .infinity .positive)

/-- A float is worth no less than a number, or infinite. -/
inductive AtLeast (q : ℚ) (x : Float) : Prop
  | worth {r : ℚ} (worth : Worth x r) (le : q ≤ r)
  | infinite (infinite : x.toModel.unpack = .infinity .positive)

theorem rounds_of_canonical {f : UnpackedFloat} {q r : ℚ} (canonical : Canonical f r)
    (nearest : Nearest q r) : Rounds q (.ofModel (.pack f)) := by
  cases canonical with
  | zero => exact .worth nearest .zero
  | @finite m e pos small low normal =>
    rcases le_or_gt e 971 with le | gt
    · refine .worth nearest ?_
      rw [Worth, unpack_pack_of_le pos small low normal le]
      exact .finite pos small low normal
    · refine .infinite nearest ?_ (unpack_pack_of_gt pos gt)
      have many : ((2 ^ 52 : ℕ) : ℚ) ≤ m := by exact_mod_cast normal.resolve_right (by omega)
      calc (2 : ℚ) ^ (1024 : ℤ) = ((2 ^ 52 : ℕ) : ℚ) * 2 ^ (972 : ℤ) := by
            rw [Nat.cast_pow, ← zpow_natCast, Nat.cast_ofNat, ← zpow_add₀ two_ne_zero]
            rfl
        _ ≤ m * 2 ^ e := by
          gcongr
          · exact one_le_two
          · omega

theorem Rounds.atLeast {q z : ℚ} {x : Float} (h : Rounds q x) (grid : Grid z) (le : z ≤ q) :
    AtLeast z x := by
  cases h with
  | worth nearest worth => exact .worth worth (nearest.le_of_le grid le)
  | infinite _ _ infinite => exact .infinite infinite

/-- What is not too large is not rounded to infinity. -/
theorem Rounds.finite {q : ℚ} {x : Float} (h : Rounds q x) (small : q ≤ 2 ^ (1023 : ℤ)) :
    ∃ r, Nearest q r ∧ Worth x r := by
  cases h with
  | worth nearest worth => exact ⟨_, nearest, worth⟩
  | infinite nearest large =>
    have le := nearest.le_of_ge (grid_two_zpow (by decide)) small
    have lt : (2 : ℚ) ^ (1023 : ℤ) < 2 ^ (1024 : ℤ) := zpow_lt_zpow_right₀ one_lt_two (by decide)
    exact absurd (large.trans le) (not_le.2 lt)

/-! ### Operations -/

theorem canonical_mul {f g : UnpackedFloat} {p q : ℚ} (hf : Canonical f p) (hg : Canonical g q) :
    ∃ r, Nearest (p * q) r ∧ Canonical (UnpackedFloat.mul .binary64 f g) r := by
  cases hf with
  | zero =>
    rw [zero_mul]
    refine ⟨0, .zero, ?_⟩
    cases hg <;> exact .zero
  | @finite m e pos _ _ normal =>
    cases hg with
    | zero =>
      rw [mul_zero]
      exact ⟨0, .zero, .zero⟩
    | @finite n d pos' _ _ normal' =>
      have fine : 52 ≤ (m * n).log2 ∨ e + d ≤ -1074 := by
        rw [Nat.le_log2 (Nat.mul_pos pos pos').ne']
        rcases normal with many | least
        · exact .inl (many.trans (Nat.le_mul_of_pos_right m pos'))
        · rcases normal' with many | least'
          · exact .inl (many.trans (Nat.le_mul_of_pos_left n pos))
          · omega
      obtain ⟨r, nearest, canonical⟩ := canonical_of_stands (stands_exact _) fine
      refine ⟨r, ?_, canonical⟩
      rwa [Nat.cast_mul, zpow_add₀ two_ne_zero, mul_mul_mul_comm] at nearest

theorem Canonical.mul_infinity {f : UnpackedFloat} {q : ℚ} (h : Canonical f q) (pos : 0 < q) :
    UnpackedFloat.mul .binary64 f (.infinity .positive) = .infinity .positive := by
  cases h with
  | zero => exact absurd pos (lt_irrefl 0)
  | finite => rfl

theorem Canonical.infinity_mul {f : UnpackedFloat} {q : ℚ} (h : Canonical f q) (pos : 0 < q) :
    UnpackedFloat.mul .binary64 (.infinity .positive) f = .infinity .positive := by
  cases h with
  | zero => exact absurd pos (lt_irrefl 0)
  | finite => rfl

theorem canonical_add {f g : UnpackedFloat} {p q : ℚ} (hf : Canonical f p) (hg : Canonical g q) :
    ∃ r, Nearest (p + q) r ∧ Canonical (UnpackedFloat.add .binary64 f g) r := by
  have left := hf.grid
  have right := hg.grid
  cases hf with
  | zero =>
    rw [zero_add]
    refine ⟨q, .of_grid right, ?_⟩
    cases hg with
    | zero => exact .zero
    | finite pos small low normal => exact .finite pos small low normal
  | @finite m e pos small low normal =>
    cases hg with
    | zero =>
      rw [add_zero]
      exact ⟨_, .of_grid left, .finite pos small low normal⟩
    | @finite n d pos' small' low' normal' =>
      obtain ⟨r, nearest, canonical⟩ := canonical_normalize
        (m <<< (e - min e d).toNat + n <<< (d - min e d).toNat) (min e d)
      refine ⟨r, ?_, canonical⟩
      have left := worth_shiftLeft m e (e - min e d).toNat
      have right := worth_shiftLeft n d (d - min e d).toNat
      rw [show e - ((e - min e d).toNat : ℤ) = min e d by omega] at left
      rw [show d - ((d - min e d).toNat : ℤ) = min e d by omega] at right
      rwa [Nat.cast_add, add_mul, left, right] at nearest

theorem stands_div {m n : ℕ} (pos : 0 < n) :
    Stands (.ofMantissaAndAccuracy (m / n) (accuracyOfFraction (m % n) n)) ((m : ℚ) / n) := by
  have step : (0 : ℚ) < n := by exact_mod_cast pos
  have split : (m : ℚ) = (m / n : ℕ) * n + (m % n : ℕ) := by
    exact_mod_cast (Nat.div_add_mod' m n).symm
  have part : ((m % n : ℕ) : ℚ) < n := by exact_mod_cast Nat.mod_lt m pos
  rw [accuracyOfFraction]
  split_ifs with none
  · rw [none, Nat.cast_zero, add_zero] at split
    exact (div_eq_iff step.ne').2 split
  · have some : (0 : ℚ) < (m % n : ℕ) := by exact_mod_cast Nat.pos_of_ne_zero none
    cases order : compare (2 * (m % n)) n with
    | lt =>
      have less : (2 : ℚ) * (m % n : ℕ) < n := by exact_mod_cast Nat.compare_eq_lt.1 order
      show ((m / n : ℕ) : ℚ) < m / n ∧ (m : ℚ) / n < (m / n : ℕ) + 1 / 2
      rw [lt_div_iff₀ step, div_lt_iff₀ step]
      constructor <;> linarith
    | eq =>
      have half : (2 : ℚ) * (m % n : ℕ) = n := by exact_mod_cast Nat.compare_eq_eq.1 order
      show (m : ℚ) / n = (m / n : ℕ) + 1 / 2
      rw [div_eq_iff step.ne']
      linarith
    | gt =>
      have more : (n : ℚ) < 2 * (m % n : ℕ) := by exact_mod_cast Nat.compare_eq_gt.1 order
      show ((m / n : ℕ) : ℚ) + 1 / 2 < m / n ∧ (m : ℚ) / n < (m / n : ℕ) + 1
      rw [lt_div_iff₀ step, div_lt_iff₀ step]
      constructor <;> linarith

/-- The quotient of the mantissas is taken with all the digits that a float may have. -/
theorem canonical_div {f g : UnpackedFloat} {p q : ℚ} (hf : Canonical f p) (hg : Canonical g q)
    (positive : q ≠ 0) :
    ∃ r, Nearest (p / q) r ∧ Canonical (UnpackedFloat.div .binary64 f g) r := by
  cases hg with
  | zero => exact absurd rfl positive
  | @finite n d pos' =>
    cases hf with
    | zero =>
      rw [zero_div]
      exact ⟨0, .zero, .zero⟩
    | @finite m e pos =>
      obtain ⟨t, target⟩ : ∃ t, t = min (e - d)
          (max ((m.log2 + 1 + e) - (n.log2 + 1 + d) - 53 : ℤ) (-1074)) := ⟨_, rfl⟩
      obtain ⟨k, shift⟩ : ∃ k, k = (e - d - t).toNat := ⟨_, rfl⟩
      have fine : 52 ≤ ((m <<< k) / n).log2 ∨ t ≤ -1074 := by
        by_cases least : t ≤ -1074
        · exact .inr least
        · -- The shift leaves the dividend 53 digits longer than the divisor.
          have above := Nat.log2_self_le pos.ne'
          have below := (Nat.lt_log2_self (n := n)).le
          have many : 2 ^ 52 ≤ (m <<< k) / n := by
            rw [Nat.le_div_iff_mul_le pos', Nat.shiftLeft_eq]
            calc 2 ^ 52 * n ≤ 2 ^ 52 * 2 ^ (n.log2 + 1) := Nat.mul_le_mul_left _ below
              _ = 2 ^ (52 + (n.log2 + 1)) := (Nat.pow_add ..).symm
              _ ≤ 2 ^ (m.log2 + k) := Nat.pow_le_pow_right (by decide) (by omega)
              _ = 2 ^ m.log2 * 2 ^ k := Nat.pow_add ..
              _ ≤ m * 2 ^ k := Nat.mul_le_mul_right _ above
          exact .inl ((Nat.le_log2 (by omega)).2 many)
      obtain ⟨r, nearest, canonical⟩ := canonical_of_stands (stands_div pos') fine
      have scaled : ((m <<< k : ℕ) : ℚ) / n * 2 ^ t = m * 2 ^ e / (n * 2 ^ d) := by
        have same := worth_shiftLeft m e k
        rw [show e - k = d + t by omega, zpow_add₀ two_ne_zero] at same
        rw [← same]
        have := two_zpow_pos d
        field_simp
      refine ⟨r, scaled ▸ nearest, ?_⟩
      subst shift target
      exact canonical

section
variable {x y : Float} {p q z : ℚ}

theorem Worth.mul (hx : Worth x p) (hy : Worth y q) : Rounds (p * q) (x * y) := by
  obtain ⟨r, nearest, canonical⟩ := canonical_mul hx hy
  exact rounds_of_canonical canonical nearest

theorem Worth.add (hx : Worth x p) (hy : Worth y q) : Rounds (p + q) (x + y) := by
  obtain ⟨r, nearest, canonical⟩ := canonical_add hx hy
  exact rounds_of_canonical canonical nearest

theorem Worth.div (hx : Worth x p) (hy : Worth y q) (positive : q ≠ 0) :
    Rounds (p / q) (x / y) := by
  obtain ⟨r, nearest, canonical⟩ := canonical_div hx hy positive
  exact rounds_of_canonical canonical nearest

theorem AtLeast.mono (h : AtLeast q x) (le : p ≤ q) : AtLeast p x := by
  cases h with
  | worth worth large => exact .worth worth (le.trans large)
  | infinite infinite => exact .infinite infinite

/-- A product is no less than the product of what the factors are at least. -/
theorem AtLeast.mul (hx : AtLeast p x) (hy : AtLeast q y) (hp : 0 < p) (hq : 0 < q)
    (grid : Grid z) (le : z ≤ p * q) : AtLeast z (x * y) := by
  have product : x * y = .ofModel (.pack (.mul .binary64 x.toModel.unpack y.toModel.unpack)) := rfl
  cases hx with
  | worth worth large =>
    cases hy with
    | worth worth' large' =>
      exact (worth.mul worth').atLeast grid
        (le.trans (mul_le_mul large large' hq.le (hp.le.trans large)))
    | infinite infinite =>
      rw [product, infinite, Canonical.mul_infinity worth (hp.trans_le large)]
      exact .infinite rfl
  | infinite infinite =>
    rw [product, infinite]
    cases hy with
    | worth worth large =>
      rw [Canonical.infinity_mul worth (hq.trans_le large)]
      exact .infinite rfl
    | infinite infinite' =>
      rw [infinite']
      exact .infinite rfl

/-- The least factor above one takes a float to the next one at least. -/
theorem Worth.atLeast_next {m : ℕ} {e : ℤ} (hx : Worth x (m * 2 ^ e)) (small : m < 2 ^ 53)
    (many : 2 ^ 52 ≤ m) (low : -1074 ≤ e) (hy : AtLeast (1 + 2 ^ (-52 : ℤ)) y) :
    AtLeast ((m + 1 : ℕ) * 2 ^ e) (x * y) := by
  have step := two_zpow_pos e
  have pos : (0 : ℚ) < m := by exact_mod_cast (Nat.two_pow_pos 52).trans_le many
  have unit : (1 : ℚ) ≤ m * 2 ^ (-52 : ℤ) := by
    rw [zpow_neg, ← div_eq_mul_inv, le_div_iff₀ (by positivity), one_mul]
    exact_mod_cast many
  have next : ((m + 1 : ℕ) : ℚ) * 2 ^ e ≤ m * 2 ^ e * (1 + 2 ^ (-52 : ℤ)) := calc
    ((m + 1 : ℕ) : ℚ) * 2 ^ e = m * 2 ^ e + 1 * 2 ^ e := by rw [Nat.cast_add, Nat.cast_one, add_mul]
    _ ≤ m * 2 ^ e + m * 2 ^ (-52 : ℤ) * 2 ^ e := by gcongr
    _ = m * 2 ^ e * (1 + 2 ^ (-52 : ℤ)) := by ring
  exact (AtLeast.worth hx le_rfl).mul hy (by positivity) (by positivity)
    ⟨m + 1, e, small, low, rfl⟩ next

theorem natCast_le {n : ℕ} (small : n < 2 ^ 64) : (n : ℚ) ≤ 2 ^ (64 : ℤ) := by
  exact_mod_cast small.le

theorem worth_toFloat {n : ℕ} (small : n < 2 ^ 53) : Worth n.toUInt64.toFloat n := by
  obtain ⟨r, nearest, canonical⟩ := canonical_normalize n 0
  have same : n.toUInt64.toNat = n := UInt64.toNat_ofNat_of_lt' (small.trans (by decide))
  rw [zpow_zero, mul_one] at nearest
  have rounds : Rounds n n.toUInt64.toFloat := by
    rw [UInt64.toFloat, Float.Model.ofUInt64, UnpackedFloat.ofUInt64, same]
    exact rounds_of_canonical canonical nearest
  obtain ⟨r, nearest, worth⟩ := rounds.finite
    ((natCast_le (small.trans (by decide))).trans (two_zpow_le (by decide)))
  rwa [nearest.eq (grid_of_le small.le)] at worth

theorem worth_zero : Worth 0.0 0 := .zero

theorem worth_one : Worth 1.0 1 := by
  have worth : Worth 1.0 ((2 ^ 52 : ℕ) * 2 ^ (-52 : ℤ)) :=
    .finite (m := 2 ^ 52) (by decide) (by decide) (by decide) (.inl le_rfl)
  norm_num at worth
  exact worth

theorem ofScientific_eq {n : ℕ} (pos : n ≠ 0) : UnpackedFloat.ofScientific .binary64 n 0 =
    roundWithAccuracy .binary64 .positive (n <<< 53) (-53) .exact := by
  rw [UnpackedFloat.ofScientific, dif_neg pos, if_neg (by decide),
    if_neg (show ¬ (0 : ℤ) < -(2 ^ 11 + n.log2) by omega), if_pos le_rfl]
  rw [UnpackedFloat.mul]
  have one : 10 ^ Int.toNat 0 = 1 := rfl
  have digits : Format.binary64.mantissaBits = 53 := rfl
  simp only [one, digits, Nat.mul_one, Int.add_zero]
  rfl

/-- A whole number as a float. -/
theorem rounds_ofNat (n : ℕ) : Rounds n (Float.ofNat n) := by
  rw [Float.ofNat]
  rcases lt_or_ge n (2 ^ 53) with small | large
  · have product : OfScientific.ofScientific n false 0 =
        n.toUInt64.toFloat * Float.ofBits 0x3FF0000000000000 := dif_pos ⟨small, by decide⟩
    have one : Float.ofBits 0x3FF0000000000000 = 1.0 := rfl
    rw [product, one, ← mul_one (n : ℚ)]
    exact (worth_toFloat small).mul worth_one
  · have round : (OfScientific.ofScientific n false 0 : Float) =
        .ofModel (.pack (UnpackedFloat.ofScientific .binary64 n 0)) := dif_neg (by omega)
    have fine : 52 ≤ (n <<< 53).log2 ∨ (-53 : ℤ) ≤ -1074 := by
      rw [log2_shiftLeft (by omega)]
      omega
    obtain ⟨r, nearest, canonical⟩ := canonical_of_stands (stands_exact _) fine
    have scaled := worth_shiftLeft n 0 53
    rw [zpow_zero, mul_one] at scaled
    rw [round, ofScientific_eq (by omega)]
    exact rounds_of_canonical canonical (scaled ▸ nearest)

end

/-! ### The order of floats -/

/-- A larger exponent outweighs any mantissa. -/
theorem less_of_exponent {m n : ℕ} {e d : ℤ} (small : m < 2 ^ 53) (many : 2 ^ 52 ≤ n) (lt : e < d) :
    (m : ℚ) * 2 ^ e < n * 2 ^ d := calc
  (m : ℚ) * 2 ^ e < (m + 1 : ℕ) * 2 ^ e :=
    mul_lt_mul_of_pos_right (by exact_mod_cast m.lt_succ_self) (two_zpow_pos e)
  _ ≤ 2 ^ 52 * 2 ^ d := mul_two_zpow_le small lt
  _ ≤ n * 2 ^ d := mul_le_mul_of_nonneg_right (by exact_mod_cast many) (two_zpow_pos d).le

theorem canonical_compare {f g : UnpackedFloat} {p q : ℚ} (hf : Canonical f p)
    (hg : Canonical g q) :
    f.compare g = some (compare p q) := by
  cases hf with
  | zero =>
    cases hg with
    | zero => rw [compare_eq_iff_eq.2 rfl]; rfl
    | @finite n d pos =>
      have : (0 : ℚ) < n * 2 ^ d := by positivity
      rw [compare_lt_iff_lt.2 this]
      rfl
  | @finite m e pos small low normal =>
    cases hg with
    | zero =>
      have : (0 : ℚ) < m * 2 ^ e := by positivity
      rw [compare_gt_iff_gt.2 this]
      rfl
    | @finite n d pos' small' low' normal' =>
      show some ((compare e d).then (compare m n)) = _
      rcases lt_trichotomy e d with lt | rfl | gt
      · have less := less_of_exponent small (normal'.resolve_right (by omega)) lt
        rw [compare_lt_iff_lt.2 lt, compare_lt_iff_lt.2 less]
        rfl
      · have step := two_zpow_pos e
        rw [compare_eq_iff_eq.2 rfl]
        show some (compare m n) = _
        rcases lt_trichotomy m n with lt | rfl | gt
        · have : (m : ℚ) * 2 ^ e < n * 2 ^ e := by gcongr
          rw [compare_lt_iff_lt.2 lt, compare_lt_iff_lt.2 this]
        · rw [compare_eq_iff_eq.2 rfl, compare_eq_iff_eq.2 rfl]
        · have : (n : ℚ) * 2 ^ e < m * 2 ^ e := by gcongr
          rw [compare_gt_iff_gt.2 gt, compare_gt_iff_gt.2 this]
      · have less := less_of_exponent small' (normal.resolve_right (by omega)) gt
        rw [compare_gt_iff_gt.2 gt, compare_gt_iff_gt.2 less]
        rfl

section
variable {x y : Float} {p q : ℚ}

theorem lt_iff_compare : x < y ↔ x.toModel.unpack.compare y.toModel.unpack = some .lt := by
  show decide (x.toModel.unpack.lt y.toModel.unpack = true) = true ↔ _
  rw [decide_eq_true_iff, UnpackedFloat.lt, beq_iff_eq]

theorem Worth.lt_iff (hx : Worth x p) (hy : Worth y q) : x < y ↔ p < q := by
  rw [lt_iff_compare, canonical_compare hx hy, Option.some_inj, compare_lt_iff_lt]

theorem Worth.beq_iff (hx : Worth x p) (hy : Worth y q) : x == y ↔ p = q := by
  show x.toModel.unpack.beq y.toModel.unpack = true ↔ _
  rw [UnpackedFloat.beq, canonical_compare hx hy, beq_iff_eq, Option.some_inj, compare_eq_iff_eq]

/-- What a float is worth can be read off its bits. -/
theorem Worth.eq (h : Worth x p) :
    p = (Binary.ofFloat x).mantissa * 2 ^ (Binary.ofFloat x).exponent := by
  have exact := exact_of_isFinite (x := x) (Canonical.isFinite h)
  unfold Worth at h
  generalize x.toModel.unpack = f at h exact
  cases exact with
  | zero s none =>
    cases h
    rw [none, Nat.cast_zero, zero_mul]
  | finite =>
    cases h
    rfl

theorem Worth.unique (h : Worth x p) (h' : Worth x q) : p = q := h.eq.trans h'.eq.symm

/-- A finite float that is not less than one that is worth something is worth no less. -/
theorem worth_of_not_lt (finite : x.isFinite = true) (hy : Worth y q) (pos : 0 < q)
    (least : ¬ x < y) : ∃ p, Worth x p ∧ q ≤ p := by
  have exact := exact_of_isFinite finite
  suffices unsigned : ∃ p, Worth x p by
    obtain ⟨p, hx⟩ := unsigned
    exact ⟨p, hx, not_lt.1 fun lt => least ((hx.lt_iff hy).2 lt)⟩
  rw [lt_iff_compare] at least
  unfold Worth at hy ⊢
  generalize x.toModel.unpack = f at least exact
  generalize y.toModel.unpack = g at least hy
  cases hy with
  | zero => exact absurd pos (lt_irrefl 0)
  | finite =>
    cases exact with
    | zero => exact absurd rfl least
    | finite s pos small low normal =>
      cases s with
      | negative => exact absurd rfl least
      | positive => exact ⟨_, .finite pos small low normal⟩

end

end Restock.Binary64
