import Restock.Decimal.Binary
import Restock.Proofs.Binary64.Rounding

/-! Floats as their bits.

A float in canonical form is unpacked to what was packed, unless it is too large for its
exponent, when it is infinite (`unpack_pack_of_le`, `unpack_pack_of_gt`). Conversely any
float that is finite is unpacked to the mantissa and the exponent of its exact value, in
canonical form (`exact_of_isFinite`). -/
namespace Restock.Binary64

open Float.Model
open Float.Model.UnpackedFloat hiding round unpack pack
open Decimal (Binary)

/-! ### Packing -/

theorem toNat_implicit (m : BitVec 52) : (1#1 ++ m).toNat = 2 ^ 52 + m.toNat := by
  rw [BitVec.toNat_append, ← Nat.shiftLeft_add_eq_or_of_lt m.isLt]
  rfl

theorem sign_packComponents {f : Format} (s : Sign) (e : BitVec f.exponentBits)
    (m : BitVec f.mantissaBitsWithoutImplicit) :
    unpackSign (packComponents f s e m) = s.toBitVec := by
  apply BitVec.eq_of_getLsbD_eq
  intro i less
  obtain rfl : i = 0 := by omega
  simp [unpackSign, packComponents, BitVec.getLsbD_append, BitVec.getElem_append]

theorem unpack_normal {e : BitVec 11} (m : BitVec 52) (finite : e ≠ -1#11) (positive : e ≠ 0#11) :
    UnpackedFloat.unpack .binary64 (packComponents .binary64 .positive e m) =
      .finite .positive (2 ^ 52 + m.toNat) (e.toNat - 1075)
        (Nat.add_pos_left (Nat.two_pow_pos 52) _) := by
  simp only [UnpackedFloat.unpack, unpackMantissa_packComponents, unpackExponent_packComponents,
    sign_packComponents, if_neg finite, if_neg positive]
  simp only [toNat_implicit]
  rfl

theorem unpack_subnormal {m : BitVec 52} (positive : m ≠ 0#52) :
    UnpackedFloat.unpack .binary64 (packComponents .binary64 .positive 0 m) =
      .finite .positive m.toNat (-1074)
        (Nat.pos_of_ne_zero fun none => positive (BitVec.eq_of_toNat_eq none)) := by
  simp only [UnpackedFloat.unpack, unpackMantissa_packComponents, unpackExponent_packComponents,
    sign_packComponents, dif_neg positive]
  rfl

theorem ne_of_toNat {w n k : ℕ} (less : n < 2 ^ w) (less' : k < 2 ^ w) (apart : n ≠ k) :
    BitVec.ofNat w n ≠ BitVec.ofNat w k := by
  intro same
  have := congrArg BitVec.toNat same
  rw [BitVec.toNat_ofNat, BitVec.toNat_ofNat, Nat.mod_eq_of_lt less, Nat.mod_eq_of_lt less'] at this
  exact apart this

theorem unpack_pack_of_le {m : ℕ} {e : ℤ} (pos : 0 < m) (small : m < 2 ^ 53) (low : -1074 ≤ e)
    (normal : 2 ^ 52 ≤ m ∨ e = -1074) (high : e ≤ 971) :
    (Float.Model.pack (.finite .positive m e pos)).unpack = .finite .positive m e pos := by
  show UnpackedFloat.unpack .binary64 (if 2 ^ 11 ≤ (e + 1023 + 52).toNat + 1 then _ else
    if m.log2 + 1 = 53 then
      packComponents .binary64 .positive (.ofNat 11 (e + 1023 + 52).toNat) (.ofNat 52 m)
    else packComponents .binary64 .positive 0 (.ofNat 52 m)) = _
  rw [if_neg (by omega)]
  by_cases many : 2 ^ 52 ≤ m
  · have finite : BitVec.ofNat 11 (e + 1023 + 52).toNat ≠ -1#11 :=
      ne_of_toNat (k := 2047) (by omega) (by decide) (by omega)
    have positive : BitVec.ofNat 11 (e + 1023 + 52).toNat ≠ 0#11 :=
      ne_of_toNat (by omega) (by decide) (by omega)
    rw [if_pos (by rw [(Nat.log2_eq_iff pos.ne').2 ⟨many, small⟩]), unpack_normal _ finite positive]
    congr 1
    · rw [BitVec.toNat_ofNat]
      omega
    · rw [BitVec.toNat_ofNat]
      omega
  · obtain rfl := normal.resolve_left many
    have digits := (Nat.log2_lt pos.ne').2 (not_le.1 many)
    rw [if_neg (by omega), unpack_subnormal (ne_of_toNat (not_le.1 many) (by decide) pos.ne')]
    congr 1
    rw [BitVec.toNat_ofNat]
    omega

theorem unpack_pack_of_gt {m : ℕ} {e : ℤ} (pos : 0 < m) (high : 971 < e) :
    (Float.Model.pack (.finite .positive m e pos)).unpack = .infinity .positive := by
  show UnpackedFloat.unpack .binary64 (if 2 ^ 11 ≤ (e + 1023 + 52).toNat + 1 then
    packedInfinity .binary64 .positive else _) = _
  rw [if_pos (by omega)]
  rfl

/-! ### Unpacking -/

/-- A finite float with the mantissa and the exponent of its exact value, which have the
form in which they are packed. -/
inductive Exact (b : Binary) : UnpackedFloat → Prop
  | zero (s : Sign) (none : b.mantissa = 0) : Exact b (.zero s)
  | finite (s : Sign) (pos : 0 < b.mantissa) (small : b.mantissa < 2 ^ 53)
      (low : -1074 ≤ b.exponent) (normal : 2 ^ 52 ≤ b.mantissa ∨ b.exponent = -1074) :
      Exact b (.finite s b.mantissa b.exponent pos)

theorem ofFloat_eq (x : Float) :
    let m := (@unpackMantissa .binary64 x.toModel.toBits.toBitVec).toNat
    let e := (@unpackExponent .binary64 x.toModel.toBits.toBitVec).toNat
    Binary.ofFloat x = if e = 0 then ⟨m, -1074, false⟩
      else ⟨2 ^ 52 + m, e - 1075, m == 0 && 1 < e⟩ := by
  have mantissa : (@unpackMantissa .binary64 x.toModel.toBits.toBitVec).toNat =
      x.toBits.toNat % 1 <<< 52 := by
    simp [unpackMantissa, BitVec.extractLsb, Float.toBits]
  have exponent : (@unpackExponent .binary64 x.toModel.toBits.toBitVec).toNat =
      (x.toBits.toNat >>> 52) % 1 <<< 11 := by
    simp [unpackExponent, BitVec.extractLsb, Float.toBits]
  intro m e
  rw [Binary.ofFloat, ← mantissa, ← exponent]
  rfl

theorem exact_of_isFinite {x : Float} (finite : x.isFinite = true) :
    Exact (Binary.ofFloat x) x.toModel.unpack := by
  have finite : x.toModel.unpack.isFinite = true := finite
  unfold Float.Model.unpack UnpackedFloat.unpack at finite ⊢
  dsimp only at finite ⊢
  generalize Sign.ofBitVec _ = s at finite ⊢
  have small : (@unpackMantissa .binary64 x.toModel.toBits.toBitVec).toNat < 2 ^ 52 :=
    BitVec.isLt _
  split at finite
  · split at finite <;> contradiction
  next bounded =>
  rw [ofFloat_eq, if_neg bounded]
  split at finite
  · next least =>
    rw [if_pos least, if_pos (by rw [least]; rfl), least]
    split
    · next none => exact .zero s (congrArg BitVec.toNat none)
    · next some =>
      have pos := Nat.pos_of_ne_zero fun none => some (BitVec.eq_of_toNat_eq none)
      exact .finite s pos (small.trans (by decide)) le_rfl (.inr rfl)
  · next normal =>
    have some : (@unpackExponent .binary64 x.toModel.toBits.toBitVec).toNat ≠ 0 :=
      fun none => normal (BitVec.eq_of_toNat_eq none)
    rw [if_neg normal, if_neg some]
    simp only [toNat_implicit]
    exact .finite s (Nat.add_pos_left (by decide) _) (by dsimp only; omega) (by dsimp only; omega)
      (.inl (Nat.le_add_right ..))

end Restock.Binary64
