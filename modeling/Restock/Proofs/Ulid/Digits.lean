import Mathlib.Data.List.Induction
import Mathlib.Data.Nat.Digits.Defs
import Mathlib.Data.String.Basic
import Mathlib.Order.Fin.Basic
import Restock.Ulid

/-! Numbers in base 32.

A list of digits, most significant first, has a `value`, and every number that is small
enough is the value of so many digits. `digits` writes that list glyph by glyph
(`digits_value`), and reading characters in either case gives it back
(`mapM_digitValue?_eq_some_iff`). The alphabet is in increasing order, so numbers of so
many digits are in the order of their texts (`strictMonoOn_digits`). -/
namespace Restock.Ulid

abbrev Digit := Fin 32

/-- The number that the digits stand for, most significant first. -/
def value (ds : List Digit) : Nat := Nat.ofDigits 32 (ds.map Fin.val).reverse

def glyph (d : Digit) : Char := digitChar d.val

/-! ### Values -/

theorem value_cons (d : Digit) (ds : List Digit) :
    value (d :: ds) = value ds + 32 ^ ds.length * d := by
  rw [value, List.map_cons, Nat.ofDigits_reverse_cons, List.length_map]
  rfl

theorem value_snoc (ds : List Digit) (d : Digit) : value (ds ++ [d]) = value ds * 32 + d := by
  rw [value, List.map_append, List.reverse_append, List.map_singleton, List.reverse_singleton,
    List.singleton_append, Nat.ofDigits_cons, value]
  omega

theorem value_lt (ds : List Digit) : value ds < 32 ^ ds.length := by
  have below : ∀ n ∈ (ds.map Fin.val).reverse, n < 32 := by simp
  have bound := Nat.ofDigits_lt_base_pow_length (by decide : 1 < 32) below
  rwa [List.length_reverse, List.length_map] at bound

theorem foldl_eq_value (ds : List Digit) :
    (ds.map Fin.val).foldl (fun n d => n * 32 + d) 0 = value ds := by
  induction ds using List.reverseRecOn with
  | nil => rfl
  | append_singleton ds d ih =>
    rw [List.map_append, List.foldl_append, ih, value_snoc]
    rfl

theorem exists_value_eq {count n : Nat} (h : n < 32 ^ count) :
    ∃ ds : List Digit, ds.length = count ∧ value ds = n := by
  induction count generalizing n with
  | zero => exact ⟨[], rfl, (Nat.lt_one_iff.1 h).symm⟩
  | succ count ih =>
    obtain ⟨ds, length, high⟩ := ih (n := n / 32) (by rw [pow_succ] at h; omega)
    refine ⟨ds ++ [⟨n % 32, by omega⟩], by simp [length], ?_⟩
    rw [value_snoc, high]
    exact Nat.div_add_mod' n 32

/-- The first digits decide, since a step there is worth more than all that follows. -/
theorem value_cons_lt_iff {d e : Digit} {ds es : List Digit} (length : ds.length = es.length) :
    value (d :: ds) < value (e :: es) ↔ d < e ∨ d = e ∧ value ds < value es := by
  have left : value ds < 32 ^ es.length := length ▸ value_lt ds
  have right := value_lt es
  rw [value_cons, value_cons, length]
  rcases lt_trichotomy d e with less | rfl | more
  · have step := Nat.mul_le_mul_left (32 ^ es.length) (Nat.succ_le_of_lt less)
    rw [Nat.mul_succ] at step
    exact iff_of_true (by omega) (.inl less)
  · simp
  · have step := Nat.mul_le_mul_left (32 ^ es.length) (Nat.succ_le_of_lt more)
    rw [Nat.mul_succ] at step
    refine iff_of_false (by omega) ?_
    rintro (less | ⟨same, -⟩)
    · exact less.asymm more
    · exact more.ne' same

/-! ### Glyphs -/

theorem glyph_strictMono : StrictMono glyph := by
  intro d e
  revert d e
  decide +kernel

theorem glyph_le_seven_iff : ∀ d : Digit, glyph d ≤ '7' ↔ d.val < 8 := by decide +kernel

theorem toUpper_glyph : ∀ d : Digit, (glyph d).toUpper = glyph d := by decide +kernel

theorem utf8Size_glyph : ∀ d : Digit, (glyph d).utf8Size = 1 := by decide +kernel

theorem digits_value (ds : List Digit) : digits ds.length (value ds) = ds.map glyph := by
  induction ds using List.reverseRecOn with
  | nil => rfl
  | append_singleton ds d ih =>
    have high : (value ds * 32 + d) / 32 = value ds := by omega
    have low : (value ds * 32 + d) % 32 = d := by omega
    rw [List.length_append, List.length_singleton, digits, value_snoc, high, low, ih,
      List.map_append]
    rfl

theorem map_glyph_lt_iff {ds es : List Digit} (length : ds.length = es.length) :
    ds.map glyph < es.map glyph ↔ value ds < value es := by
  induction ds generalizing es with
  | nil =>
    obtain rfl := List.length_eq_zero_iff.1 length.symm
    simp
  | cons d ds ih =>
    cases es with
    | nil => contradiction
    | cons e es =>
      have rest : ds.length = es.length := Nat.succ.inj length
      rw [List.map_cons, List.map_cons, List.cons_lt_cons_iff, glyph_strictMono.lt_iff_lt,
        glyph_strictMono.injective.eq_iff, ih rest, value_cons_lt_iff rest]

/-- Of two numbers of so many digits the smaller has the smaller text. -/
theorem strictMonoOn_digits (count : Nat) : StrictMonoOn (digits count) (Set.Iio (32 ^ count)) := by
  intro m hm n hn less
  obtain ⟨ds, rfl, rfl⟩ := exists_value_eq hm
  obtain ⟨es, length, rfl⟩ := exists_value_eq hn
  rw [digits_value, ← length, digits_value]
  exact (map_glyph_lt_iff length.symm).2 less

/-! ### Characters of either case -/

theorem toUpper_cases (c : Char) : c.toUpper = c ∨ 'a' ≤ c ∧ c ≤ 'z' ∧ 'A' ≤ c.toUpper := by
  unfold Char.toUpper
  split
  · next lower =>
    refine .inr ⟨lower.1, lower.2, ?_⟩
    have low : 97 ≤ c.val.toNat := lower.1
    have high : c.val.toNat ≤ 122 := lower.2
    have sum := UInt32.toNat_add c.val ('A'.val - 'a'.val)
    have shift : ('A'.val - 'a'.val).toNat = 2 ^ 32 - 32 := by decide
    have least : 'A'.val.toNat = 65 := by decide
    rw [Char.le_def, UInt32.le_iff_toNat_le, sum, shift, least]
    omega
  · exact .inl rfl

theorem toUpper_le_seven_iff (c : Char) : c.toUpper ≤ '7' ↔ c ≤ '7' := by
  rcases toUpper_cases c with same | ⟨low, -, upper⟩
  · rw [same]
  · have letters : '7' < 'A' ∧ '7' < 'a' := by decide
    exact iff_of_false (letters.1.trans_le upper).not_ge (letters.2.trans_le low).not_ge

theorem utf8Size_of_glyph {c : Char} {d : Digit} (h : glyph d = c.toUpper) : c.utf8Size = 1 := by
  rcases toUpper_cases c with same | ⟨-, high, -⟩
  · rw [← same, ← h]
    exact utf8Size_glyph d
  · exact Char.utf8Size_eq_one_iff.2 (UInt32.le_trans high (by decide))

theorem idxOf?_glyph : ∀ d : Digit, alphabet.idxOf? (glyph d) = some d.val := by decide +kernel

theorem glyph_of_idxOf? {c : Char} {n : Nat} (h : alphabet.idxOf? c = some n) :
    ∃ d : Digit, d.val = n ∧ glyph d = c := by
  obtain ⟨bound, found, -⟩ := List.idxOf?_eq_some_iff.1 h
  have length : alphabet.length = 32 := rfl
  refine ⟨⟨n, length ▸ bound⟩, rfl, ?_⟩
  rw [glyph, digitChar, List.getD_eq_getElem?_getD, List.getElem?_eq_getElem bound, found]
  rfl

theorem digitValue?_eq_some_iff {c : Char} {n : Nat} :
    digitValue? c = some n ↔ ∃ d : Digit, d.val = n ∧ glyph d = c.toUpper := by
  refine ⟨glyph_of_idxOf?, ?_⟩
  rintro ⟨d, rfl, same⟩
  rw [digitValue?, ← same, idxOf?_glyph]

/-- Characters are read as digits if they are glyphs, letters in either case. -/
theorem mapM_digitValue?_eq_some_iff {cs : List Char} {ns : List Nat} :
    cs.mapM digitValue? = some ns ↔
      ∃ ds : List Digit, ds.map Fin.val = ns ∧ ds.map glyph = cs.map Char.toUpper := by
  induction cs generalizing ns with
  | nil =>
    constructor
    · intro none
      cases none
      exact ⟨[], rfl, rfl⟩
    · rintro ⟨ds, rfl, none⟩
      rw [List.map_eq_nil_iff.1 none]
      rfl
  | cons c cs ih =>
    simp only [List.mapM_cons, Option.bind_eq_bind, Option.bind_eq_some_iff, ih,
      digitValue?_eq_some_iff, Option.pure_def, Option.some.injEq]
    constructor
    · rintro ⟨_, ⟨d, rfl, first⟩, _, ⟨ds, rfl, others⟩, rfl⟩
      exact ⟨d :: ds, rfl, by rw [List.map_cons, List.map_cons, first, others]⟩
    · rintro ⟨ds, rfl, same⟩
      cases ds with
      | nil => contradiction
      | cons d ds =>
        obtain ⟨first, others⟩ := List.cons.inj same
        exact ⟨d, ⟨d, rfl, first⟩, _, ⟨ds, rfl, others⟩, rfl⟩

/-- Glyphs in either case take a byte each. -/
theorem utf8ByteSize_eq_length {ds : List Digit} {s : String}
    (h : ds.map glyph = s.toList.map Char.toUpper) : s.utf8ByteSize = ds.length := by
  rw [← String.ofList_toList (s := s), String.utf8ByteSize_ofList]
  generalize s.toList = cs at h
  induction cs generalizing ds with
  | nil =>
    rw [List.map_eq_nil_iff.1 h]
    rfl
  | cons c cs ih =>
    cases ds with
    | nil => contradiction
    | cons d ds =>
      obtain ⟨first, rest⟩ := List.cons.inj h
      rw [String.utf8Len_cons, ih rest, utf8Size_of_glyph first]
      rfl

end Restock.Ulid
