import Restock.Proofs.Json.Strings
import Restock.Proofs.Ulid.Digits

/-! Ids in time and in text.

A text `Spells` a number if it has the 26 digits of it. Every ulid is spelled by its own
text (`spells_text`), and what is read from a text is the number that it spells, as far as
there are bits for it (`parse_eq_ok_iff`). Texts of one length are in the order of their
numbers (`text_lt_text_iff`), and the time of making stands in front of a number
(`lt_of_timestamp_lt`), so ids are in the order of their texts and of their times. -/
namespace Restock

namespace Ulid

variable {u v : Ulid} {s : String} {n : Nat}

/-! ### Texts -/

/-- The digits of the text, in either case and most significant first, stand for `n`. -/
def Spells (s : String) (n : Nat) : Prop :=
  ∃ ds : List Digit, ds.length = textLength ∧ ds.map glyph = s.toList.map Char.toUpper ∧
    value ds = n

/-- A text has two bits more than a ulid. -/
theorem bits_lt : 2 ^ 128 < 32 ^ textLength := by decide

theorem number_lt (u : Ulid) : u.number.toNat < 32 ^ textLength := u.number.isLt.trans bits_lt

theorem ofNat_number (u : Ulid) : ofNat u.number.toNat = u := by
  rw [ofNat, BitVec.ofNat_toNat, BitVec.setWidth_eq]

theorem spells_text (u : Ulid) : Spells u.text u.number.toNat := by
  obtain ⟨ds, length, number⟩ := exists_value_eq u.number_lt
  refine ⟨ds, length, ?_, number⟩
  rw [text, ← number, ← length, digits_value, String.toList_ofList, List.map_map]
  exact List.map_congr_left fun d _ => (toUpper_glyph d).symm

namespace Spells

theorem lt (h : Spells s n) : n < 32 ^ textLength := by
  obtain ⟨ds, length, -, rfl⟩ := h
  exact length ▸ value_lt ds

theorem toUpper_eq (h : Spells s n) : s.toUpper = String.ofList (digits textLength n) := by
  obtain ⟨ds, length, same, rfl⟩ := h
  rw [← length, digits_value, same, ← String.toList_map, String.ofList_toList]
  rfl

/-- The text comes back in upper case if all its digits have bits in the ulid. -/
theorem text_eq_iff (h : Spells s n) : (ofNat n).text = s.toUpper ↔ n < 2 ^ 128 := by
  have number : (ofNat n).number.toNat = n % 2 ^ 128 := BitVec.toNat_ofNat ..
  rw [h.toUpper_eq, text, number, String.ofList_inj]
  constructor
  · intro same
    have small : n % 2 ^ 128 < 2 ^ 128 := Nat.mod_lt _ (by decide)
    exact (strictMonoOn_digits _).injOn (small.trans bits_lt) h.lt same ▸ small
  · intro small
    rw [Nat.mod_eq_of_lt small]

/-- Of the first digit only three bits are in the ulid. -/
theorem head_le_iff (h : Spells s n) : (∀ c ∈ s.toList.head?, c ≤ '7') ↔ n < 2 ^ 128 := by
  obtain ⟨ds, length, same, rfl⟩ := h
  obtain ⟨d, ds, rfl⟩ := List.exists_cons_of_length_eq_add_one length
  obtain ⟨c, cs, chars⟩ := List.exists_cons_of_length_eq_add_one
    (by simpa [length] using (congrArg List.length same).symm)
  rw [chars] at same ⊢
  obtain ⟨first, -⟩ := List.cons.inj same
  have rest : ds.length = 25 := Nat.succ.inj length
  have small := value_lt ds
  rw [rest] at small
  have head : (∀ a ∈ (c :: cs).head?, a ≤ '7') ↔ d.val < 8 := by
    rw [← glyph_le_seven_iff, first, toUpper_le_seven_iff]
    simp
  rw [head, value_cons, rest]
  omega

end Spells

theorem parse_eq_ok_iff : parse s = .ok u ↔ ∃ n, Spells s n ∧ ofNat n = u := by
  constructor
  · intro read
    unfold parse at read
    split at read
    · contradiction
    next size =>
    split at read
    · contradiction
    next ns digits =>
    obtain ⟨ds, rfl, same⟩ := mapM_digitValue?_eq_some_iff.1 digits
    refine ⟨value ds, ⟨ds, ?_, same, rfl⟩, ?_⟩
    · rw [← utf8ByteSize_eq_length same]
      exact not_not.1 size
    · rw [← foldl_eq_value]
      exact Except.ok.inj read
  · rintro ⟨_, ⟨ds, length, same, rfl⟩, rfl⟩
    have size : ¬ s.utf8ByteSize ≠ textLength :=
      not_not.2 ((utf8ByteSize_eq_length same).trans length)
    have digits := mapM_digitValue?_eq_some_iff.2 ⟨ds, rfl, same⟩
    rw [parse, if_neg size, digits, ← foldl_eq_value]

theorem parse_text (u : Ulid) : parse u.text = .ok u :=
  parse_eq_ok_iff.2 ⟨_, u.spells_text, u.ofNat_number⟩

theorem text_eq_toUpper_iff (read : parse s = .ok u) :
    u.text = s.toUpper ↔ ∀ c ∈ s.toList.head?, c ≤ '7' := by
  obtain ⟨n, spells, rfl⟩ := parse_eq_ok_iff.1 read
  exact spells.text_eq_iff.trans spells.head_le_iff.symm

/-! ### Order and time -/

theorem lt_iff : u < v ↔ u.number.toNat < v.number.toNat := BitVec.lt_def

theorem text_lt_text_iff : u.text < v.text ↔ u < v := by
  rw [String.lt_iff_toList_lt, text, text, String.toList_ofList, String.toList_ofList, lt_iff]
  exact (strictMonoOn_digits _).lt_iff_lt u.number_lt v.number_lt

theorem timestamp_ofParts (millis tail : Nat) :
    (ofParts millis tail).timestamp = millis % 2 ^ timestampBits := by
  have time : millis % 2 ^ 48 < 2 ^ 48 := Nat.mod_lt _ (by decide)
  have rest : tail % 2 ^ 80 < 2 ^ 80 := Nat.mod_lt _ (by decide)
  simp only [timestamp, ofParts, ofNat, BitVec.toNat_ofNat, Nat.shiftLeft_eq,
    Nat.shiftRight_eq_div_pow, timestampBits, tailBits]
  omega

/-- Whatever follows the time, the earlier ulid is the smaller one. -/
theorem lt_of_timestamp_lt (earlier : u.timestamp < v.timestamp) : u < v := by
  rw [timestamp, timestamp, Nat.shiftRight_eq_div_pow, Nat.shiftRight_eq_div_pow] at earlier
  exact lt_iff.2 (Nat.lt_of_div_lt_div earlier)

end Ulid

namespace Id

variable {k : Kind} {i j : Id k}

theorem display_lt_display_iff : i.display < j.display ↔ i.ulid < j.ulid := by
  have label : StrictMono fun s : String => k.name ++ "-" ++ s := by
    intro s t less
    simp only [String.lt_iff_toList_lt, String.toList_append] at less ⊢
    exact List.append_left_lt less
  exact label.lt_iff_lt.trans Ulid.text_lt_text_iff

theorem compare_display (i j : Id k) : compare i.display j.display = compare i.ulid j.ulid := by
  have number : compare i.ulid j.ulid = compare i.ulid.number.toNat j.ulid.number.toNat := rfl
  rw [number]
  rcases lt_trichotomy i.ulid.number.toNat j.ulid.number.toNat with less | same | more
  · rw [compare_lt_iff_lt.2 less, compare_lt_iff_lt]
    exact display_lt_display_iff.2 (Ulid.lt_iff.2 less)
  · have text : i.display = j.display := by rw [display, display, Ulid.text, Ulid.text, same]
    rw [text, same, compare_eq_iff_eq.2 rfl, compare_eq_iff_eq.2 rfl]
  · rw [compare_gt_iff_gt.2 more, compare_gt_iff_gt]
    exact display_lt_display_iff.2 (Ulid.lt_iff.2 more)

/-- A reading of the clock comes back, as far as a ulid has bits for it. -/
theorem timestamp_generate {clock : Int} (low : 0 ≤ clock) (high : clock < 2 ^ 48) (tail : Nat) :
    ((generate clock tail : Id k).ulid.timestamp : Int) = clock := by
  rw [generate, Ulid.timestamp_ofParts, Ulid.timestampBits]
  omega

/-! ### Ids in JSON -/

/-- An id is read where a string is read that is the text of a ulid. -/
theorem decode_eq_ok_iff {source : Json.Source} {t : Json.Tree} :
    decode source t = .ok i ↔
      ∃ s, Json.decodeString source t = .ok s ∧ Ulid.parse s = .ok i.ulid := by
  constructor
  · intro read
    obtain ⟨u, made, rfl⟩ := Json.map_eq_ok read
    rw [Ulid.decode] at made
    obtain ⟨s, string, made⟩ := bind_eq_ok_iff.1 made
    refine ⟨s, string, ?_⟩
    split at made
    · next parsed =>
      cases made
      exact parsed
    · contradiction
  · rintro ⟨s, string, read⟩
    simp only [decode, Ulid.decode, string, Json.ok_bind, read]
    rfl

theorem decodeText_eq_ok_iff {text : String} :
    Json.decodeText decode text = .ok i ↔
      ∃ s, Json.decodeText Json.decodeString text = .ok s ∧ Ulid.parse s = .ok i.ulid := by
  simp only [Json.decodeText_eq_ok_iff, decode_eq_ok_iff]
  constructor
  · rintro ⟨⟨s, string, read⟩, ended⟩
    exact ⟨s, ⟨string, ended⟩, read⟩
  · rintro ⟨s, ⟨string, ended⟩, read⟩
    exact ⟨⟨s, string, read⟩, ended⟩

/-- **Ids sort by time and survive text.** Of two ids the one made in an earlier millisecond is
the smaller one, whatever their tails are, and its text comes first; each has the reading of
its clock in it. All ids of a kind are in the order of their texts. An id is written as the 26
digits of its number and read back. What is read is any such text, in either case and with no
other letters, and it is written in upper case if and only if its first digit is at most 7. -/
theorem ids_sort_by_time_and_survive_text :
    (∀ (t₁ t₂ : Int) (r₁ r₂ : Nat), 0 ≤ t₁ → t₁ < t₂ → t₂ < 2 ^ 48 →
      (generate t₁ r₁ : Id k).ulid < (generate t₂ r₂ : Id k).ulid ∧
      (generate t₁ r₁ : Id k).display < (generate t₂ r₂ : Id k).display ∧
      ((generate t₁ r₁ : Id k).ulid.timestamp : Int) = t₁ ∧
      ((generate t₂ r₂ : Id k).ulid.timestamp : Int) = t₂) ∧
    (∀ i j : Id k, (i.display < j.display ↔ i.ulid < j.ulid) ∧
      compare i.display j.display = compare i.ulid j.ulid) ∧
    (∀ i : Id k, Ulid.Spells i.ulid.text i.ulid.number.toNat ∧
      Json.decodeText decode i.toJson.text = .ok i ∧ Json.decodeValue decode i.toJson = .ok i) ∧
    (∀ (text : String) (i : Id k), Json.decodeText decode text = .ok i ↔
      ∃ s n, Json.decodeText Json.decodeString text = .ok s ∧ Ulid.Spells s n ∧
        .ofNat n = i.ulid) ∧
    ∀ (text s : String) (i : Id k), Json.decodeText Json.decodeString text = .ok s →
      Json.decodeText decode text = .ok i →
      (i.toJson = .string s.toUpper ↔ ∀ c ∈ s.toList.head?, c ≤ '7') := by
  refine ⟨fun t₁ t₂ r₁ r₂ low earlier high => ?time,
    fun i j => ⟨display_lt_display_iff, compare_display i j⟩, fun i => ?own, fun text i => ?read,
    fun text s i string read => ?upper⟩
  case time =>
    have first := timestamp_generate (k := k) low (earlier.trans high) r₁
    have second := timestamp_generate (k := k) (low.trans earlier.le) high r₂
    have less : (generate t₁ r₁ : Id k).ulid < (generate t₂ r₂ : Id k).ulid :=
      Ulid.lt_of_timestamp_lt (by omega)
    exact ⟨less, display_lt_display_iff.2 less, first, second⟩
  case own =>
    have own := i.ulid.parse_text
    exact ⟨i.ulid.spells_text, decodeText_eq_ok_iff.2 ⟨_, Json.decodeText_string _, own⟩,
      decode_eq_ok_iff.2 ⟨_, rfl, own⟩⟩
  case read => simp only [decodeText_eq_ok_iff, Ulid.parse_eq_ok_iff, exists_and_left]
  case upper =>
    obtain ⟨s', string', parsed⟩ := decodeText_eq_ok_iff.1 read
    obtain rfl := Except.ok.inj (string.symm.trans string')
    rw [← Ulid.text_eq_toUpper_iff parsed, toJson, Json.string.injEq]

/-- Two tasks made one after the other at noon, the first with the greatest tail there is. -/
def noonTask : TaskId := .generate 1704110400000 (2 ^ 80 - 1)

def nextTask : TaskId := .generate 1704110400001 0

/-- The greatest ulid there is, in lower case and with an escaped digit. -/
def lastText : String := "\"\\u0037zzzzzzzzzzzzzzzzzzzzzzzzz\""

theorem ids_of_a_noon :
    (noonTask.ulid < nextTask.ulid ∧ noonTask.display < nextTask.display ∧
      noonTask.ulid.timestamp = (1704110400000 : Int) ∧
      nextTask.ulid.timestamp = (1704110400001 : Int)) ∧
    noonTask.display = "task-01HK2EA8G0ZZZZZZZZZZZZZZZZ" ∧
    ∃ (s : String) (i : TaskId), Json.decodeText Json.decodeString lastText = .ok s ∧
      Json.decodeText decode lastText = .ok i ∧ i.toJson = .string s.toUpper ∧
      s.toUpper = "7ZZZZZZZZZZZZZZZZZZZZZZZZZ" := by
  obtain ⟨time, -, -, -, upper⟩ := ids_sort_by_time_and_survive_text (k := .task)
  have string : Json.decodeText Json.decodeString lastText = .ok "7zzzzzzzzzzzzzzzzzzzzzzzzz" := by
    decide +kernel
  have read : Json.decodeText decode lastText = .ok (⟨⟨.allOnes 128⟩⟩ : TaskId) := by
    decide +kernel
  have first : ∀ c ∈ "7zzzzzzzzzzzzzzzzzzzzzzzzz".toList.head?, c ≤ '7' := by
    intro c first
    obtain rfl : '7' = c := Option.some.inj first
    exact le_rfl
  exact ⟨time _ _ _ _ (by decide) (by decide) (by decide), by decide +kernel, _, _, string, read,
    (upper _ _ _ string read).2 first, by decide +kernel⟩

end Id

end Restock
