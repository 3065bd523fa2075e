import Restock.Json.Printer
import Restock.Proofs.Json.Records
import Restock.Word

/-! Values that are read back.

A value `Fits` a source if it may stand there: its containers are not nested deeper
than the source allows, and the members of its objects are in their places. Exactly
such values come out of a reader of values of any kind (`toJson_ofJson`,
`fits_of_toJson`). Numbers, words, options and lists are read back as they were written;
for a whole value `ReadsBack` says so, for the value at hand and for its text. -/
namespace Restock.Json

/-! ### Room in a source -/

namespace Source

/-- The source of what a container in it holds. -/
def inside : Source → Source
  | .text room => .text (room - 1)
  | .value => .value

/-- So many containers may be opened, each inside the one before. -/
def Allows : Source → Nat → Prop
  | .text room, n => n ≤ room
  | .value, _ => True

variable {source inner : Source} {m n : Nat}

theorem enter_eq_ok_iff : source.enter = .ok inner ↔ source.Allows 1 ∧ inner = source.inside := by
  cases source with
  | text room =>
    cases room with
    | zero => exact ⟨fun h => by contradiction, fun h => absurd h.1 (by simp [Allows])⟩
    | succ room => simp [enter, Allows, inside, eq_comm]
  | value => simp [enter, Allows, inside, eq_comm]

theorem Allows.mono (h : source.Allows n) (le : m ≤ n) : source.Allows m := by
  cases source with
  | text room => exact Nat.le_trans le h
  | value => trivial

theorem Allows.enter (h : source.Allows (n + 1)) : source.enter = .ok source.inside :=
  enter_eq_ok_iff.2 ⟨h.mono (Nat.le_add_left 1 n), rfl⟩

theorem Allows.inside (h : source.Allows (n + 1)) : source.inside.Allows n := by
  cases source with
  | text room => exact Nat.le_sub_one_of_lt h
  | value => trivial

end Source

/-! ### Values of any kind -/

mutual

/-- The value may stand in the source. -/
def Fits : Source → Json → Prop
  | source, .array items => source.Allows 1 ∧ ItemsFit source.inside items
  | source, .object members => source.Allows 1 ∧ Ordered members ∧ MembersFit source.inside members
  | _, _ => True

def ItemsFit : Source → List Json → Prop
  | _, [] => True
  | source, v :: vs => v.Fits source ∧ ItemsFit source vs

def MembersFit : Source → List (String × Json) → Prop
  | _, [] => True
  | source, (_, v) :: ms => v.Fits source ∧ MembersFit source ms

end

/-- The members of all objects in the value are in their places, as they are in every
value that is read. -/
def Proper (v : Json) : Prop := v.Fits .value

section
variable {source : Source} {ms : List (String × Json)}

theorem membersFit_iff : MembersFit source ms ↔ ∀ m ∈ ms, m.2.Fits source := by
  induction ms with
  | nil => simp [MembersFit]
  | cons m ms ih =>
    obtain ⟨k, v⟩ := m
    simp [MembersFit, ih]

/-- A member of an object that fits has a value that fits there. -/
theorem Fits.of_mem {m : String × Json} (h : (ofMembers ms).Fits source)
    (names : (ms.map Prod.fst).Nodup) (hm : m ∈ ms) : m.2.Fits source.inside := by
  rw [ofMembers, Fits] at h
  exact membersFit_iff.1 h.2.2 m ((perm_sortMembers names).mem_iff.2 hm)

end

mutual

theorem toJson_ofJson : ∀ (source : Source) (v : Json), v.Fits source →
    (Tree.ofJson v).toJson source = .ok v
  | _, .null, _ | _, .bool _, _ | _, .int _, _ | _, .float _, _ | _, .string _, _ => by
    simp [Tree.ofJson, Tree.toJson, numberOf, wanted, Except.mapError, Except.map, ok_bind]
  | source, .array items, h => by
    rw [Fits] at h
    simp only [Tree.ofJson, Tree.toJson, h.1.enter, ok_bind, itemsToJson_ofItems _ items h.2]
    rfl
  | source, .object members, h => by
    rw [Fits] at h
    simp only [Tree.ofJson, Tree.toJson, h.1.enter, ok_bind,
      membersToJson_ofJsonMembers _ members h.2.2, ofMembers, sortMembers_of_ordered h.2.1]
    rfl

theorem itemsToJson_ofItems : ∀ (source : Source) (vs : List Json), ItemsFit source vs →
    itemsToJson source .closed (Tree.ofItems vs) = .ok vs
  | _, [], _ => rfl
  | source, v :: vs, h => by
    rw [ItemsFit] at h
    simp only [Tree.ofItems, itemsToJson, toJson_ofJson source v h.1, ok_bind,
      itemsToJson_ofItems source vs h.2]
    rfl

theorem membersToJson_ofJsonMembers : ∀ (source : Source) (ms : List (String × Json)),
    MembersFit source ms → membersToJson source .closed (Tree.ofJsonMembers ms) = .ok ms
  | _, [], _ => rfl
  | source, (k, v) :: ms, h => by
    rw [MembersFit] at h
    simp only [Tree.ofJsonMembers, membersToJson, wanted_ok, toJson_ofJson source v h.1, ok_bind,
      membersToJson_ofJsonMembers source ms h.2]
    rfl

end

mutual

theorem fits_of_toJson : ∀ (source : Source) (t : Tree) (v : Json), t.toJson source = .ok v →
    v.Fits source
  | _, .null, _, h | _, .bool _, _, h => by
    cases h
    trivial
  | _, .number n, v, h => by
    rw [Tree.toJson] at h
    obtain ⟨k, -, h⟩ := bind_eq_ok_iff.1 h
    cases k <;> cases h <;> trivial
  | _, .string (.ok _), _, h => by
    cases h
    trivial
  | _, .string (.error _), _, h | _, .missing, _, h | _, .broken _ _ _, _, h => by
    rw [Tree.toJson] at h
    contradiction
  | source, .array items stop, v, h => by
    rw [Tree.toJson] at h
    obtain ⟨inner, enter, h⟩ := bind_eq_ok_iff.1 h
    obtain ⟨vs, read, h⟩ := bind_eq_ok_iff.1 h
    cases h
    obtain ⟨room, rfl⟩ := Source.enter_eq_ok_iff.1 enter
    rw [Fits]
    exact ⟨room, itemsFit_of_itemsToJson _ stop items vs read⟩
  | source, .object members stop, v, h => by
    rw [Tree.toJson] at h
    obtain ⟨inner, enter, h⟩ := bind_eq_ok_iff.1 h
    obtain ⟨ms, read, h⟩ := bind_eq_ok_iff.1 h
    cases h
    obtain ⟨room, rfl⟩ := Source.enter_eq_ok_iff.1 enter
    rw [ofMembers, Fits]
    have fit := membersFit_iff.1 (membersFit_of_membersToJson _ stop members ms read)
    exact ⟨room, ordered_sortMembers ms,
      membersFit_iff.2 fun m hm => fit m (mem_of_mem_sortMembers hm)⟩

theorem itemsFit_of_itemsToJson : ∀ (source : Source) (stop : Stop) (ts : List Tree)
    (vs : List Json), itemsToJson source stop ts = .ok vs → ItemsFit source vs
  | _, stop, [], vs, h => by
    rw [itemsToJson] at h
    obtain rfl := finish_eq_ok h
    trivial
  | source, stop, t :: ts, vs, h => by
    rw [itemsToJson] at h
    obtain ⟨v, first, h⟩ := bind_eq_ok_iff.1 h
    obtain ⟨rest, others, h⟩ := bind_eq_ok_iff.1 h
    cases h
    rw [ItemsFit]
    exact ⟨fits_of_toJson source t v first, itemsFit_of_itemsToJson source stop ts rest others⟩

theorem membersFit_of_membersToJson : ∀ (source : Source) (stop : Stop)
    (ts : List (Except Fault String × Tree)) (ms : List (String × Json)),
    membersToJson source stop ts = .ok ms → MembersFit source ms
  | _, stop, [], ms, h => by
    rw [membersToJson] at h
    obtain rfl := finish_eq_ok h
    trivial
  | source, stop, (_, t) :: ts, ms, h => by
    rw [membersToJson] at h
    obtain ⟨k, -, h⟩ := bind_eq_ok_iff.1 h
    obtain ⟨v, first, h⟩ := bind_eq_ok_iff.1 h
    obtain ⟨rest, others, h⟩ := bind_eq_ok_iff.1 h
    cases h
    rw [MembersFit]
    exact ⟨fits_of_toJson source t v first, membersFit_of_membersToJson source stop ts rest others⟩

end

theorem fits_iff {source : Source} {v : Json} :
    v.Fits source ↔ (Tree.ofJson v).toJson source = .ok v :=
  ⟨toJson_ofJson source v, fits_of_toJson source _ v⟩

instance (source : Source) (v : Json) : Decidable (v.Fits source) :=
  decidable_of_iff _ fits_iff.symm

instance (v : Json) : Decidable v.Proper := inferInstanceAs (Decidable (v.Fits .value))

/-! ### Values of one kind -/

section
variable {source : Source} {α β : Type}

theorem decodeString_ofJson (s : String) :
    decodeString source (Tree.ofJson (.string s)) = .ok s := rfl

theorem decodeNat_ofNat {limit n : Nat} (h : n < limit) (expected : Expected) :
    decodeNat limit expected source (Tree.ofJson (.ofNat n)) = .ok n := by
  have within : 0 ≤ (n : Int) ∧ (n : Int) < limit := by omega
  simp only [Json.ofNat, Tree.ofJson, decodeNat, numberOf, ok_bind, if_pos within, Int.toNat_natCast]

theorem decodeU64_ofNat {n : Nat} (h : n < 1 <<< 64) :
    decodeU64 source (Tree.ofJson (.ofNat n)) = .ok (.ofNat n) := by
  rw [decodeU64, decodeNat_ofNat h]
  rfl

theorem decodeU32_ofNat {n : Nat} (h : n < 1 <<< 32) :
    decodeU32 source (Tree.ofJson (.ofNat n)) = .ok (.ofNat n) := by
  rw [decodeU32, decodeNat_ofNat h]
  rfl

theorem decodeSize_toNat (n : UInt64) :
    decodeSize source (Tree.ofJson (.ofNat n.toNat)) = .ok n := by
  have below : n.toNat < 1 <<< 64 := n.toNat_lt
  rw [decodeSize, decodeNat_ofNat below]
  exact congrArg Except.ok UInt64.ofNat_toNat

theorem decodeFloat_ofFloat {x : Float} (finite : x.isFinite = true) :
    decodeFloat source (Tree.ofJson (.ofFloat x)) = .ok x := by
  rw [ofFloat, if_pos finite]
  rfl

/-- A value that is there is read as such, unless it is written as `null`. -/
theorem decodeOption_some {decode : Decoder α} {v : Json} {a : α} (given : v.isNull = false)
    (back : decode source (Tree.ofJson v) = .ok a) :
    decodeOption decode source (Tree.ofJson v) = .ok (some a) := by
  unfold decodeOption
  split
  · next none => cases v <;> simp_all [Tree.ofJson, isNull]
  · next broken => cases v <;> simp [Tree.ofJson] at broken
  · rw [back]
    rfl

theorem decodeItems_map {decode : Decoder α} {f : α → Json} {as : List α}
    (back : ∀ a ∈ as, decode source (Tree.ofJson (f a)) = .ok a) :
    decodeItems decode source .closed (Tree.ofItems (as.map f)) = .ok as := by
  induction as with
  | nil => rfl
  | cons a as ih =>
    simp only [List.map_cons, Tree.ofItems, decodeItems, back a List.mem_cons_self, ok_bind,
      ih fun b hb => back b (List.mem_cons_of_mem _ hb)]
    rfl

theorem decodeList_map {decode : Decoder α} {f : α → Json} {as : List α} (room : source.Allows 1)
    (back : ∀ a ∈ as, decode source.inside (Tree.ofJson (f a)) = .ok a) :
    decodeList decode source (Tree.ofJson (.array (as.map f))) = .ok as := by
  simp only [Tree.ofJson, decodeList, room.enter, ok_bind, decodeItems_map back]

theorem of_mem_decodeItems {decode : Decoder α} {stop : Stop} {ts : List Tree} {as : List α}
    (h : decodeItems decode source stop ts = .ok as) {a : α} (ha : a ∈ as) :
    ∃ t, decode source t = .ok a := by
  induction ts generalizing as with
  | nil =>
    rw [decodeItems] at h
    obtain rfl := finish_eq_ok h
    cases ha
  | cons t ts ih =>
    rw [decodeItems] at h
    obtain ⟨b, first, h⟩ := bind_eq_ok_iff.1 h
    obtain ⟨bs, others, h⟩ := bind_eq_ok_iff.1 h
    cases h
    rcases List.mem_cons.1 ha with rfl | ha
    · exact ⟨t, first⟩
    · exact ih others ha

/-- Each element of a list that is read was read inside the list. -/
theorem of_mem_decodeList {decode : Decoder α} {t : Tree} {as : List α}
    (h : decodeList decode source t = .ok as) {a : α} (ha : a ∈ as) :
    source.Allows 1 ∧ ∃ t, decode source.inside t = .ok a := by
  unfold decodeList at h
  split at h
  · obtain ⟨inner, enter, h⟩ := bind_eq_ok_iff.1 h
    obtain ⟨room, rfl⟩ := Source.enter_eq_ok_iff.1 enter
    exact ⟨room, of_mem_decodeItems h ha⟩
  · obtain ⟨_, -, h⟩ := bind_eq_ok_iff.1 h
    contradiction

end

/-! ### Texts -/

/-- The text of the value is read as the value itself, and nothing follows it. -/
def Legible (v : Json) : Prop := Document.ofText v.text = ⟨Tree.ofJson v, true⟩

/-- A value that is read back as `a`: at hand, and from its text if that is not nested
too deep for one. -/
structure ReadsBack {α : Type} (decode : Decoder α) (v : Json) (a : α) : Prop where
  atHand : decodeValue decode v = .ok a
  fromText : v.Legible → v.Fits (.text maxDepth) → decodeText decode v.text = .ok a

section
variable {α : Type} {decode : Decoder α} {v : Json} {a : α}

theorem decodeText_text (legible : v.Legible) (decode : Decoder α) :
    decodeText decode v.text = decode (.text maxDepth) (Tree.ofJson v) := by
  have document : Document.ofText v.text = ⟨Tree.ofJson v, true⟩ := legible
  simp only [decodeText, document, if_true]
  exact bind_pure _

/-- What a text is read as stands at its root, and nothing follows it. -/
theorem decodeText_eq_ok_iff {s : String} :
    decodeText decode s = .ok a ↔
      decode (.text maxDepth) (Document.ofText s).root = .ok a ∧
        (Document.ofText s).ended = true := by
  constructor
  · intro h
    obtain ⟨b, root, h⟩ := bind_eq_ok_iff.1 h
    split at h
    · next ended =>
      cases h
      exact ⟨root, ended⟩
    · contradiction
  · rintro ⟨root, ended⟩
    exact bind_eq_ok_iff.2 ⟨a, root, if_pos ended⟩

theorem readsBack_of (atHand : decode .value (Tree.ofJson v) = .ok a)
    (fromText : v.Fits (.text maxDepth) → decode (.text maxDepth) (Tree.ofJson v) = .ok a) :
    ReadsBack decode v a :=
  ⟨atHand, fun legible fits => (decodeText_text legible decode).trans (fromText fits)⟩

end

mutual

/-- The value that a tree without a fault stands for. -/
def Tree.value? : Tree → Option Json
  | .null => some .null
  | .bool b => some (.bool b)
  | .number (some (.int n)) => some (.int n)
  | .number (some (.float x)) => some (.float x)
  | .string (.ok s) => some (.string s)
  | .array items .closed => (Tree.items? items).map .array
  | .object members .closed => (Tree.members? members).map .object
  | _ => none

def Tree.items? : List Tree → Option (List Json)
  | [] => some []
  | t :: ts => t.value?.bind fun v => (Tree.items? ts).map (v :: ·)

def Tree.members? : List (Except Fault String × Tree) → Option (List (String × Json))
  | [] => some []
  | (.ok k, t) :: ts => t.value?.bind fun v => (Tree.members? ts).map ((k, v) :: ·)
  | (.error _, _) :: _ => none

end

mutual

theorem Tree.value?_ofJson : ∀ v : Json, (Tree.ofJson v).value? = some v
  | .null | .bool _ | .int _ | .float _ | .string _ => by simp [Tree.ofJson, Tree.value?]
  | .array vs => by simp [Tree.ofJson, Tree.value?, Tree.items?_ofItems vs]
  | .object ms => by simp [Tree.ofJson, Tree.value?, Tree.members?_ofJsonMembers ms]

theorem Tree.items?_ofItems : ∀ vs : List Json, Tree.items? (Tree.ofItems vs) = some vs
  | [] => rfl
  | v :: vs => by
    simp [Tree.ofItems, Tree.items?, Tree.value?_ofJson v, Tree.items?_ofItems vs]

theorem Tree.members?_ofJsonMembers : ∀ ms : List (String × Json),
    Tree.members? (Tree.ofJsonMembers ms) = some ms
  | [] => rfl
  | (k, v) :: ms => by
    simp [Tree.ofJsonMembers, Tree.members?, Tree.value?_ofJson v, Tree.members?_ofJsonMembers ms]

end

mutual

theorem Tree.ofJson_of_value? : ∀ (t : Tree) (v : Json), t.value? = some v → .ofJson v = t
  | .null, _, h | .bool _, _, h | .number (some (.int _)), _, h
  | .number (some (.float _)), _, h | .string (.ok _), _, h => by
    cases h
    rfl
  | .number none, _, h | .string (.error _), _, h | .missing, _, h | .broken .., _, h
  | .array _ (.unclosed _), _, h | .array _ (.noKey ..), _, h
  | .object _ (.unclosed _), _, h | .object _ (.noKey ..), _, h => by
    simp [Tree.value?] at h
  | .array ts .closed, v, h => by
    rw [Tree.value?] at h
    obtain ⟨vs, items, rfl⟩ := Option.map_eq_some_iff.1 h
    rw [Tree.ofJson, Tree.ofItems_of_items? ts vs items]
  | .object ts .closed, v, h => by
    rw [Tree.value?] at h
    obtain ⟨ms, members, rfl⟩ := Option.map_eq_some_iff.1 h
    rw [Tree.ofJson, Tree.ofJsonMembers_of_members? ts ms members]

theorem Tree.ofItems_of_items? : ∀ (ts : List Tree) (vs : List Json), Tree.items? ts = some vs →
    Tree.ofItems vs = ts
  | [], _, h => by
    cases h
    rfl
  | t :: ts, _, h => by
    rw [Tree.items?] at h
    obtain ⟨v, first, h⟩ := Option.bind_eq_some_iff.1 h
    obtain ⟨vs, rest, rfl⟩ := Option.map_eq_some_iff.1 h
    rw [Tree.ofItems, Tree.ofJson_of_value? t v first, Tree.ofItems_of_items? ts vs rest]

theorem Tree.ofJsonMembers_of_members? : ∀ (ts : List (Except Fault String × Tree))
    (ms : List (String × Json)), Tree.members? ts = some ms → Tree.ofJsonMembers ms = ts
  | [], _, h => by
    cases h
    rfl
  | (.error _, _) :: _, _, h => by simp [Tree.members?] at h
  | (.ok k, t) :: ts, _, h => by
    rw [Tree.members?] at h
    obtain ⟨v, first, h⟩ := Option.bind_eq_some_iff.1 h
    obtain ⟨ms, rest, rfl⟩ := Option.map_eq_some_iff.1 h
    rw [Tree.ofJsonMembers, Tree.ofJson_of_value? t v first,
      Tree.ofJsonMembers_of_members? ts ms rest]

end

def stringChars (s : String) : List Char := '"' :: (s.toList.flatMap escapeChar ++ ['"'])

theorem toList_stringText (s : String) : (stringText s).toList = stringChars s := by
  simp [stringText, stringChars, String.toList_append]

mutual

/-- The characters of the text, as one list. What a text is read as is decided on its
characters, so that no strings have to be joined for it. -/
def chars : Json → List Char
  | .string s => stringChars s
  | .array items => '[' :: (itemsChars items ++ [']'])
  | .object members => '\x7b' :: (membersChars members ++ ['\x7d'])
  | v => v.text.toList

def itemsChars : List Json → List Char
  | [] => []
  | [v] => v.chars
  | v :: w :: rest => v.chars ++ ',' :: itemsChars (w :: rest)

def membersChars : List (String × Json) → List Char
  | [] => []
  | [(k, v)] => stringChars k ++ ':' :: v.chars
  | (k, v) :: m :: rest => stringChars k ++ ':' :: (v.chars ++ ',' :: membersChars (m :: rest))

end

mutual

theorem toList_text : ∀ v : Json, v.text.toList = v.chars
  | .null | .bool _ | .int _ | .float _ => rfl
  | .string s => by rw [text, toList_stringText, chars]
  | .array items => by
    simp [text, chars, String.toList_append, toList_itemsText items]
  | .object members => by
    simp [text, chars, String.toList_append, toList_membersText members]

theorem toList_itemsText : ∀ vs : List Json, (itemsText vs).toList = itemsChars vs
  | [] => rfl
  | [v] => by rw [itemsText, itemsChars, toList_text v]
  | v :: w :: rest => by
    simp [itemsText, itemsChars, String.toList_append, toList_text v, toList_itemsText (w :: rest)]

theorem toList_membersText : ∀ ms : List (String × Json), (membersText ms).toList = membersChars ms
  | [] => rfl
  | [(k, v)] => by
    simp [membersText, membersChars, String.toList_append, toList_stringText, toList_text v]
  | (k, v) :: m :: rest => by
    simp [membersText, membersChars, String.toList_append, toList_stringText, toList_text v,
      toList_membersText (m :: rest)]

end

theorem legible_iff {v : Json} :
    v.Legible ↔
      (Tree.readValue [] (Token.scan v.chars)).1.value? = some v ∧
        (Tree.readValue [] (Token.scan v.chars)).2.isEmpty = true := by
  rw [Legible, Document.ofText, toList_text]
  constructor
  · intro same
    obtain ⟨root, ended⟩ := Document.mk.inj same
    exact ⟨root ▸ Tree.value?_ofJson v, ended⟩
  · rintro ⟨root, ended⟩
    rw [Tree.ofJson_of_value? _ _ root, ← ended]

instance (v : Json) : Decidable v.Legible := decidable_of_iff _ legible_iff.symm

end Restock.Json

namespace Restock.Word

/-- Words that tell the values apart. -/
class Distinct (α : Type) [Word α] : Prop where
  mem_all : ∀ a : α, a ∈ (all : List α)
  word_inj : ∀ a b : α, word b = word a → b = a

variable {α : Type} [Word α] [Distinct α]

theorem variant_word (a : α) : Json.variant variants (word a) = .ok a := by
  have found := lookup_map_word a (Distinct.mem_all a) fun b _ => Distinct.word_inj a b
  simp only [Json.variant, variants, found]

theorem decode_toJson {source : Json.Source} (a : α) :
    decode source (Json.Tree.ofJson (toJson a)) = .ok a := by
  simp only [decode, toJson, Json.Tree.ofJson, Json.decodeVariant, Json.wanted_ok, Json.ok_bind,
    variant_word]

end Restock.Word
