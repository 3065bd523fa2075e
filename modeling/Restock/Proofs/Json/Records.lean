import Mathlib.Data.List.Nodup
import Mathlib.Data.List.Pairwise
import Restock.Json.Decode
import Restock.Proofs.Json.Members

/-! Records and their members.

A record is written as members in any order and read back by a schema member by
member, in the order of their keys. `Spells` says that the members make the record when
they are read as they are written; if the fields of the schema are independent of each
other (`Apart`), they make the same record in every other order (`decode_ofMembers`).
Whatever else a schema reads, a property that its first record has and every field
keeps, the record that is read has too (`decodeAs_keeps`). -/
namespace Restock.Json

theorem finish_closed {α : Type} (a : α) : Stop.closed.finish a = .ok a := rfl

/-- An end that lets a container be read is a closed one. -/
theorem finish_eq_ok {α : Type} {stop : Stop} {a b : α} (h : stop.finish a = .ok b) : a = b := by
  cases stop with
  | closed => exact Except.ok.inj h
  | unclosed | noKey => contradiction

theorem wanted_ok {α : Type} (a : α) : wanted (.ok a) = .ok a := rfl

theorem ok_bind {α β : Type} (a : α) (f : α → Except Problem β) : (.ok a >>= f) = f a := rfl

theorem map_eq_ok {α β : Type} {r : Except Problem α} {f : α → β} {b : β} (h : r.map f = .ok b) :
    ∃ a, r = .ok a ∧ f a = b := by
  cases r with
  | error => contradiction
  | ok a => exact ⟨a, rfl, Except.ok.inj h⟩

/-- A member as it is written, and what reading it does to a record. -/
structure Entry (σ : Type) where
  name : String
  value : Json
  put : σ → σ

def Entry.member {σ : Type} (e : Entry σ) : String × Json := (e.name, e.value)

/-- The records that some entries make, one after the other. -/
def Entry.putAll {σ : Type} (es : List (Entry σ)) (v : σ) : σ := es.foldl (fun v e => e.put v) v

namespace Field

variable {σ α β : Type}

/-- It does not matter which of the fields is read first. -/
def Apart (f g : Field σ) : Prop :=
  ∀ ⦃source source' : Source⦄ ⦃t t' : Tree⦄ ⦃p q : σ → σ⦄, f.decode source t = .ok p →
    g.decode source' t' = .ok q → ∀ v, p (q v) = q (p v)

/-- Reading the field keeps a property of the record. -/
def Keeps (source : Source) (P : σ → Prop) (f : Field σ) : Prop :=
  ∀ ⦃t : Tree⦄ ⦃p : σ → σ⦄, f.decode source t = .ok p → ∀ v, P v → P (p v)

section
variable {name : String} {required : Bool} {decode : Decoder α} {put : α → σ → σ}
  {source : Source} {t : Tree} {p : σ → σ}

@[simp] theorem must_eq : must name decode put = ofDecoder name true decode put := rfl

@[simp] theorem may_eq : may name decode put = ofDecoder name false decode put := rfl

@[simp] theorem name_ofDecoder : (ofDecoder name required decode put).name = name := rfl

@[simp] theorem required_ofDecoder : (ofDecoder name required decode put).required = required := rfl

theorem ofDecoder_eq_ok (h : (ofDecoder name required decode put).decode source t = .ok p) :
    ∃ a, decode source t = .ok a ∧ p = put a := by
  obtain ⟨a, decoded, made⟩ := map_eq_ok h
  exact ⟨a, decoded, made.symm⟩

@[simp] theorem apart_ofDecoder {name' : String} {required' : Bool} {decode' : Decoder β}
    {put' : β → σ → σ} (h : ∀ a b v, put a (put' b v) = put' b (put a v)) :
    (ofDecoder name required decode put).Apart (ofDecoder name' required' decode' put') := by
  intro source source' t t' p q hp hq v
  obtain ⟨a, -, rfl⟩ := ofDecoder_eq_ok hp
  obtain ⟨b, -, rfl⟩ := ofDecoder_eq_ok hq
  exact h a b v

theorem keeps_ofDecoder {P : σ → Prop}
    (h : ∀ {t a}, decode source t = .ok a → ∀ v, P v → P (put a v)) :
    (ofDecoder name required decode put).Keeps source P := by
  intro t p hp
  obtain ⟨a, decoded, rfl⟩ := ofDecoder_eq_ok hp
  exact h decoded

end

instance : Std.Symm (Apart : Field σ → Field σ → Prop) where
  symm _ _ h _ _ _ _ _ _ hp hq v := (h hq hp v).symm

end Field

namespace Schema

variable {σ τ : Type} {s : Schema σ} {finish : σ → Except Problem τ} {source inner : Source}
  {stop : Stop} {es : List (Entry σ)} {e : Entry σ} {v : σ} {x : τ} {t : Tree}

@[simp] theorem fields_openRecord {name : String} {initial : σ} {fields : List (Field σ)} :
    (openRecord name initial fields).fields = fields := rfl

@[simp] theorem fields_closedRecord {name : String} {initial : σ} {fields : List (Field σ)} :
    (closedRecord name initial fields).fields = fields := rfl

/-- The field of its name reads the entry back. -/
def Reads (s : Schema σ) (source : Source) (e : Entry σ) : Prop :=
  ∃ f, s.fields.find? (fun f => f.name == e.name) = some f ∧
    f.decode source (Tree.ofJson e.value) = .ok e.put

theorem name_of_find? {name : String} {f : Field σ}
    (h : s.fields.find? (fun f => f.name == name) = some f) : f.name = name := by
  simpa using List.find?_some h

theorem reads_of {α : Type} {name : String} {required : Bool} {decode : Decoder α}
    {put : α → σ → σ} {value : Json} {a : α}
    (field : s.fields.find? (fun f => f.name == name) = some (.ofDecoder name required decode put))
    (back : decode source (Tree.ofJson value) = .ok a) :
    s.Reads source ⟨name, value, put a⟩ := by
  refine ⟨_, field, ?_⟩
  unfold Field.ofDecoder
  dsimp only
  rw [back]
  rfl

/-! ### What is written is read back -/

theorem decodeMembers_entries {seen : List String} (names : (es.map Entry.name).Nodup)
    (fresh : ∀ e ∈ es, e.name ∉ seen) (reads : ∀ e ∈ es, s.Reads source e)
    (given : ∀ f ∈ s.fields, f.required = true → f.name ∈ seen ∨ f.name ∈ es.map Entry.name) :
    s.decodeMembers finish source .closed seen v (Tree.ofJsonMembers (es.map Entry.member)) =
      finish (Entry.putAll es v) := by
  induction es generalizing seen v with
  | nil =>
    have none : s.missing? seen = none := by
      refine List.find?_eq_none.2 fun f among missing => ?_
      simp only [Bool.and_eq_true, Bool.not_eq_true', List.contains_eq_mem,
        decide_eq_false_iff_not] at missing
      exact (given f among missing.1).elim missing.2 List.not_mem_nil
    simp only [List.map_nil, Tree.ofJsonMembers, decodeMembers, finish_closed, none]
    rfl
  | cons e es ih =>
    obtain ⟨new, names⟩ := List.nodup_cons.1 names
    obtain ⟨f, field, back⟩ := reads e List.mem_cons_self
    have unseen : seen.contains e.name = false := by simpa using fresh e List.mem_cons_self
    have rest : s.decodeMembers finish source .closed (e.name :: seen) (e.put v)
        (Tree.ofJsonMembers (es.map Entry.member)) = finish (Entry.putAll es (e.put v)) := by
      refine ih names (fun e' among => ?_) (fun e' among => reads e' (List.mem_cons_of_mem _ among))
        fun f among required => ?_
      · rw [List.mem_cons, not_or]
        refine ⟨fun same => new ?_, fresh e' (List.mem_cons_of_mem _ among)⟩
        exact same ▸ List.mem_map_of_mem among
      · rw [List.mem_cons, or_assoc, or_left_comm, ← List.mem_cons]
        exact given f among required
    simp only [List.map_cons, Tree.ofJsonMembers, decodeMembers, Entry.member, wanted_ok, ok_bind,
      field, unseen, back, Bool.false_eq_true, if_false]
    exact rest

/-- Entries of different names may be read in any order. -/
theorem putAll_perm {es' : List (Entry σ)} (apart : s.fields.Pairwise Field.Apart)
    (names : (es.map Entry.name).Nodup) (reads : ∀ e ∈ es, s.Reads source e)
    (perm : es.Perm es') : Entry.putAll es v = Entry.putAll es' v := by
  refine perm.foldl_eq' (fun e he e' he' v => ?_) v
  by_cases same : e.name = e'.name
  · rw [List.inj_on_of_nodup_map names he he' same]
  · obtain ⟨f, field, back⟩ := reads e he
    obtain ⟨f', field', back'⟩ := reads e' he'
    have other : f ≠ f' := by
      rintro rfl
      exact same ((name_of_find? field).symm.trans (name_of_find? field'))
    have apart := apart.forall (List.mem_of_find?_eq_some field)
      (List.mem_of_find?_eq_some field') other
    exact (apart back back' v).symm

theorem decode_entries (apart : s.fields.Pairwise Field.Apart) (enter : source.enter = .ok inner)
    (names : (es.map Entry.name).Nodup) (reads : ∀ e ∈ es, s.Reads inner e)
    (given : ∀ f ∈ s.fields, f.required = true → f.name ∈ es.map Entry.name) :
    s.decodeAs finish source (Tree.ofJson (.ofMembers (es.map Entry.member))) =
      finish (Entry.putAll es s.initial) := by
  -- The members are read in the order of their keys.
  obtain ⟨es', sorted, perm⟩ := exists_sorted (f := Entry.member) names
  have sameNames := perm.map Entry.name
  rw [putAll_perm apart names reads perm]
  simp only [decodeAs, ofMembers, Tree.ofJson, sorted, enter, ok_bind]
  exact decodeMembers_entries (sameNames.nodup_iff.1 names) (fun _ _ => List.not_mem_nil)
    (fun e among => reads e (perm.mem_iff.2 among))
    fun f among required => .inr (sameNames.mem_iff.1 (given f among required))

/-- Reading the members in the order in which they are written makes the last record of
the first; none of them has one of the names that were seen. -/
inductive Spells (s : Schema σ) (source : Source) :
    List String → σ → List (String × Json) → σ → Prop
  | done {seen : List String} {v : σ} : s.Spells source seen v [] v
  | entry {seen : List String} {v w : σ} {ms : List (String × Json)} (e : Entry σ)
      (new : e.name ∉ seen) (reads : s.Reads source e)
      (rest : s.Spells source (e.name :: seen) (e.put v) ms w) :
      s.Spells source seen v (e.member :: ms) w

namespace Spells

variable {α : Type} {name : String} {required : Bool} {decode : Decoder α} {put : α → σ → σ}
  {seen seen' : List String} {w : σ} {ms : List (String × Json)}

theorem mono (h : s.Spells source seen v ms w) (fewer : ∀ name ∈ seen', name ∈ seen) :
    s.Spells source seen' v ms w := by
  induction h generalizing seen' with
  | done => exact .done
  | entry e new reads _ ih =>
    refine .entry e (fun among => new (fewer _ among)) reads (ih fun name among => ?_)
    exact (List.mem_cons.1 among).elim (fun same => same ▸ List.mem_cons_self)
      fun among => List.mem_cons_of_mem _ (fewer name among)

theorem member {value : Json} {a : α}
    (field : s.fields.find? (fun f => f.name == name) = some (.ofDecoder name required decode put))
    (new : name ∉ seen) (back : decode source (Tree.ofJson value) = .ok a)
    (rest : s.Spells source (name :: seen) (put a v) ms w) :
    s.Spells source seen v ((name, value) :: ms) w :=
  .entry ⟨name, value, put a⟩ new (reads_of field back) rest

/-- A member that is left out stands for what the record has already. -/
theorem omitted (rest : s.Spells source (name :: seen) v ms w) : s.Spells source seen v ms w :=
  rest.mono fun _ => List.mem_cons_of_mem _

theorem entries (h : s.Spells source seen v ms w) :
    ∃ es : List (Entry σ), ms = es.map Entry.member ∧ w = Entry.putAll es v ∧
      (es.map Entry.name).Nodup ∧ (∀ e ∈ es, e.name ∉ seen) ∧ ∀ e ∈ es, s.Reads source e := by
  induction h with
  | done => exact ⟨[], rfl, rfl, .nil, by simp, by simp⟩
  | entry e new reads _ ih =>
    obtain ⟨es, shape, made, names, fresh, back⟩ := ih
    refine ⟨e :: es, congrArg _ shape, made, List.nodup_cons.2 ⟨?_, names⟩, ?_, ?_⟩
    · intro among
      obtain ⟨e', he', same⟩ := List.mem_map.1 among
      exact fresh e' he' (same ▸ List.mem_cons_self)
    · exact List.forall_mem_cons.2
        ⟨new, fun e' he' seen => fresh e' he' (List.mem_cons_of_mem _ seen)⟩
    · exact List.forall_mem_cons.2 ⟨reads, back⟩

end Spells

/-- What is written of a record is read back, in whatever order it is read. -/
theorem decode_ofMembers {ms : List (String × Json)} {w : σ}
    (apart : s.fields.Pairwise Field.Apart) (enter : source.enter = .ok inner)
    (given : ∀ f ∈ s.fields, f.required = true → f.name ∈ ms.map Prod.fst)
    (spells : s.Spells inner [] s.initial ms w) :
    s.decodeAs finish source (Tree.ofJson (.ofMembers ms)) = finish w := by
  obtain ⟨es, rfl, rfl, names, -, reads⟩ := spells.entries
  refine decode_entries apart enter names reads fun f among required => ?_
  simpa [Entry.member] using given f among required

/-! ### What every record that is read has -/

section
variable {P : σ → Prop}

theorem decodeMembers_keeps (keeps : ∀ f ∈ s.fields, f.Keeps source P)
    {members : List (Except Fault String × Tree)} {seen : List String} (initial : P v)
    (h : s.decodeMembers finish source stop seen v members = .ok x) :
    ∃ w, P w ∧ finish w = .ok x := by
  induction members generalizing seen v with
  | nil =>
    unfold decodeMembers at h
    obtain ⟨w, closed, h⟩ := bind_eq_ok_iff.1 h
    obtain rfl := finish_eq_ok closed
    split at h
    · contradiction
    · exact ⟨v, initial, h⟩
  | cons m members ih =>
    obtain ⟨key, t⟩ := m
    unfold decodeMembers at h
    obtain ⟨key, -, h⟩ := bind_eq_ok_iff.1 h
    split at h
    · split at h
      · contradiction
      · split at h
        · contradiction
        · exact ih initial h
    · next f field =>
      split at h
      · contradiction
      · obtain ⟨p, put, h⟩ := bind_eq_ok_iff.1 h
        exact ih (keeps f (List.mem_of_find?_eq_some field) put v initial) h

theorem decodeElements_keeps {fields : List (Field σ)} (keeps : ∀ f ∈ fields, f.Keeps source P)
    {items : List Tree} {n : Nat} (initial : P v)
    (h : s.decodeElements finish source stop n v fields items = .ok x) :
    ∃ w, P w ∧ finish w = .ok x := by
  induction fields generalizing n v items with
  | nil =>
    cases items with
    | nil =>
      unfold decodeElements at h
      obtain ⟨y, made, closed⟩ := bind_eq_ok_iff.1 h
      obtain rfl := finish_eq_ok closed
      exact ⟨v, initial, made⟩
    | cons t items =>
      unfold decodeElements at h
      obtain ⟨_, -, h⟩ := bind_eq_ok_iff.1 h
      cases source <;> contradiction
  | cons f fields ih =>
    have others := fun g among => keeps g (List.mem_cons_of_mem _ among)
    cases items with
    | nil =>
      unfold decodeElements at h
      obtain ⟨w, closed, h⟩ := bind_eq_ok_iff.1 h
      obtain rfl := finish_eq_ok closed
      split at h
      · contradiction
      · exact ih others initial h
    | cons t items =>
      unfold decodeElements at h
      obtain ⟨p, put, h⟩ := bind_eq_ok_iff.1 h
      exact ih others (keeps f List.mem_cons_self put v initial) h

theorem decodeAs_keeps
    (keeps : ∀ {inner}, source.enter = .ok inner → ∀ f ∈ s.fields, f.Keeps inner P)
    (initial : P s.initial) (h : s.decodeAs finish source t = .ok x) :
    ∃ w, P w ∧ finish w = .ok x := by
  unfold decodeAs at h
  split at h
  · obtain ⟨inner, enter, h⟩ := bind_eq_ok_iff.1 h
    exact decodeMembers_keeps (keeps enter) initial h
  · obtain ⟨inner, enter, h⟩ := bind_eq_ok_iff.1 h
    exact decodeElements_keeps (keeps enter) initial h
  · obtain ⟨_, -, h⟩ := bind_eq_ok_iff.1 h
    contradiction

theorem decode_keeps
    (keeps : ∀ {inner}, source.enter = .ok inner → ∀ f ∈ s.fields, f.Keeps inner P)
    (initial : P s.initial) (h : s.decode source t = .ok v) : P v := by
  obtain ⟨w, holds, same⟩ := decodeAs_keeps keeps initial h
  exact Except.ok.inj same ▸ holds

end

end Schema

end Restock.Json
