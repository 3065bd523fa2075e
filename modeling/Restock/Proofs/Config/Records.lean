import Restock.Checkout.Outcome
import Restock.Checkout.State
import Restock.Proofs.Json.RoundTrip
import Restock.Retry.Policy

/-! Records that are read back.

Every record is written as members that spell it (`Json.Schema.Spells`): an option that
is `none` and an opaque value that is `null` are left out, and the schema of the record
puts the same in their place. A duration survives in full as seconds and nanoseconds,
and as milliseconds if it is `Stored`. Floats have to be finite, and an opaque value
has to fit where it stands. -/
namespace Restock

open Json (Source Tree Schema Field)

/-! ### Words -/

instance : Word.Distinct FulfillmentKind :=
  ⟨fun a => by cases a <;> decide, fun a b => by cases a <;> cases b <;> decide⟩

instance : Word.Distinct TargetMode :=
  ⟨fun a => by cases a <;> decide, fun a b => by cases a <;> cases b <;> decide⟩

instance : Word.Distinct StockStatus :=
  ⟨fun a => by cases a <;> decide, fun a b => by cases a <;> cases b <;> decide⟩

instance : Word.Distinct ErrorKind :=
  ⟨fun a => by cases a <;> decide, fun a b => by cases a <;> cases b <;> decide⟩

instance : Word.Distinct Step :=
  ⟨fun a => by cases a <;> decide, fun a b => by cases a <;> cases b <;> decide⟩

/-! ### Members that may be left out -/

theorem eq_null_of_isNull {v : Json} (h : v.isNull = true) : v = .null := by
  cases v <;> first | rfl | contradiction

section
variable {name : String}

theorem names_optionalMember {α : Type} {f : α → Json} {o : Option α} :
    ((optionalMember name f o).map Prod.fst).Sublist [name] := by
  cases o <;> simp [optionalMember]

theorem names_optionalJson {value : Json} :
    ((optionalJson name value).map Prod.fst).Sublist [name] := by
  unfold optionalJson
  split <;> simp

/-- Among members that fit, one that may be left out has a value that fits. -/
theorem fits_of_optionalJson {source : Source} {ms : List (String × Json)} {value : Json}
    (h : (Json.ofMembers (ms ++ optionalJson name value)).Fits source)
    (names : ((ms ++ optionalJson name value).map Prod.fst).Nodup) :
    value.Fits source.inside := by
  by_cases null : value.isNull = true
  · rw [eq_null_of_isNull null]
    trivial
  · exact Json.Fits.of_mem (m := (name, value)) h names (by simp [optionalJson, null])

end

namespace Json.Schema.Spells

variable {σ α : Type} {s : Schema σ} {source : Source} {name : String} {required : Bool}
  {seen : List String} {v w : σ} {ms : List (String × Json)}

theorem optional {decode : Json.Decoder (Option α)} {put : Option α → σ → σ} {f : α → Json}
    {o : Option α}
    (field : s.fields.find? (fun f => f.name == name) = some (.ofDecoder name required decode put))
    (new : name ∉ seen) (back : ∀ a, o = some a → decode source (Tree.ofJson (f a)) = .ok (some a))
    (absent : put none v = v) (rest : s.Spells source (name :: seen) (put o v) ms w) :
    s.Spells source seen v (optionalMember name f o ++ ms) w := by
  cases o with
  | none => exact omitted (absent ▸ rest)
  | some a => exact .member field new (back a rfl) rest

theorem opaqueMember {put : Json → σ → σ} {value : Json}
    (field : s.fields.find? (fun f => f.name == name) =
      some (.ofDecoder name required Json.decodeAny put))
    (new : name ∉ seen) (fits : value.Fits source) (absent : put .null v = v)
    (rest : s.Spells source (name :: seen) (put value v) ms w) :
    s.Spells source seen v (optionalJson name value ++ ms) w := by
  unfold optionalJson
  split
  · next null =>
    rw [eq_null_of_isNull null, absent] at rest
    exact omitted rest
  · exact .member field new (Json.toJson_ofJson source value fits) rest

/-- The members end with one that may be left out. -/
theorem of_append_nil (h : s.Spells source seen v (ms ++ []) w) : s.Spells source seen v ms w := by
  rwa [List.append_nil] at h

end Json.Schema.Spells

variable {source : Source}

/-! ### Durations -/

namespace Duration

/-- The duration is a whole number of milliseconds, few enough to be stored. -/
def Stored (d : Duration) : Prop := ∃ ms, d = ofMillis ms

theorem decodeMillis_millisJson {d : Duration} (h : d.Stored) :
    decodeMillis source (Tree.ofJson d.millisJson) = .ok d := by
  obtain ⟨ms, rfl⟩ := h
  have below : ms.toNat < 1 <<< 64 := ms.toNat_lt
  rw [decodeMillis, millisJson, ofMillis_toMillis, Json.decodeU64_ofNat below]
  exact congrArg (fun ms => Except.ok (ofMillis ms)) UInt64.ofNat_toNat

theorem stored_of_decodeMillis {t : Tree} {d : Duration} (h : decodeMillis source t = .ok d) :
    d.Stored := by
  obtain ⟨ms, -, rfl⟩ := Json.map_eq_ok h
  exact ⟨ms, rfl⟩

theorem secs_lt (d : Duration) : d.secs < 1 <<< 64 :=
  Nat.div_lt_of_lt_mul (Nat.mul_comm .. ▸ d.inRange)

theorem subsecNanos_lt (d : Duration) : d.subsecNanos < 1 <<< 32 :=
  Nat.lt_trans (Nat.mod_lt _ (by decide)) (by decide)

/-- Seconds and nanoseconds make up the duration. -/
theorem ofParts?_parts (d : Duration) : ofParts? (.ofNat d.secs) d.subsecNanos = some d := by
  have secs : (UInt64.ofNat d.secs).toNat = d.secs := UInt64.toNat_ofNat_of_lt' d.secs_lt
  have total : d.secs * nanosPerSecond + d.subsecNanos = d.nanos := Nat.div_add_mod' ..
  simp only [ofParts?, secs, total, d.inRange, dif_pos]

-- An equation of functions: at a pair, the limit of durations would be counted down.
theorem ofParts_eq : ofParts = fun p =>
    match ofParts? p.1 p.2.toNat with
    | some d => .ok d
    | none => .error (.data (.refused "overflow deserializing Duration")) := by
  delta ofParts
  rfl

theorem ofParts_of_some {p : UInt64 × UInt32} {d : Duration}
    (made : ofParts? p.1 p.2.toNat = some d) : ofParts p = .ok d := by
  rw [ofParts_eq]
  simp only [made]

theorem decode_toJson (room : source.Allows 1) (d : Duration) :
    decode source (Tree.ofJson d.toJson) = .ok d := by
  have spells : partsSchema.Spells source.inside [] (0, 0)
      [("secs", .ofNat d.secs), ("nanos", .ofNat d.subsecNanos)]
      (.ofNat d.secs, .ofNat d.subsecNanos) :=
    .member rfl (by decide) (Json.decodeU64_ofNat d.secs_lt) <|
    .member rfl (by decide) (Json.decodeU32_ofNat d.subsecNanos_lt) .done
  have nanos : (UInt32.ofNat d.subsecNanos).toNat = d.subsecNanos :=
    UInt32.toNat_ofNat_of_lt' d.subsecNanos_lt
  have whole := ofParts?_parts d
  rw [← nanos] at whole
  rw [decode, toJson, Schema.decode_ofMembers (by simp [partsSchema]) room.enter
    (by simp [partsSchema]) spells]
  exact ofParts_of_some whole

end Duration

/-! ### Ceilings -/

namespace StepMap

variable {α : Type} {m : StepMap α}

theorem mem_toList_iff {s : Step} {a : α} : (s, a) ∈ m.toList ↔ m.get? s = some a := by
  simp [toList, Step.mem_all]

theorem nodup_toList (m : StepMap α) : (m.toList.map Prod.fst).Nodup := by
  have steps : m.toList.map Prod.fst = Step.all.filter fun s => (m.get? s).isSome := by
    rw [toList, List.map_filterMap, ← List.filterMap_eq_filter]
    refine List.filterMap_congr fun s _ => ?_
    cases h : m.get? s <;> simp [Option.guard, h]
  rw [steps]
  exact List.Nodup.filter _ (by decide)

theorem ofList_snoc (l : List (Step × α)) (s : Step) (a : α) :
    ofList (l ++ [(s, a)]) = (ofList l).insert s a := by
  simp [ofList]

theorem get?_ofList {l : List (Step × α)} (nodup : (l.map Prod.fst).Nodup) {s : Step} {a : α} :
    (ofList l).get? s = some a ↔ (s, a) ∈ l := by
  induction l using List.reverseRecOn with
  | nil => simp [ofList]
  | append_singleton l e ih =>
    obtain ⟨s', a'⟩ := e
    rw [List.map_append, List.nodup_append] at nodup
    obtain ⟨front, -, apart⟩ := nodup
    rw [ofList_snoc, get?_insert, List.mem_append, List.mem_singleton, Prod.mk.injEq]
    split
    · next same =>
      subst same
      have new : (s, a) ∉ l := fun among =>
        apart s (List.mem_map_of_mem among) s (by simp) rfl
      simp [new, eq_comm]
    · next other => simp [ih front, other]

/-- The entries of a map may be given in any order. -/
theorem ofList_of_perm {l : List (Step × α)} (perm : m.toList.Perm l) : ofList l = m := by
  have nodup : (l.map Prod.fst).Nodup := (perm.map Prod.fst).nodup_iff.1 m.nodup_toList
  refine ext fun s => Option.ext fun a => ?_
  rw [get?_ofList nodup, ← perm.mem_iff, mem_toList_iff]

end StepMap

namespace RetryPolicy

theorem decodeEntries_ceilings (l : List (Step × UInt32)) :
    Json.decodeEntries (Json.variant Word.variants) Json.decodeU32 source .closed
      (Tree.ofJsonMembers (l.map fun e => (Word.word e.1, .ofNat e.2.toNat))) = .ok l := by
  induction l with
  | nil => rfl
  | cons e l ih =>
    obtain ⟨s, n⟩ := e
    have below : n.toNat < 1 <<< 32 := n.toNat_lt
    have step : Json.variant Word.variants (Word.word s) = .ok s := Word.variant_word s
    simp only [List.map_cons, Tree.ofJsonMembers, Json.decodeEntries, Json.wanted_ok, Json.ok_bind,
      step, Json.decodeU32_ofNat below, ih, UInt32.ofNat_toNat]
    rfl

theorem decodeCeilings_toJson (room : source.Allows 1) (m : StepMap UInt32) :
    decodeCeilings source (Tree.ofJson (m.toJson fun n => .ofNat n.toNat)) = .ok m := by
  have names : (m.toList.map fun e => Word.word e.1).Nodup := by
    have := m.nodup_toList.map (f := Word.word) fun s t => Word.Distinct.word_inj t s
    rwa [List.map_map] at this
  obtain ⟨l, sorted, perm⟩ :=
    Json.exists_sorted (f := fun e : Step × UInt32 => (Word.word e.1, .ofNat e.2.toNat)) names
  have shape : m.toJson (fun n => .ofNat n.toNat) =
      .object (l.map fun e => (Word.word e.1, .ofNat e.2.toNat)) := congrArg Json.object sorted
  rw [shape]
  simp only [Tree.ofJson, decodeCeilings, Json.decodeMap, room.enter, Json.ok_bind,
    decodeEntries_ceilings]
  exact congrArg Except.ok (StepMap.ofList_of_perm perm)

/-- The pauses are whole milliseconds. -/
structure Whole (p : RetryPolicy) : Prop where
  delay : p.delay.Stored
  maxDelay : p.maxDelay.Stored
  rateLimitCap : p.rateLimitCap.Stored

theorem decode_toJson {p : RetryPolicy} (room : source.Allows 2) (whole : p.Whole)
    (finite : p.multiplier.isFinite = true) :
    schema.decode source (Tree.ofJson p.toJson) = .ok p := by
  refine Schema.decode_ofMembers (by simp [schema]) room.enter (by simp [schema]) ?_
  exact
    .member rfl (by decide) (Duration.decodeMillis_millisJson whole.delay) <|
    .member rfl (by decide) (Json.decodeFloat_ofFloat finite) <|
    .member rfl (by decide) (Duration.decodeMillis_millisJson whole.maxDelay) <|
    .member rfl (by decide) (Duration.decodeMillis_millisJson whole.rateLimitCap) <|
    .member rfl (by decide) (decodeCeilings_toJson room.inside p.maxAttempts) .done

end RetryPolicy

/-! ### Credentials and sessions -/

namespace Credential

theorem decode_toJson (room : source.Allows 1) (c : Credential) :
    schema.decode source (Tree.ofJson c.toJson) = .ok c := by
  refine Schema.decode_ofMembers (by simp [schema]) room.enter (by simp [schema]) ?_
  exact
    .member rfl (by decide) (Json.decodeString_ofJson c.identifier) <|
    .member rfl (by decide) (Json.decodeString_ofJson c.secret) .done

end Credential

namespace Session

theorem decode_toJson {s : Session} (room : source.Allows 1) (fits : s.data.Fits source.inside) :
    schema.decode source (Tree.ofJson s.toJson) = .ok s := by
  refine Schema.decode_ofMembers (by simp [schema]) room.enter (by simp [schema]) ?_
  exact
    .member rfl (by decide) (Json.decodeString_ofJson s.credential) <|
    .member rfl (by decide) (Json.toJson_ofJson _ s.data fits) .done

theorem fits_data {s : Session} (h : s.toJson.Fits source) : s.data.Fits source.inside :=
  Json.Fits.of_mem (m := ("data", s.data)) h (by simp) (by simp)

end Session

/-! ### Targets, reports and products -/

namespace WatchTarget

theorem decode_toJson {t : WatchTarget} (room : source.Allows 1)
    (finite : ∀ x, t.maxPrice = some x → x.isFinite = true) :
    schema.decode source (Tree.ofJson t.toJson) = .ok t := by
  have ceiling (x : Float) (given : t.maxPrice = some x) :
      Json.decodeOption Json.decodeFloat source.inside (Tree.ofJson (.ofFloat x)) = .ok (some x) :=
    Json.decodeOption_some (by rw [Json.ofFloat, if_pos (finite x given)]; rfl)
      (Json.decodeFloat_ofFloat (finite x given))
  refine Schema.decode_ofMembers (by simp [schema]) room.enter (by simp [schema]) ?_
  exact
    .member rfl (by decide) (Json.decodeString_ofJson t.id) <|
    .member rfl (by decide) (Word.decode_toJson t.mode) <|
    .of_append_nil <| .optional rfl (by decide) ceiling rfl .done

end WatchTarget

namespace StockReport

theorem decode_toJson {r : StockReport} (room : source.Allows 1)
    (finite : r.price.isFinite = true) (fits : r.identifiers.Fits source.inside) :
    schema.decode source (Tree.ofJson r.toJson) = .ok r := by
  refine Schema.decode_ofMembers (by simp [schema]) room.enter (by simp [schema]) ?_
  rw [List.append_assoc, List.append_assoc]
  exact
    .member rfl (by decide) (Word.decode_toJson r.status) <|
    .member rfl (by decide) (Json.decodeFloat_ofFloat finite) <|
    .member rfl (by decide) (Json.decodeString_ofJson r.name) <|
    .optional rfl (by decide) (fun u _ => Json.decodeOption_some rfl (Json.decodeString_ofJson u))
      rfl <|
    .optional rfl (by decide) (fun k _ => Json.decodeOption_some rfl (Word.decode_toJson k)) rfl <|
    .of_append_nil <| .opaqueMember rfl (by decide) fits rfl .done

theorem fits_identifiers {r : StockReport} (h : r.toJson.Fits source) :
    r.identifiers.Fits source.inside := by
  refine fits_of_optionalJson h (List.Nodup.sublist ?_
    (by decide : ["status", "price", "name", "image_url", "fulfillment", "identifiers"].Nodup))
  rw [List.map_append, List.map_append, List.map_append]
  exact (((List.Sublist.refl _).append names_optionalMember).append names_optionalMember).append
    names_optionalJson

end StockReport

namespace Product

theorem decode_toJson {p : Product} (room : source.Allows 1) (finite : p.price.isFinite = true)
    (fits : p.identifiers.Fits source.inside) :
    schema.decode source (Tree.ofJson p.toJson) = .ok p := by
  refine Schema.decode_ofMembers (by simp [schema]) room.enter (by simp [schema]) ?_
  rw [List.append_assoc]
  exact
    .member rfl (by decide) (Json.decodeString_ofJson p.targetId) <|
    .member rfl (by decide) (Json.decodeString_ofJson p.name) <|
    .member rfl (by decide) (Json.decodeFloat_ofFloat finite) <|
    .member rfl (by decide) (Word.decode_toJson p.fulfillment) <|
    .optional rfl (by decide) (fun u _ => Json.decodeOption_some rfl (Json.decodeString_ofJson u))
      rfl <|
    .of_append_nil <| .opaqueMember rfl (by decide) fits rfl .done

theorem fits_identifiers {p : Product} (h : p.toJson.Fits source) :
    p.identifiers.Fits source.inside := by
  refine fits_of_optionalJson h (List.Nodup.sublist ?_
    (by decide : ["target_id", "name", "price", "fulfillment", "image_url", "identifiers"].Nodup))
  rw [List.map_append, List.map_append]
  exact ((List.Sublist.refl _).append names_optionalMember).append names_optionalJson

end Product

/-! ### Failures -/

namespace StepFailure

theorem decode_toJson (room : source.Allows 2) (f : StepFailure) :
    schema.decode source (Tree.ofJson f.toJson) = .ok f := by
  have wait (d : Duration) :
      Json.decodeOption Duration.decode source.inside (Tree.ofJson d.toJson) = .ok (some d) :=
    Json.decodeOption_some rfl (Duration.decode_toJson room.inside d)
  refine Schema.decode_ofMembers (by simp [schema]) room.enter (by simp [schema]) ?_
  exact
    .member rfl (by decide) (Word.decode_toJson f.kind) <|
    .member rfl (by decide) (Json.decodeString_ofJson f.reason) <|
    .of_append_nil <| .optional rfl (by decide) (fun d _ => wait d) rfl .done

end StepFailure

end Restock
