import Restock.Config.Codec
import Restock.Proofs.Config.Records
import Restock.Proofs.Stock.Limits

/-! Configurations that are read back.

What a text decodes to is `Whole`: its pauses are whole milliseconds and its profiles
fit where they stand. If it is valid too, its floats are finite, and then it is read
back from what is written of it (`Config.decode_toJson`) and is valid again. -/
namespace Restock

open Json (Source Tree Schema Field)

variable {source : Source}

theorem room_at_hand (n : Nat) : Source.value.Allows n := trivial

theorem room_of_text {n : Nat} (le : n ≤ 127) : (Source.text Json.maxDepth).Allows n := le

namespace Settings

theorem decode_toJson {s : Settings} (room : source.Allows 1) (stored : s.accountPoll.Stored) :
    schema.decode source (Tree.ofJson s.toJson) = .ok s := by
  refine Schema.decode_ofMembers (by simp [schema]) room.enter (by simp [schema]) ?_
  exact
    .member rfl (by decide) (Json.decodeSize_toNat s.busCapacity) <|
    .member rfl (by decide) (Duration.decodeMillis_millisJson stored) .done

theorem stored_of_decode {t : Tree} {s : Settings} (h : schema.decode source t = .ok s) :
    s.accountPoll.Stored := by
  refine Schema.decode_keeps (P := fun s => s.accountPoll.Stored) (fun _ => ?_) ⟨250, rfl⟩ h
  simp only [schema, Schema.fields_openRecord, List.forall_mem_cons]
  exact ⟨Field.keeps_ofDecoder fun _ _ h => h,
    Field.keeps_ofDecoder fun d _ _ => Duration.stored_of_decodeMillis d, by simp⟩

end Settings

namespace RetryPolicy

theorem whole_standard : standard.Whole := ⟨⟨1000, rfl⟩, ⟨30000, rfl⟩, ⟨60000, rfl⟩⟩

theorem whole_of_decode {t : Tree} {p : RetryPolicy} (h : schema.decode source t = .ok p) :
    p.Whole := by
  refine Schema.decode_keeps (P := Whole) (fun _ => ?_) whole_standard h
  simp only [schema, Schema.fields_openRecord, List.forall_mem_cons]
  exact ⟨Field.keeps_ofDecoder fun d _ h => ⟨Duration.stored_of_decodeMillis d, h.2, h.3⟩,
    Field.keeps_ofDecoder fun _ _ h => ⟨h.1, h.2, h.3⟩,
    Field.keeps_ofDecoder fun d _ h => ⟨h.1, Duration.stored_of_decodeMillis d, h.3⟩,
    Field.keeps_ofDecoder fun d _ h => ⟨h.1, h.2, Duration.stored_of_decodeMillis d⟩,
    Field.keeps_ofDecoder fun _ _ h => ⟨h.1, h.2, h.3⟩, by simp⟩

end RetryPolicy

namespace TaskConfig

/-- The profile fits among the members of the task, and the pauses are whole. -/
structure Whole (source : Source) (t : TaskConfig) : Prop where
  profile : t.profile.Fits source.inside
  retry : t.retry.Whole

theorem decode_toJson {t : TaskConfig} (room : source.Allows 3) (whole : t.Whole source)
    (finite : t.retry.multiplier.isFinite = true) :
    schema.decode source (Tree.ofJson t.toJson) = .ok t := by
  have account (c : Credential) :
      Json.decodeOption Credential.schema.decode source.inside (Tree.ofJson c.toJson) =
        .ok (some c) :=
    Json.decodeOption_some rfl (Credential.decode_toJson (room.inside.mono (by decide)) c)
  refine Schema.decode_ofMembers (by simp [schema]) room.enter (by simp [schema]) ?_
  rw [List.append_assoc, List.append_assoc]
  exact
    .optional rfl (by decide) (fun c _ => account c) rfl <|
    .member rfl (by decide) (Json.toJson_ofJson _ t.profile whole.profile) <|
    .optional rfl (by decide) (fun p _ => Json.decodeOption_some rfl (Json.decodeString_ofJson p))
      rfl <|
    .member rfl (by decide) (RetryPolicy.decode_toJson room.inside whole.retry finite) .done

theorem whole_of_decode {t : Tree} {x : TaskConfig} (h : schema.decode source t = .ok x) :
    x.Whole source := by
  have first : guest.Whole source := ⟨trivial, RetryPolicy.whole_standard⟩
  refine Schema.decode_keeps (P := Whole source) (fun enter => ?_) first h
  obtain ⟨-, rfl⟩ := Json.Source.enter_eq_ok_iff.1 enter
  simp only [schema, Schema.fields_openRecord, List.forall_mem_cons]
  exact ⟨Field.keeps_ofDecoder fun _ _ h => ⟨h.1, h.2⟩,
    Field.keeps_ofDecoder fun p _ h => ⟨Json.fits_of_toJson _ _ _ p, h.2⟩,
    Field.keeps_ofDecoder fun _ _ h => ⟨h.1, h.2⟩,
    Field.keeps_ofDecoder fun r _ h => ⟨h.1, RetryPolicy.whole_of_decode r⟩, by simp⟩

end TaskConfig

namespace GroupConfig

/-- The pauses are whole milliseconds, and so are those of the tasks in the list of the
group. -/
structure Whole (source : Source) (g : GroupConfig) : Prop where
  delay : g.delay.Stored
  warmBackoff : g.warmBackoff.Stored
  tasks : ∀ t ∈ g.tasks, t.Whole source.inside.inside

theorem finite_of_validate {g : GroupConfig} (valid : g.validate = .ok ()) {t : TaskConfig}
    (ht : t ∈ g.tasks) : t.retry.multiplier.isFinite = true :=
  ((validate_eq_ok_iff.1 valid).tasks t ht).multiplier.1

theorem decode_toJson {g : GroupConfig} (room : source.Allows 5) (whole : g.Whole source)
    (valid : g.validate = .ok ()) :
    schema.decode source (Tree.ofJson g.toJson) = .ok g := by
  have targets : ∀ t ∈ g.targets, WatchTarget.schema.decode source.inside.inside
      (Tree.ofJson t.toJson) = .ok t := fun t ht =>
    WatchTarget.decode_toJson (room.inside.inside.mono (by decide)) fun x given =>
      (Bool.and_eq_true_iff.1 (capped_of_validate valid ht x given)).1
  have tasks : ∀ t ∈ g.tasks, TaskConfig.schema.decode source.inside.inside
      (Tree.ofJson t.toJson) = .ok t := fun t ht =>
    TaskConfig.decode_toJson room.inside.inside (whole.tasks t ht) (finite_of_validate valid ht)
  have list : source.inside.Allows 1 := room.inside.mono (by decide)
  refine Schema.decode_ofMembers (by simp [schema]) room.enter (by simp [schema]) ?_
  exact
    .member rfl (by decide) (Json.decodeString_ofJson g.name) <|
    .member rfl (by decide) (Json.decodeString_ofJson g.retailer) <|
    .member rfl (by decide) (Duration.decodeMillis_millisJson whole.delay) <|
    .member rfl (by decide) (Duration.decodeMillis_millisJson whole.warmBackoff) <|
    .member rfl (by decide) (Json.decodeList_map list targets) <|
    .member rfl (by decide) (Json.decodeList_map list tasks) .done

theorem whole_of_decode {t : Tree} {g : GroupConfig} (h : schema.decode source t = .ok g) :
    g.Whole source := by
  have first : standard.Whole source :=
    ⟨⟨3000, rfl⟩, ⟨2000, rfl⟩, fun _ among => absurd among List.not_mem_nil⟩
  refine Schema.decode_keeps (P := Whole source) (fun enter => ?_) first h
  obtain ⟨-, rfl⟩ := Json.Source.enter_eq_ok_iff.1 enter
  simp only [schema, Schema.fields_openRecord, List.forall_mem_cons]
  refine ⟨Field.keeps_ofDecoder fun _ _ h => ⟨h.1, h.2, h.3⟩,
    Field.keeps_ofDecoder fun _ _ h => ⟨h.1, h.2, h.3⟩,
    Field.keeps_ofDecoder fun d _ h => ⟨Duration.stored_of_decodeMillis d, h.2, h.3⟩,
    Field.keeps_ofDecoder fun d _ h => ⟨h.1, Duration.stored_of_decodeMillis d, h.3⟩,
    Field.keeps_ofDecoder fun _ _ h => ⟨h.1, h.2, h.3⟩,
    Field.keeps_ofDecoder fun tasks _ h => ⟨h.1, h.2, fun t ht => ?_⟩, by simp⟩
  obtain ⟨-, _, task⟩ := Json.of_mem_decodeList tasks ht
  exact TaskConfig.whole_of_decode task

end GroupConfig

namespace Config

/-- The pauses are whole milliseconds in all parts of the configuration. -/
structure Whole (source : Source) (c : Config) : Prop where
  accountPoll : c.settings.accountPoll.Stored
  groups : ∀ g ∈ c.groups, g.Whole source.inside.inside

theorem valid_of_mem {c : Config} (valid : c.validate = .ok ()) {g : GroupConfig}
    (hg : g ∈ c.groups) : g.validate = .ok () :=
  GroupConfig.validate_eq_ok_iff.2 ((validate_eq_ok_iff.1 valid).groups.valid g hg)

theorem decode_toJson {c : Config} (room : source.Allows 7) (whole : c.Whole source)
    (valid : c.validate = .ok ()) :
    schema.decode source (Tree.ofJson c.toJson) = .ok c := by
  have groups : ∀ g ∈ c.groups, GroupConfig.schema.decode source.inside.inside
      (Tree.ofJson g.toJson) = .ok g := fun g hg =>
    GroupConfig.decode_toJson room.inside.inside (whole.groups g hg) (valid_of_mem valid hg)
  have inner : source.inside.Allows 1 := room.inside.mono (by decide)
  refine Schema.decode_ofMembers (by simp [schema]) room.enter (by simp [schema]) ?_
  exact
    .member rfl (by decide) (Settings.decode_toJson inner whole.accountPoll) <|
    .member rfl (by decide) (Json.decodeList_map inner groups) .done

theorem whole_of_decode {t : Tree} {c : Config} (h : schema.decode source t = .ok c) :
    c.Whole source := by
  have first : standard.Whole source := ⟨⟨250, rfl⟩, fun _ among => absurd among List.not_mem_nil⟩
  refine Schema.decode_keeps (P := Whole source) (fun enter => ?_) first h
  obtain ⟨-, rfl⟩ := Json.Source.enter_eq_ok_iff.1 enter
  simp only [schema, Schema.fields_openRecord, List.forall_mem_cons]
  refine ⟨Field.keeps_ofDecoder fun s _ h => ⟨Settings.stored_of_decode s, h.2⟩,
    Field.keeps_ofDecoder fun groups _ h => ⟨h.1, fun g hg => ?_⟩, by simp⟩
  obtain ⟨-, _, group⟩ := Json.of_mem_decodeList groups hg
  exact GroupConfig.whole_of_decode group

/-- A text holds a configuration if it decodes to a valid one. -/
theorem ofText_eq_ok_iff {s : String} {c : Config} :
    ofText s = .ok c ↔ Json.decodeText schema.decode s = .ok c ∧ c.validate = .ok () := by
  unfold ofText
  constructor
  · intro read
    obtain ⟨d, decoded, read⟩ := bind_eq_ok_iff.1 read
    obtain ⟨_, valid, same⟩ := bind_eq_ok_iff.1 read
    cases same
    exact ⟨mapError_eq_ok_iff.1 decoded, mapError_eq_ok_iff.1 valid⟩
  · rintro ⟨decoded, valid⟩
    rw [decoded]
    exact bind_eq_ok_iff.2 ⟨c, rfl, bind_eq_ok_iff.2 ⟨(), by rw [valid]; rfl, rfl⟩⟩

theorem ofText_text {s : String} {c : Config} (read : ofText s = .ok c)
    (legible : c.toJson.Legible) : ofText c.toJson.text = .ok c := by
  obtain ⟨decoded, valid⟩ := ofText_eq_ok_iff.1 read
  have whole := whole_of_decode (Json.decodeText_eq_ok_iff.1 decoded).1
  refine ofText_eq_ok_iff.2 ⟨?_, valid⟩
  rw [Json.decodeText_text legible, decode_toJson (room_of_text (by decide)) whole valid]

end Config

/-- **The formats round-trip.** What a valid configuration that was read is written as is
read again as the same configuration, and is valid. A report, a product, a session and a
failure are read back too, from the value that they are written as and from its text. Of
a text it is taken for granted that it is read as the value it was made of. -/
theorem formats_round_trip :
    (∀ (s : String) (c : Config), Config.ofText s = .ok c → c.toJson.Legible →
      Config.ofText c.toJson.text = .ok c) ∧
    (∀ r : StockReport, r.price.isFinite = true → r.identifiers.Proper →
      Json.ReadsBack StockReport.schema.decode r.toJson r) ∧
    (∀ p : Product, p.price.isFinite = true → p.identifiers.Proper →
      Json.ReadsBack Product.schema.decode p.toJson p) ∧
    (∀ s : Session, s.data.Proper → Json.ReadsBack Session.schema.decode s.toJson s) ∧
    ∀ f : StepFailure, Json.ReadsBack StepFailure.schema.decode f.toJson f := by
  have one : (Source.text Json.maxDepth).Allows 1 := room_of_text (by decide)
  have two : (Source.text Json.maxDepth).Allows 2 := room_of_text (by decide)
  refine ⟨fun s c read legible => Config.ofText_text read legible, fun r finite proper => ?report,
    fun p finite proper => ?product, fun s proper => ?session, fun f => ?failure⟩
  case report =>
    exact Json.readsBack_of (StockReport.decode_toJson (room_at_hand 1) finite proper) fun fits =>
      StockReport.decode_toJson one finite (StockReport.fits_identifiers fits)
  case product =>
    exact Json.readsBack_of (Product.decode_toJson (room_at_hand 1) finite proper) fun fits =>
      Product.decode_toJson one finite (Product.fits_identifiers fits)
  case session =>
    exact Json.readsBack_of (Session.decode_toJson (room_at_hand 1) proper) fun fits =>
      Session.decode_toJson one (Session.fits_data fits)
  case failure =>
    exact Json.readsBack_of (StepFailure.decode_toJson (room_at_hand 2) f) fun _ =>
      StepFailure.decode_toJson two f

/-! ### A stall -/

/-- One group that watches one target for two tasks: one that has an account and a
profile, and no ceilings, and one that has nothing of its own. -/
def stall : Config :=
  ⟨.standard, [⟨"g", "r", .ofMillis 3000, .ofMillis 2000, [⟨"x", some 60, .any⟩],
    [⟨some ⟨"a", ""⟩, .object [("zip", .array [.int 7, .null])], none,
      RetryPolicy.standard.withoutCeilings⟩, .guest]⟩]⟩

/-- The stall in as few words as possible: an integer as a price, no pauses, a credential
without a secret. An empty map of ceilings is not the same as none given: the second task
has the standard ones. -/
def stallText : String :=
  "\x7b\"groups\":[\x7b\"targets\":[\x7b\"max_price\":60,\"id\":\"x\"\x7d],\"retailer\":\"r\",\"name\":\"g\"," ++
    "\"tasks\":[\x7b\"retry\":\x7b\"max_attempts\":\x7b\x7d\x7d,\"profile\":\x7b\"zip\":[7,null]\x7d," ++
    "\"credential\":\x7b\"identifier\":\"a\"\x7d\x7d,\x7b\x7d]\x7d]\x7d"

/-- What the retailer says of the target. -/
def stallReport : StockReport :=
  ⟨.inStock, 60, "Item", none, none, .object [("sku", .int 7)]⟩

def stallProduct : Product :=
  ⟨"x", "Item", 60, .shipping, none, .object [("sku", .int 7)]⟩

def stallSession : Session := ⟨"a", .object [("token", .int 7)]⟩

theorem round_trip_of_a_stall :
    (Config.ofText stallText = .ok stall ∧ stall.toJson.Legible ∧
      Config.ofText stall.toJson.text = .ok stall) ∧
    (stallReport.price.isFinite = true ∧ stallReport.identifiers.Proper ∧
      Json.ReadsBack StockReport.schema.decode stallReport.toJson stallReport) ∧
    (stallProduct.price.isFinite = true ∧ stallProduct.identifiers.Proper ∧
      Json.ReadsBack Product.schema.decode stallProduct.toJson stallProduct) ∧
    (stallSession.data.Proper ∧ stallSession.toJson.Legible ∧
      Json.decodeText Session.schema.decode stallSession.toJson.text = .ok stallSession) := by
  obtain ⟨config, report, product, session, -⟩ := formats_round_trip
  have read : Config.ofText stallText = .ok stall := by decide +kernel
  have legible : stall.toJson.Legible := by decide +kernel
  have sku : stallReport.identifiers.Proper := by decide +kernel
  have token : stallSession.data.Proper := by decide +kernel
  have small : stallSession.toJson.Legible := by decide +kernel
  exact ⟨⟨read, legible, config stallText stall read legible⟩,
    ⟨by decide, sku, report stallReport (by decide) sku⟩,
    ⟨by decide, sku, product stallProduct (by decide) sku⟩,
    ⟨token, small, (session stallSession token).fromText small (by decide +kernel)⟩⟩

end Restock
