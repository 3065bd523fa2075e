import Mathlib.Data.List.Induction
import Mathlib.Data.List.Nodup
import Restock.Config.Validation

/-! The rules of a configuration.

What is asked of a configuration is said without an order first (`Config.Valid`), and then
with one: `Config.Breaks` names the first rule that is broken and what is in order before it.
A check of a whole list fails at the first element that fails, after all elements before it
have passed (`checkAll_eq_error_iff`). So the validation is exact (`validation_is_exact`): it
accepts the valid configurations, and refuses each of the others for its first fault. -/
namespace Restock

open Float.Model (UnpackedFloat)

/-! ### Checks -/

section
variable {ε α β : Type}

/-- Two checks, one after the other. -/
theorem then_eq_ok_iff {check : Except ε Unit} {next : Unit → Except ε β} {b : β} :
    check >>= next = .ok b ↔ check = .ok () ∧ next () = .ok b := by
  cases check <;> simp [bind, Except.bind]

theorem then_eq_error_iff {check : Except ε Unit} {next : Unit → Except ε β} {e : ε} :
    check >>= next = .error e ↔ check = .error e ∨ check = .ok () ∧ next () = .error e := by
  cases check <;> simp [bind, Except.bind]

theorem mapError_eq_ok_iff {δ : Type} {r : Except ε α} {f : ε → δ} {a : α} :
    r.mapError f = .ok a ↔ r = .ok a := by
  cases r <;> simp [Except.mapError]

theorem mapError_eq_error_iff {δ : Type} {r : Except ε α} {f : ε → δ} {e : δ} :
    r.mapError f = .error e ↔ ∃ cause, r = .error cause ∧ f cause = e := by
  cases r <;> simp [Except.mapError]

theorem require_ok_iff {condition : Bool} {fault : ε} {p : Prop} (means : condition = true ↔ p) :
    require condition fault = .ok () ↔ p := require_eq_ok_iff.trans means

theorem require_error_iff {condition : Bool} {fault e : ε} {p : Prop}
    (means : condition = true ↔ p) : require condition fault = .error e ↔ ¬ p ∧ fault = e := by
  rw [← means]
  cases condition <;> simp [require]

/-- A list fails at the first element that does. -/
theorem checkAll_eq_error_iff {check : List α → α → Except ε Unit} {before as : List α} {e : ε} :
    checkAll check before as = .error e ↔
      ∃ l a r, as = l ++ a :: r ∧ checkAll check before l = .ok () ∧
        check (before ++ l) a = .error e := by
  induction as generalizing before with
  | nil => simp [checkAll]
  | cons b bs ih =>
    rw [checkAll, then_eq_error_iff]
    constructor
    · rintro (fails | ⟨passes, fails⟩)
      · exact ⟨[], b, bs, rfl, rfl, by rwa [List.append_nil]⟩
      · obtain ⟨l, a, r, rfl, earlier, fails⟩ := ih.1 fails
        refine ⟨b :: l, a, r, rfl, then_eq_ok_iff.2 ⟨passes, earlier⟩, ?_⟩
        rwa [List.append_cons]
    · rintro ⟨l, a, r, split, earlier, fails⟩
      cases l with
      | nil =>
        obtain ⟨rfl, rfl⟩ := List.cons.inj split
        exact .inl (by rwa [List.append_nil] at fails)
      | cons c l =>
        obtain ⟨rfl, rfl⟩ := List.cons.inj split
        obtain ⟨passes, earlier⟩ := then_eq_ok_iff.1 earlier
        refine .inr ⟨passes, ih.2 ⟨l, a, r, rfl, earlier, ?_⟩⟩
        rwa [List.append_cons] at fails

/-- The elements of a list are told apart by a key if each differs from those before it. -/
theorem nodup_map_iff_before {key : α → β} {as : List α} :
    (as.map key).Nodup ↔ ∀ l a r, as = l ++ a :: r → ∀ b ∈ l, key b ≠ key a := by
  constructor
  · rintro apart l a r rfl b earlier
    rw [List.map_append, List.nodup_append] at apart
    exact apart.2.2 (key b) (List.mem_map_of_mem earlier) (key a) (by simp)
  · intro apart
    induction as using List.reverseRecOn with
    | nil => exact List.nodup_nil
    | append_singleton as a ih =>
      have front := ih fun l b r split => apart l b (r ++ [a]) (by simp [split])
      rw [List.map_append, List.nodup_append]
      refine ⟨front, List.nodup_singleton _, fun x hx y hy => ?_⟩
      obtain ⟨b, earlier, rfl⟩ := List.mem_map.1 hx
      obtain rfl := List.mem_singleton.1 hy
      exact apart as a [] rfl b earlier

theorem forall_split_iff {p : α → Prop} {as : List α} :
    (∀ l a r, as = l ++ a :: r → p a) ↔ ∀ a ∈ as, p a := by
  constructor
  · intro all a among
    obtain ⟨l, r, split⟩ := List.append_of_mem among
    exact all l a r split
  · rintro all l a r rfl
    exact all a (by simp)

end

/-! ### Numbers and texts -/

/-- Two finite numbers compare, and the other way round they compare the other way. -/
theorem compare_of_isFinite {a b : UnpackedFloat} (ha : a.isFinite = true)
    (hb : b.isFinite = true) : ∃ o, a.compare b = some o ∧ b.compare a = some o.swap := by
  cases a with
  | notANumber | infinity => contradiction
  | zero s =>
    cases b with
    | notANumber | infinity => contradiction
    | zero => exact ⟨.eq, rfl, rfl⟩
    | finite t => cases t <;> exact ⟨_, rfl, rfl⟩
  | finite s m e =>
    cases b with
    | notANumber | infinity => contradiction
    | zero => cases s <;> exact ⟨_, rfl, rfl⟩
    | finite t m' e' =>
      have order : ((compare e e').then (compare m m')).swap =
          (compare e' e).then (compare m' m) := by
        rw [Ordering.swap_then, @Std.OrientedCmp.eq_swap _ compare _ e e',
          @Std.OrientedCmp.eq_swap _ compare _ m m', Ordering.swap_swap, Ordering.swap_swap]
      -- Of two negative numbers the one that is larger otherwise is the smaller.
      cases s <;> cases t <;> first
        | exact ⟨_, rfl, rfl⟩
        | exact ⟨_, rfl, congrArg some (by rw [order])⟩

theorem not_lt_iff_le {x y : Float} (hx : x.isFinite = true) (hy : y.isFinite = true) :
    ¬ x < y ↔ y ≤ x := by
  obtain ⟨o, forth, back⟩ :=
    compare_of_isFinite (a := x.toModel.unpack) (b := y.toModel.unpack) hx hy
  have lt : x < y ↔ x.toModel.unpack.lt y.toModel.unpack = true := by
    show decide (x.toModel.unpack.lt y.toModel.unpack = true) = true ↔ _
    rw [decide_eq_true_iff]
  have le : y ≤ x ↔ y.toModel.unpack.le x.toModel.unpack = true := by
    show decide (y.toModel.unpack.le x.toModel.unpack = true) = true ↔ _
    rw [decide_eq_true_iff]
  rw [lt, le, UnpackedFloat.lt, UnpackedFloat.le, forth, back]
  cases o <;> decide

theorem Duration.lasts_iff {d : Duration} : (!d.isZero) = true ↔ 0 < d.nanos := by
  rw [Bool.not_eq_true', isZero, beq_eq_false_iff_ne, Nat.pos_iff_ne_zero]

namespace Text

/-- What is left of a text without the white space at both its ends. -/
def trim (s : String) : List Char :=
  ((s.toList.dropWhile isWhite).reverse.dropWhile isWhite).reverse

theorem dropWhile_eq_nil_iff {l : List Char} :
    l.dropWhile isWhite = [] ↔ ∀ c ∈ l, isWhite c = true := by
  induction l with
  | nil => simp
  | cons c l ih => cases white : isWhite c <;> simp [white, ih]

theorem isBlank_iff_trim {s : String} : isBlank s = true ↔ trim s = [] := by
  rw [isBlank_iff, trim, List.reverse_eq_nil_iff, dropWhile_eq_nil_iff]
  refine ⟨fun white => ?_, fun white => ?_⟩
  · rw [dropWhile_eq_nil_iff.2 white]
    simp
  · -- What the first trimming leaves does not begin with white space.
    refine dropWhile_eq_nil_iff.1 (Classical.byContradiction fun some => ?_)
    have head := List.head_dropWhile_not isWhite some
    rw [white _ (List.mem_reverse.2 (List.head_mem some))] at head
    contradiction

end Text

/-! ### What is valid -/

/-- A price that can be a ceiling. -/
def IsPrice (x : Float) : Prop := x.isFinite = true ∧ 0 ≤ x

/-- A factor that lets a wait stay or grow. -/
def IsGrowth (x : Float) : Prop := x.isFinite = true ∧ 1 ≤ x

structure TaskConfig.Valid (t : TaskConfig) : Prop where
  delay : 0 < t.retry.delay.nanos
  multiplier : IsGrowth t.retry.multiplier
  identifier : ∀ c, t.credential = some c → c.identifier ≠ ""

/-- What is asked of the targets of one group. -/
structure ValidTargets (ts : List WatchTarget) : Prop where
  ids : (ts.map WatchTarget.id).Nodup
  ceilings : ∀ t ∈ ts, ∀ x, t.maxPrice = some x → IsPrice x

namespace GroupConfig

/-- What is asked of a group before its targets and tasks are looked at. -/
structure Sound (g : GroupConfig) : Prop where
  name : Text.trim g.name ≠ []
  watches : g.targets ≠ []
  delay : 0 < g.delay.nanos
  warmBackoff : 0 < g.warmBackoff.nanos

structure Valid (g : GroupConfig) : Prop where
  sound : g.Sound
  targets : ValidTargets g.targets
  tasks : ∀ t ∈ g.tasks, t.Valid

end GroupConfig

structure Settings.Valid (s : Settings) : Prop where
  capacity : 0 < s.busCapacity
  poll : 0 < s.accountPoll.nanos

/-- What is asked of the groups of one configuration. -/
structure ValidGroups (gs : List GroupConfig) : Prop where
  valid : ∀ g ∈ gs, g.Valid
  names : (gs.map GroupConfig.name).Nodup

structure Config.Valid (c : Config) : Prop where
  settings : c.settings.Valid
  groups : ValidGroups c.groups

/-! ### What is broken first -/

inductive TaskConfig.Breaks (t : TaskConfig) : TaskFault → Prop
  | delay (zero : t.retry.delay.nanos = 0) : Breaks t .zeroDelay
  | multiplier (delay : 0 < t.retry.delay.nanos) (shrinks : ¬ IsGrowth t.retry.multiplier) :
    Breaks t (.multiplier t.retry.multiplier)
  | identifier {c : Credential} (delay : 0 < t.retry.delay.nanos)
    (multiplier : IsGrowth t.retry.multiplier) (member : t.credential = some c)
    (empty : c.identifier = "") : Breaks t .noIdentifier

/-- The first fault of a group; the targets are looked at one by one, then the tasks. -/
inductive GroupConfig.Breaks (g : GroupConfig) : ConfigFault → Prop
  | name (blank : Text.trim g.name = []) : Breaks g .blankName
  | targets (name : Text.trim g.name ≠ []) (none : g.targets = []) : Breaks g (.noTargets g.name)
  | pause (name : Text.trim g.name ≠ []) (watches : g.targets ≠ [])
    (zero : g.delay.nanos = 0 ∨ g.warmBackoff.nanos = 0) : Breaks g (.zeroPause g.name)
  | id {before after : List WatchTarget} {t : WatchTarget} (sound : g.Sound)
    (split : g.targets = before ++ t :: after) (earlier : ValidTargets before)
    (used : ∃ b ∈ before, b.id = t.id) : Breaks g (.duplicateTarget g.name t.id)
  | ceiling {before after : List WatchTarget} {t : WatchTarget} {x : Float} (sound : g.Sound)
    (split : g.targets = before ++ t :: after) (earlier : ValidTargets before)
    (unused : ∀ b ∈ before, b.id ≠ t.id) (given : t.maxPrice = some x) (odd : ¬ IsPrice x) :
    Breaks g (.invalidCeiling g.name t.id x)
  | task {before after : List TaskConfig} {t : TaskConfig} {f : TaskFault} (sound : g.Sound)
    (targets : ValidTargets g.targets) (split : g.tasks = before ++ t :: after)
    (earlier : ∀ b ∈ before, b.Valid) (breaks : t.Breaks f) : Breaks g (.task (some g.name) f)

/-- The first fault of a configuration; each group is looked at as a whole, then at its name. -/
inductive Config.Breaks (c : Config) : ConfigFault → Prop
  | capacity (zero : c.settings.busCapacity = 0) : Breaks c .zeroCapacity
  | poll (capacity : 0 < c.settings.busCapacity) (zero : c.settings.accountPoll.nanos = 0) :
    Breaks c .zeroPoll
  | group {before after : List GroupConfig} {g : GroupConfig} {f : ConfigFault}
    (settings : c.settings.Valid) (split : c.groups = before ++ g :: after)
    (earlier : ValidGroups before) (breaks : g.Breaks f) : Breaks c f
  | name {before after : List GroupConfig} {g : GroupConfig} (settings : c.settings.Valid)
    (split : c.groups = before ++ g :: after) (earlier : ValidGroups before) (valid : g.Valid)
    (used : ∃ b ∈ before, b.name = g.name) : Breaks c (.duplicateName g.name)

/-! ### Settings and tasks -/

theorem validCeiling_iff {x : Float} : validCeiling x = true ↔ IsPrice x := by
  rw [validCeiling, Bool.and_eq_true, Bool.not_eq_true', decide_eq_false_iff_not]
  exact and_congr_right fun finite => not_lt_iff_le finite (by decide)

theorem isGrowth_iff {x : Float} : (x.isFinite && !(decide (x < 1.0))) = true ↔ IsGrowth x := by
  rw [Bool.and_eq_true, Bool.not_eq_true', decide_eq_false_iff_not]
  exact and_congr_right fun finite => not_lt_iff_le finite (by decide)

namespace Settings

variable {s : Settings} {f : ConfigFault}

theorem roomy_iff : (s.busCapacity != 0) = true ↔ 0 < s.busCapacity := by
  rw [bne_iff_ne, UInt64.pos_iff_ne_zero]

theorem validate_eq_ok_iff : s.validate = .ok () ↔ s.Valid := by
  rw [validate, then_eq_ok_iff, require_ok_iff roomy_iff, require_ok_iff Duration.lasts_iff]
  exact ⟨fun valid => ⟨valid.1, valid.2⟩, fun valid => ⟨valid.1, valid.2⟩⟩

end Settings

namespace TaskConfig

variable {t : TaskConfig} {f : TaskFault}

theorem named_iff : (t.credential.all fun c => !c.identifier.isEmpty) = true ↔
    ∀ c, t.credential = some c → c.identifier ≠ "" := by
  cases t.credential <;> simp

theorem validate_eq_ok_iff : t.validate = .ok () ↔ t.Valid := by
  rw [validate, then_eq_ok_iff, then_eq_ok_iff, require_ok_iff Duration.lasts_iff,
    require_ok_iff isGrowth_iff, require_ok_iff named_iff]
  exact ⟨fun valid => ⟨valid.1, valid.2.1, valid.2.2⟩,
    fun valid => ⟨valid.1, valid.2, valid.3⟩⟩

theorem validate_eq_error_iff : t.validate = .error f ↔ t.Breaks f := by
  rw [validate, then_eq_error_iff, then_eq_error_iff, require_error_iff Duration.lasts_iff,
    require_ok_iff Duration.lasts_iff, require_error_iff isGrowth_iff, require_ok_iff isGrowth_iff,
    require_error_iff named_iff]
  constructor
  · rintro (⟨zero, rfl⟩ | ⟨delay, ⟨shrinks, rfl⟩ | ⟨multiplier, unnamed, rfl⟩⟩)
    · exact .delay (Nat.eq_zero_of_not_pos zero)
    · exact .multiplier delay shrinks
    · obtain ⟨c, unnamed⟩ := not_forall.1 unnamed
      obtain ⟨member, empty⟩ := Classical.not_imp.1 unnamed
      exact .identifier delay multiplier member (not_not.1 empty)
  · intro breaks
    cases breaks with
    | delay zero => exact .inl ⟨zero ▸ Nat.lt_irrefl 0, rfl⟩
    | multiplier delay shrinks => exact .inr ⟨delay, .inl ⟨shrinks, rfl⟩⟩
    | identifier delay multiplier member empty =>
      exact .inr ⟨delay, .inr ⟨multiplier, fun named => named _ member empty, rfl⟩⟩

end TaskConfig

/-! ### Groups -/

namespace GroupConfig

variable {g : GroupConfig} {f : ConfigFault} {before : List WatchTarget} {t : WatchTarget}

theorem unused_iff : (before.all (·.id != t.id)) = true ↔ ∀ b ∈ before, b.id ≠ t.id := by
  simp

theorem checkTarget_eq_ok_iff {name : String} : checkTarget name before t = .ok () ↔
    (∀ b ∈ before, b.id ≠ t.id) ∧ ∀ x, t.maxPrice = some x → IsPrice x := by
  rw [checkTarget, then_eq_ok_iff, require_ok_iff unused_iff]
  refine and_congr_right fun _ => ?_
  cases t.maxPrice <;> simp [require_ok_iff validCeiling_iff]

theorem checkTarget_eq_error_iff {name : String} : checkTarget name before t = .error f ↔
    (∃ b ∈ before, b.id = t.id) ∧ .duplicateTarget name t.id = f ∨
      (∀ b ∈ before, b.id ≠ t.id) ∧
        ∃ x, t.maxPrice = some x ∧ ¬ IsPrice x ∧ .invalidCeiling name t.id x = f := by
  rw [checkTarget, then_eq_error_iff, require_error_iff unused_iff, require_ok_iff unused_iff]
  refine or_congr (by simp) (and_congr_right fun _ => ?_)
  cases t.maxPrice <;> simp [require_error_iff validCeiling_iff]

theorem checkTargets_eq_ok_iff {name : String} {ts : List WatchTarget} :
    checkAll (checkTarget name) [] ts = .ok () ↔ ValidTargets ts := by
  simp only [checkAll_eq_ok_iff, checkTarget_eq_ok_iff, List.nil_append]
  constructor
  · intro passes
    exact ⟨nodup_map_iff_before.2 fun l t r split => (passes l t r split).1,
      forall_split_iff.1 fun l t r split => (passes l t r split).2⟩
  · intro valid l t r split
    exact ⟨nodup_map_iff_before.1 valid.ids l t r split,
      valid.ceilings t (by simp [split])⟩

theorem checkTasks_eq_ok_iff {name : String} {ts : List TaskConfig} :
    checkAll (fun _ t => t.validate.mapError (ConfigFault.task (some name))) [] ts = .ok () ↔
      ∀ t ∈ ts, t.Valid := by
  simp only [checkAll_eq_ok_iff, mapError_eq_ok_iff, TaskConfig.validate_eq_ok_iff]
  exact forall_split_iff

theorem titled_iff : (!Text.isBlank g.name) = true ↔ Text.trim g.name ≠ [] := by
  rw [Bool.not_eq_true', ← Bool.not_eq_true, Text.isBlank_iff_trim]

theorem watches_iff : (!g.targets.isEmpty) = true ↔ g.targets ≠ [] := by
  simp

theorem pauses_iff : (!g.delay.isZero && !g.warmBackoff.isZero) = true ↔
    0 < g.delay.nanos ∧ 0 < g.warmBackoff.nanos := by
  rw [Bool.and_eq_true, Duration.lasts_iff, Duration.lasts_iff]

theorem validate_eq_ok_iff : g.validate = .ok () ↔ g.Valid := by
  rw [validate, then_eq_ok_iff, then_eq_ok_iff, then_eq_ok_iff, then_eq_ok_iff,
    require_ok_iff titled_iff, require_ok_iff watches_iff, require_ok_iff pauses_iff,
    checkTargets_eq_ok_iff, checkTasks_eq_ok_iff]
  constructor
  · rintro ⟨name, watches, ⟨delay, warmBackoff⟩, targets, tasks⟩
    exact ⟨⟨name, watches, delay, warmBackoff⟩, targets, tasks⟩
  · rintro ⟨⟨name, watches, delay, warmBackoff⟩, targets, tasks⟩
    exact ⟨name, watches, ⟨delay, warmBackoff⟩, targets, tasks⟩

theorem validate_eq_error_iff : g.validate = .error f ↔ g.Breaks f := by
  rw [validate, then_eq_error_iff, then_eq_error_iff, then_eq_error_iff, then_eq_error_iff,
    require_error_iff titled_iff, require_ok_iff titled_iff, require_error_iff watches_iff,
    require_ok_iff watches_iff, require_error_iff pauses_iff, require_ok_iff pauses_iff,
    checkTargets_eq_ok_iff]
  simp only [checkAll_eq_error_iff, List.nil_append, checkTargets_eq_ok_iff,
    checkTarget_eq_error_iff, checkTasks_eq_ok_iff, mapError_eq_error_iff,
    TaskConfig.validate_eq_error_iff]
  constructor
  · rintro (⟨blank, rfl⟩ | ⟨name, ⟨none, rfl⟩ | ⟨watches, ⟨zero, rfl⟩ |
      ⟨⟨delay, warmBackoff⟩, rest⟩⟩⟩)
    · exact .name (not_not.1 blank)
    · exact .targets name (not_not.1 none)
    · exact .pause name watches (by omega)
    have sound : g.Sound := ⟨name, watches, delay, warmBackoff⟩
    rcases rest with ⟨l, t, r, split, earlier, odd⟩ |
      ⟨targets, l, t, r, split, earlier, cause, breaks, rfl⟩
    · rcases odd with ⟨used, rfl⟩ | ⟨unused, x, given, odd, rfl⟩
      · exact .id sound split earlier used
      · exact .ceiling sound split earlier unused given odd
    · exact .task sound targets split earlier breaks
  · intro breaks
    cases breaks with
    | name blank => exact .inl ⟨not_not.2 blank, rfl⟩
    | targets name none => exact .inr ⟨name, .inl ⟨not_not.2 none, rfl⟩⟩
    | pause name watches zero => exact .inr ⟨name, .inr ⟨watches, .inl ⟨by omega, rfl⟩⟩⟩
    | id sound split earlier used =>
      obtain ⟨name, watches, delay, warmBackoff⟩ := sound
      exact .inr ⟨name, .inr ⟨watches, .inr ⟨⟨delay, warmBackoff⟩,
        .inl ⟨_, _, _, split, earlier, .inl ⟨used, rfl⟩⟩⟩⟩⟩
    | ceiling sound split earlier unused given odd =>
      obtain ⟨name, watches, delay, warmBackoff⟩ := sound
      exact .inr ⟨name, .inr ⟨watches, .inr ⟨⟨delay, warmBackoff⟩,
        .inl ⟨_, _, _, split, earlier, .inr ⟨unused, _, given, odd, rfl⟩⟩⟩⟩⟩
    | task sound targets split earlier breaks =>
      obtain ⟨name, watches, delay, warmBackoff⟩ := sound
      exact .inr ⟨name, .inr ⟨watches, .inr ⟨⟨delay, warmBackoff⟩,
        .inr ⟨targets, _, _, _, split, earlier, _, breaks, rfl⟩⟩⟩⟩

end GroupConfig

/-! ### Configurations -/

namespace Config

variable {c : Config} {f : ConfigFault} {before : List GroupConfig} {g : GroupConfig}

theorem unused_iff : (before.all (·.name != g.name)) = true ↔ ∀ b ∈ before, b.name ≠ g.name := by
  simp

theorem checkGroup_eq_ok_iff :
    checkGroup before g = .ok () ↔ g.Valid ∧ ∀ b ∈ before, b.name ≠ g.name := by
  rw [checkGroup, then_eq_ok_iff, GroupConfig.validate_eq_ok_iff, require_ok_iff unused_iff]

theorem checkGroup_eq_error_iff : checkGroup before g = .error f ↔
    g.Breaks f ∨ g.Valid ∧ (∃ b ∈ before, b.name = g.name) ∧ .duplicateName g.name = f := by
  rw [checkGroup, then_eq_error_iff, GroupConfig.validate_eq_error_iff,
    GroupConfig.validate_eq_ok_iff, require_error_iff unused_iff]
  simp

theorem checkGroups_eq_ok_iff {gs : List GroupConfig} :
    checkAll checkGroup [] gs = .ok () ↔ ValidGroups gs := by
  simp only [checkAll_eq_ok_iff, checkGroup_eq_ok_iff, List.nil_append]
  constructor
  · intro passes
    exact ⟨forall_split_iff.1 fun l g r split => (passes l g r split).1,
      nodup_map_iff_before.2 fun l g r split => (passes l g r split).2⟩
  · intro valid l g r split
    exact ⟨valid.valid g (by simp [split]), nodup_map_iff_before.1 valid.names l g r split⟩

theorem validate_eq_ok_iff : c.validate = .ok () ↔ c.Valid := by
  rw [validate, then_eq_ok_iff, Settings.validate_eq_ok_iff, checkGroups_eq_ok_iff]
  exact ⟨fun valid => ⟨valid.1, valid.2⟩, fun valid => ⟨valid.1, valid.2⟩⟩

theorem validate_eq_error_iff : c.validate = .error f ↔ c.Breaks f := by
  rw [validate, then_eq_error_iff, Settings.validate_eq_ok_iff, Settings.validate,
    then_eq_error_iff, require_error_iff Settings.roomy_iff, require_ok_iff Settings.roomy_iff,
    require_error_iff Duration.lasts_iff]
  simp only [checkAll_eq_error_iff, List.nil_append, checkGroups_eq_ok_iff, checkGroup_eq_error_iff]
  constructor
  · rintro ((⟨full, rfl⟩ | ⟨capacity, zero, rfl⟩) | ⟨settings, l, g, r, split, earlier, odd⟩)
    · exact .capacity (by simpa using full)
    · exact .poll capacity (Nat.eq_zero_of_not_pos zero)
    rcases odd with breaks | ⟨valid, used, rfl⟩
    · exact .group settings split earlier breaks
    · exact .name settings split earlier valid used
  · intro breaks
    cases breaks with
    | capacity zero => exact .inl (.inl ⟨by simp [zero], rfl⟩)
    | poll capacity zero => exact .inl (.inr ⟨capacity, by simp [zero], rfl⟩)
    | group settings split earlier breaks =>
      exact .inr ⟨settings, _, _, _, split, earlier, .inl breaks⟩
    | name settings split earlier valid used =>
      exact .inr ⟨settings, _, _, _, split, earlier, .inr ⟨valid, used, rfl⟩⟩

end Config

theorem ConfigFault.inGroup_eq (group text : String) :
    inGroup group text = "group '" ++ group ++ "'" ++ (": " ++ text) := by
  have quote : "': " = "'" ++ ": " := rfl
  rw [inGroup, quote, ← String.append_assoc]
  exact String.append_assoc

/-- Whatever is wrong with a group that has a name, the message begins with the name. -/
theorem GroupConfig.Breaks.named {g : GroupConfig} {f : ConfigFault} (breaks : g.Breaks f)
    (name : Text.trim g.name ≠ []) : ∃ rest, f.detail = "group '" ++ g.name ++ "'" ++ rest := by
  cases breaks with
  | name blank => exact absurd blank name
  | targets =>
    have quote : "'" ++ " has no targets" = "' has no targets" := by decide
    refine ⟨" has no targets", ?_⟩
    rw [String.append_assoc, quote]
    rfl
  | pause | id | ceiling | task => exact ⟨_, ConfigFault.inGroup_eq ..⟩

/-- A configuration is accepted if and only if it is valid. Otherwise it is refused for the
first fault that it has, and what is wrong with a group is told with the name of the group. -/
theorem Config.validation_is_exact (c : Config) :
    (c.validate = .ok () ↔ c.Valid) ∧ (∀ f, c.validate = .error f ↔ c.Breaks f) ∧
      ∀ g ∈ c.groups, Text.trim g.name ≠ [] → ∀ f, g.Breaks f →
        ∃ rest, f.detail = "group '" ++ g.name ++ "'" ++ rest :=
  ⟨validate_eq_ok_iff, fun _ => validate_eq_error_iff, fun _ _ name _ breaks => breaks.named name⟩

end Restock
