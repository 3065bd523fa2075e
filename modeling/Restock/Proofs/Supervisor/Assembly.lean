import Mathlib.Data.List.Perm.Subperm
import Mathlib.Data.String.Basic
import Restock.Proofs.Config.RoundTrip
import Restock.Proofs.Supervisor.Staff
import Restock.Supervisor.Builder

/-! Supervisors that are put together for a configuration.

A builder is told one thing after the other (`Builder.tell`), and what it was told last
about settings and expectations counts. If that is a valid configuration, the builder
checks beforehand what every start of a group will check again (`startGroup_ok_iff`): that
its retailer is registered. That the group is valid and that no other has its name is
checked with the configuration. So nothing is left to fail (`fails_fast`): of a supervisor
that could be built, each group of the configuration can be started once, in any order,
whatever happens in between, unless it is a shutdown. The invariant is that the running
groups are among those that were started (`Supervisor.Begun`). -/
namespace Restock

theorem map_eq_ok_iff {ε α β : Type} {r : Except ε α} {f : α → β} {b : β} :
    r.map f = .ok b ↔ ∃ a, r = .ok a ∧ f a = b := by
  cases r <;> simp [Except.map]

/-- Sorted by a key that no two share, a list is in strict order. -/
theorem sorted_by_key {α β : Type} [LinearOrder β] (key : α → β) (le : α → α → Bool)
    (keyed : ∀ a b, le a b = true ↔ key a ≤ key b) {l : List α} (apart : (l.map key).Nodup) :
    ((l.mergeSort le).map key).Pairwise (· < ·) := by
  have sorted : (l.mergeSort le).Pairwise fun a b => le a b = true :=
    List.pairwise_mergeSort
      (fun a b c ab bc => (keyed a c).2 (le_trans ((keyed a b).1 ab) ((keyed b c).1 bc)))
      (fun a b => by rw [Bool.or_eq_true, keyed, keyed]; exact le_total ..) l
  have apart : ((l.mergeSort le).map key).Nodup :=
    ((List.mergeSort_perm l le).map key).nodup_iff.2 apart
  refine List.pairwise_map.2 ?_
  exact sorted.imp₂ (fun a b le other => lt_of_le_of_ne ((keyed a b).1 le) other)
    (List.pairwise_map.1 apart)

namespace Builder

/-- What a builder is told. -/
inductive Telling
  | register (retailer : String)
  | expect (retailers : List String)
  | settings (settings : Settings)
  | config (c : Config)
  | ids (ids : IdSource)

/-- Settings or expectations, in place of those before. -/
def Telling.settles : Telling → Bool
  | .expect _ | .settings _ | .config _ => true
  | .register _ | .ids _ => false

def tell (b : Builder) : Telling → Except RegistryFault Builder
  | .register r => b.register r
  | .expect rs => .ok (b.expectRetailers rs)
  | .settings s => .ok (b.withSettings s)
  | .config c => .ok (b.withConfig c)
  | .ids ids => .ok (b.withIds ids)

/-- A builder that was told some things. -/
structure Told (xs : List Telling) (b : Builder) : Prop where
  registered : ∀ r, b.registry.has r = true ↔ .register r ∈ xs
  settled : ∀ c, (xs.filter Telling.settles).getLast? = some (.config c) →
    b.settings = c.settings ∧ b.expected = retailersOf c

section
variable {b b' : Builder} {x : Telling} {xs ys : List Telling} {c : Config} {r : String}

theorem told_new (ids : IdSource) : Told [] (.new ids) :=
  ⟨fun r => by simp [new, Registry.empty, Registry.has, Table.has], fun c last => by simp at last⟩

theorem has_tell (h : b.tell x = .ok b') (r : String) :
    b'.registry.has r = true ↔ b.registry.has r = true ∨ x = .register r := by
  cases x with
  | register name =>
    obtain ⟨registry, new, rfl⟩ := map_eq_ok_iff.1 h
    rw [Registry.register] at new
    split at new
    · contradiction
    · obtain rfl := Except.ok.inj new
      simp only [Registry.has, Table.has, Table.get?_put, Telling.register.injEq]
      split <;> simp [*]
  | expect | settings | config | ids =>
    obtain rfl := Except.ok.inj h
    exact (or_iff_left (by simp)).symm

/-- Only settings and expectations change what is settled. -/
theorem settled_tell (h : b.tell x = .ok b') (other : x.settles = false) :
    b'.settings = b.settings ∧ b'.expected = b.expected := by
  cases x with
  | register name =>
    obtain ⟨registry, -, rfl⟩ := map_eq_ok_iff.1 h
    exact ⟨rfl, rfl⟩
  | ids =>
    obtain rfl := Except.ok.inj h
    exact ⟨rfl, rfl⟩
  | expect | settings | config => contradiction

theorem Told.tell (told : Told xs b) (h : b.tell x = .ok b') : Told (xs ++ [x]) b' := by
  refine ⟨fun r => ?_, fun c last => ?_⟩
  · rw [has_tell h, told.registered, List.mem_append, List.mem_singleton, @eq_comm _ x]
  · cases settles : x.settles with
    | false =>
      rw [(settled_tell h settles).1, (settled_tell h settles).2]
      exact told.settled c (by simpa [settles] using last)
    | true =>
      obtain rfl : x = .config c := by simpa [settles] using last
      obtain rfl := Except.ok.inj h
      exact ⟨rfl, rfl⟩

theorem Told.tellAll (told : Told xs b) (h : ys.foldlM Builder.tell b = .ok b') :
    Told (xs ++ ys) b' := by
  induction ys generalizing xs b with
  | nil =>
    obtain rfl := Except.ok.inj h
    rwa [List.append_nil]
  | cons y ys ih =>
    rw [List.foldlM_cons] at h
    obtain ⟨b₁, first, rest⟩ := bind_eq_ok_iff.1 h
    simpa using ih (told.tell first) rest

/-! ### What is built -/

theorem nodup_eraseDups : ∀ texts : List String, texts.eraseDups.Nodup
  | [] => List.nodup_nil
  | t :: ts => by
    rw [List.eraseDups_cons, List.nodup_cons]
    exact ⟨by simp [List.mem_eraseDups], nodup_eraseDups _⟩
termination_by texts => texts.length
decreasing_by exact Nat.lt_succ_of_le (List.length_filter_le ..)

theorem mem_retailersOf : r ∈ retailersOf c ↔ ∃ g ∈ c.groups, g.retailer = r := by
  simp [retailersOf, sortTexts]

theorem sorted_retailersOf (c : Config) : (retailersOf c).Pairwise (· < ·) := by
  have apart : ((c.groups.map GroupConfig.retailer).eraseDups.map fun r => r).Nodup := by
    rw [List.map_id']
    exact nodup_eraseDups _
  have sorted := sorted_by_key (fun r : String => r) (fun a b => decide (a ≤ b))
    (fun a b => decide_eq_true_iff) apart
  rwa [List.map_id'] at sorted

/-- What is missing are the retailers of the configuration that nobody registered. -/
theorem Told.mem_missing_iff (told : Told xs b) (expected : b.expected = retailersOf c) :
    r ∈ b.missing ↔ (∃ g ∈ c.groups, g.retailer = r) ∧ .register r ∉ xs := by
  have unknown : b.registry.has r = false ↔ .register r ∉ xs := by
    rw [← Bool.not_eq_true, told.registered r]
  rw [missing, expected, List.mem_filter, mem_retailersOf, Bool.not_eq_true', unknown]

theorem build_eq (valid : b.settings.validate = .ok ()) :
    b.build = if b.missing = [] then .ok (.new b.registry b.settings b.ids)
      else .error (.missingRetailers b.missing) := by
  unfold build
  rw [valid]
  cases b.missing <;> rfl

theorem build_eq_ok_iff (valid : b.settings.validate = .ok ()) {s : Supervisor} :
    b.build = .ok s ↔ b.missing = [] ∧ .new b.registry b.settings b.ids = s := by
  rw [build_eq valid]
  split <;> simp [*]

theorem build_eq_error_iff (valid : b.settings.validate = .ok ()) {f : BuildFault} :
    b.build = .error f ↔ b.missing ≠ [] ∧ .missingRetailers b.missing = f := by
  rw [build_eq valid]
  split <;> simp [*]

end

end Builder

/-! ### Starts -/

theorem Registry.get_eq_ok_iff {registry : Registry Unit} {name : String} :
    registry.get name = .ok () ↔ registry.has name = true := by
  rw [Registry.get, Registry.has, Table.has]
  cases registry.retailers.get? name <;> simp

theorem Registry.get_eq_error {registry : Registry Unit} {name : String}
    (unknown : registry.has name = false) : registry.get name = .error (.notRegistered name) := by
  rw [Registry.has, Table.has, Option.isSome_eq_false_iff, Option.isNone_iff_eq_none] at unknown
  rw [Registry.get, unknown]

namespace Supervisor

/-- The group that an occasion is to start. -/
def Occasion.starts : Occasion → List GroupConfig
  | .startGroup c => [c]
  | _ => []

/-- The supervisor of a registry that is up, and runs only groups of those begun. -/
structure Begun (registry : Registry Unit) (begun : List GroupConfig) (s : Supervisor) : Prop where
  registry : s.registry = registry
  up : s.closed = false
  groups : ∀ group ∈ s.groups.values, group.config ∈ begun

section
variable {s s' : Supervisor} {o : Occasion} {seen : List Happening} {g : GroupId}
  {registry : Registry Unit} {begun : List GroupConfig} {c : GroupConfig}

theorem nameTaken_eq_false_iff {name : String} :
    s.nameTaken name = false ↔ ∀ group ∈ s.groups.values, group.config.name ≠ name := by
  rw [nameTaken, List.any_eq_false, Table.values, List.forall_mem_map]
  simp

/-- A group can be started if the supervisor is up, the group is valid, its retailer is
registered and no running group has its name. -/
theorem startGroup_ok_iff : (∃ g s' seen, s.startGroup c = .ok (g, s', seen)) ↔
    s.closed = false ∧ c.validate = .ok () ∧ s.registry.has c.retailer = true ∧
      ∀ group ∈ s.groups.values, group.config.name ≠ c.name := by
  rw [← nameTaken_eq_false_iff, ← Registry.get_eq_ok_iff]
  unfold startGroup
  simp only [bind, Except.bind, throw, throwThe, MonadExceptOf.throw]
  cases s.closed with
  | true => simp
  | false =>
    cases c.validate with
    | error f => simp [Except.mapError]
    | ok =>
      cases s.registry.get c.retailer with
      | error f => simp [Except.mapError]
      | ok =>
        cases s.nameTaken c.name with
        | true => simp [Except.mapError]
        | false => exact iff_of_true ⟨_, _, _, rfl⟩ ⟨rfl, rfl, rfl, rfl⟩

theorem standing_spawnTasks (monitor : Nat) (retailer : String) (owned : Table TaskId Nat)
    (cs : List TaskConfig) :
    (s.spawnTasks g monitor retailer owned cs).2.registry = s.registry ∧
      (s.spawnTasks g monitor retailer owned cs).2.closed = s.closed := by
  induction cs generalizing s owned with
  | nil => exact ⟨rfl, rfl⟩
  | cons c cs ih =>
    exact @ih (s.spawnTask g monitor retailer c).2.2 (owned.put (s.spawnTask g monitor retailer c).1
      (s.spawnTask g monitor retailer c).2.1)

theorem standing_startGroup (h : s.startGroup c = .ok (g, s', seen)) :
    s'.registry = s.registry ∧ s'.closed = s.closed := by
  obtain ⟨-, hs⟩ := startGroup_ok h
  obtain ⟨rfl, -⟩ := Prod.mk.inj hs
  exact standing_spawnTasks (s := s.opened) ..

/-- What may be started depends on nothing but starts and shutdowns. -/
theorem standing_take? (taken : s.take? o = some (s', seen)) (up : o ≠ .shutdown) :
    s'.registry = s.registry ∧ s'.closed = s.closed := by
  cases grants_of_take? taken with
  | act acts =>
    obtain ⟨⟨w, seen⟩, -, h⟩ := Option.map_eq_some_iff.1 acts
    obtain ⟨rfl, -⟩ := Prod.mk.inj h
    split <;> exact ⟨rfl, rfl⟩
  | startGroup ok => exact standing_startGroup ok
  | addTask ok =>
    obtain ⟨group, -, rfl⟩ := addTask_ok ok
    exact ⟨rfl, rfl⟩
  | stopTask ok =>
    unfold stopTask at ok
    split at ok
    · contradiction
    · obtain ⟨-, h⟩ := Prod.mk.inj (Except.ok.inj ok)
      obtain ⟨rfl, -⟩ := Prod.mk.inj h
      exact ⟨rfl, rfl⟩
  | stopGroup ok =>
    unfold stopGroup at ok
    split at ok
    · contradiction
    · obtain ⟨-, h⟩ := Prod.mk.inj (Except.ok.inj ok)
      obtain ⟨rfl, -⟩ := Prod.mk.inj h
      exact ⟨rfl, rfl⟩
  | shutdown => contradiction
  | settle settles => cases settles <;> exact ⟨rfl, rfl⟩

/-- A running group ran before, with the same configuration, or was started. -/
theorem groups_take? (taken : s.take? o = some (s', seen)) {group : Group}
    (running : group ∈ s'.groups.values) :
    group.config ∈ o.starts ∨ ∃ old ∈ s.groups.values, old.config = group.config := by
  cases grants_of_take? taken with
  | act acts =>
    obtain ⟨-, -, -, groups, -⟩ := act?_ok acts
    exact .inr ⟨group, groups ▸ running, rfl⟩
  | startGroup ok =>
    obtain ⟨-, -, groups, -⟩ := startGroup_frame ok
    rcases Table.of_mem_values_put (groups ▸ running) with rfl | before
    · exact .inl (List.mem_singleton_self _)
    · exact .inr ⟨group, before, rfl⟩
  | addTask ok =>
    obtain ⟨old, there, rfl⟩ := addTask_ok ok
    rcases Table.of_mem_values_put running with rfl | before
    · exact .inr ⟨old, Table.mem_values_of_get? there, rfl⟩
    · exact .inr ⟨group, before, rfl⟩
  | stopTask ok =>
    obtain ⟨g, n, -, -, -, -, groups, -⟩ := stopTask_ok ok
    rw [groups] at running
    obtain ⟨⟨i, _⟩, there, rfl⟩ := List.mem_map.1 running
    obtain ⟨⟨i, old⟩, before, same⟩ := List.mem_map.1 there
    refine .inr ⟨old, List.mem_map_of_mem before, ?_⟩
    split at same <;> obtain ⟨-, rfl⟩ := Prod.mk.inj same <;> rfl
  | stopGroup ok =>
    obtain ⟨-, -, -, -, -, -, -, groups, -⟩ := stopGroup_ok ok
    rw [groups] at running
    exact .inr ⟨group, (List.filter_sublist.map _).subset running, rfl⟩
  | shutdown =>
    cases up : s.closed with
    | true =>
      rw [shutdown_closed up] at running
      exact .inr ⟨group, running, rfl⟩
    | false =>
      obtain ⟨-, -, -, -, -, none, -⟩ := shutdown_open up
      rw [none] at running
      exact absurd running List.not_mem_nil
  | settle settles => exact .inr ⟨group, by cases settles <;> exact running, rfl⟩

theorem Begun.step (h : Begun registry begun s) (taken : s.take? o = some (s', seen))
    (up : o ≠ .shutdown) : Begun registry (begun ++ o.starts) s' := by
  obtain ⟨sameRegistry, same⟩ := standing_take? taken up
  refine ⟨sameRegistry.trans h.registry, same.trans h.up, fun group running => ?_⟩
  rcases groups_take? taken running with started | ⟨old, before, same⟩
  · exact List.mem_append_right _ started
  · exact List.mem_append_left _ (same ▸ h.groups old before)

theorem Begun.follow (h : Begun registry begun s) {os : List Occasion} (up : .shutdown ∉ os) :
    Begun registry (begun ++ os.flatMap Occasion.starts) (Trail.follow take? s os).2 := by
  induction os generalizing s begun with
  | nil => exact (List.append_nil begun).symm ▸ h
  | cons o os ih =>
    obtain ⟨other, up⟩ := not_or.1 (List.mem_cons.not.1 up)
    rw [List.flatMap_cons, ← List.append_assoc, Trail.follow]
    cases taken : s.take? o with
    | some t => exact ih (h.step taken (Ne.symm other)) up
    | none =>
      -- What is refused begins nothing, and is counted all the same.
      exact ih ⟨h.registry, h.up, fun group running =>
        List.mem_append_left _ (h.groups group running)⟩ up

end

end Supervisor

/-- Each group of a valid configuration can be started where its retailer is registered, if
no other group is started and none of them twice. -/
theorem Supervisor.Begun.starts {c : Config} {s : Supervisor} {registry : Registry Unit}
    (h : Begun registry [] s) (valid : c.validate = .ok ())
    (known : ∀ g ∈ c.groups, registry.has g.retailer = true) {before after : List Occasion}
    {g : GroupConfig} (up : .shutdown ∉ before)
    (once : ((before ++ .startGroup g :: after).flatMap Occasion.starts).Subperm c.groups) :
    ∃ id s' seen, (Trail.follow take? s before).2.startGroup g = .ok (id, s', seen) := by
  have begun := h.follow up
  have among : g ∈ c.groups := once.subset (by simp [Occasion.starts])
  have names := (Config.validate_eq_ok_iff.1 valid).groups.names
  obtain ⟨started, same, part⟩ := once
  have apart : ((before ++ .startGroup g :: after).flatMap Occasion.starts).map GroupConfig.name
      |>.Nodup := (same.map _).nodup_iff.1 ((part.map _).nodup names)
  rw [List.flatMap_append, List.map_append, List.nodup_append] at apart
  refine startGroup_ok_iff.2 ⟨begun.up, Config.valid_of_mem valid among, ?_,
    fun group running taken => ?_⟩
  · rw [begun.registry]
    exact known g among
  · refine apart.2.2 _ (List.mem_map_of_mem (begun.groups group running)) g.name ?_ taken
    simp [Occasion.starts]

namespace Builder

/-- A builder that was last told of a valid configuration fails exactly if a retailer of
its groups is not registered, and then it says which. Otherwise nothing is left to fail: of
the supervisor that it builds, each group of the configuration can be started, once, in any
order and whatever happens in between, if it is not a shutdown or the start of another group. -/
theorem fails_fast {c : Config} (valid : c.validate = .ok ()) {ids : IdSource}
    {xs : List Telling} {b : Builder} (told : xs.foldlM tell (.new ids) = .ok b)
    (last : (xs.filter Telling.settles).getLast? = some (.config c)) :
    ((∃ f, b.build = .error f) ↔ ∃ g ∈ c.groups, .register g.retailer ∉ xs) ∧
    (∀ f, b.build = .error f → ∃ rs, f = .missingRetailers rs ∧ rs.Pairwise (· < ·) ∧
      ∀ r, r ∈ rs ↔ (∃ g ∈ c.groups, g.retailer = r) ∧ .register r ∉ xs) ∧
    ∀ s, b.build = .ok s → ∀ os : List Supervisor.Occasion, .shutdown ∉ os →
      (os.flatMap Supervisor.Occasion.starts).Subperm c.groups →
      ∀ before g after, os = before ++ .startGroup g :: after →
        ∃ id s' seen, (Trail.follow Supervisor.take? s before).2.startGroup g =
          .ok (id, s', seen) := by
  have told : Told xs b := (told_new ids).tellAll told
  obtain ⟨settings, expected⟩ := told.settled c last
  obtain ⟨_, passes, -⟩ := bind_eq_ok_iff.1 valid
  rw [← settings] at passes
  refine ⟨⟨fun failed => ?_, fun unknown => ?_⟩, fun f failed => ?_,
    fun s made os up once before g after split => ?_⟩
  · obtain ⟨f, failed⟩ := failed
    obtain ⟨r, there⟩ := List.exists_mem_of_ne_nil _ ((build_eq_error_iff passes).1 failed).1
    obtain ⟨⟨g, among, rfl⟩, unknown⟩ := (told.mem_missing_iff expected).1 there
    exact ⟨g, among, unknown⟩
  · obtain ⟨g, among, unknown⟩ := unknown
    have there := (told.mem_missing_iff expected).2 ⟨⟨g, among, rfl⟩, unknown⟩
    exact ⟨_, (build_eq_error_iff passes).2 ⟨List.ne_nil_of_mem there, rfl⟩⟩
  · obtain ⟨-, rfl⟩ := (build_eq_error_iff passes).1 failed
    refine ⟨b.missing, rfl, ?_, fun r => told.mem_missing_iff expected⟩
    rw [missing, expected]
    exact (sorted_retailersOf c).filter _
  · obtain ⟨none, rfl⟩ := (build_eq_ok_iff passes).1 made
    have begun : Supervisor.Begun b.registry [] (.new b.registry b.settings b.ids) :=
      ⟨rfl, rfl, fun group running => absurd running List.not_mem_nil⟩
    have known : ∀ g ∈ c.groups, b.registry.has g.retailer = true := by
      intro g among
      by_contra unknown
      have there := (told.mem_missing_iff expected).2
        ⟨⟨g, among, rfl⟩, mt (told.registered _).2 unknown⟩
      exact List.ne_nil_of_mem there none
    subst split
    exact begun.starts valid known (fun h => up (List.mem_append_left _ h)) once

def booth (name retailer : String) : GroupConfig :=
  { GroupConfig.standard with name, retailer, targets := [⟨"x", none, .any⟩] }

def fair : Config := ⟨.standard, [booth "a" "north", booth "b" "south"]⟩

/-- What the builder of a fair is told, but for one retailer. -/
def fairTellings : List Telling := [.expect ["east"], .register "north", .config fair]

/-- The second group goes first, and is stopped before the other starts. -/
def fairDay : List Supervisor.Occasion :=
  [.startGroup (booth "b" "south"), .stopGroup (.ofNat 1), .startGroup (booth "a" "north")]

theorem start_of_a_fair :
    fair.validate = .ok () ∧
    (∃ b rs, fairTellings.foldlM tell (.new (.ofLists [] [])) = .ok b ∧
      b.build = .error (.missingRetailers rs) ∧ ∀ r, r ∈ rs ↔ r = "south") ∧
    ∃ b s, (fairTellings ++ [Telling.register "south"]).foldlM tell (.new (.ofLists [] [])) = .ok b ∧
      b.build = .ok s ∧ ∃ id s' seen, (Trail.follow Supervisor.take? s (fairDay.take 2)).2.startGroup
        (booth "a" "north") = .ok (id, s', seen) := by
  have valid : fair.validate = .ok () := by decide +kernel
  have booths : ∀ g ∈ fair.groups, g = booth "a" "north" ∨ g = booth "b" "south" := by simp [fair]
  refine ⟨valid, ?_, ?_⟩
  · have told : fairTellings.foldlM tell (.new (.ofLists [] [])) = .ok _ := rfl
    obtain ⟨fails, which, -⟩ := fails_fast valid told rfl
    obtain ⟨f, failed⟩ := fails.2 ⟨booth "b" "south", by simp [fair], by simp [fairTellings, booth]⟩
    obtain ⟨rs, rfl, -, missing⟩ := which f failed
    refine ⟨_, rs, told, failed, fun r => (missing r).trans ?_⟩
    constructor
    · rintro ⟨⟨g, among, rfl⟩, unknown⟩
      rcases booths g among with rfl | rfl
      · simp [fairTellings, booth] at unknown
      · rfl
    · rintro rfl
      exact ⟨⟨booth "b" "south", by simp [fair], rfl⟩, by simp [fairTellings]⟩
  · have told : (fairTellings ++ [Telling.register "south"]).foldlM tell (.new (.ofLists [] [])) =
      .ok _ := rfl
    obtain ⟨fails, -, starts⟩ := fails_fast valid told rfl
    cases made : Builder.build _ with
    | error f =>
      obtain ⟨g, among, unknown⟩ := fails.1 ⟨f, made⟩
      rcases booths g among with rfl | rfl
      · simp [fairTellings, booth] at unknown
      · simp [fairTellings, booth] at unknown
    | ok s =>
      exact ⟨_, s, told, made,
        starts s made fairDay (by simp [fairDay]) (List.Perm.swap ..).subperm _ _ [] rfl⟩

end Builder

end Restock
