import Restock.Stock.Sighting

/-! What a sighting shows.

`Hit` and `SeenIdle` say of one id what the targets make of a list of reports, and
`FirstOffer` which target speaks for an id. The sighting that `Sighting.ofReports`
gathers target by target shows exactly that (`shows_ofReports`): its hits are the
first offers, in the order of the targets and one for each id that is hit. -/
namespace Restock

/-- Some target with the id finds its report actionable. -/
def Hit (targets : List WatchTarget) (reports : Reports) (id : String) : Prop :=
  ∃ t ∈ targets, t.id = id ∧ ∃ r p, reports.get? id = some r ∧ t.evaluate r = .actionable p

/-- Some target with the id finds no stock, or filters it out. -/
def SeenIdle (targets : List WatchTarget) (reports : Reports) (id : String) : Prop :=
  ∃ t ∈ targets, t.id = id ∧ ∃ r, reports.get? id = some r ∧
    (t.evaluate r = .outOfStock ∨ t.evaluate r = .filtered)

/-- The target at a place makes a product of its report, and no target before it
with the same id does. -/
def FirstOffer (targets : List WatchTarget) (reports : Reports) (place : Nat) (p : Product) :
    Prop :=
  ∃ t r, targets[place]? = some t ∧ reports.get? t.id = some r ∧ t.evaluate r = .actionable p ∧
    ∀ j < place, ∀ u, targets[j]? = some u → u.id = t.id → ∀ q, u.evaluate r ≠ .actionable q

/-- The sighting shows what the targets make of the reports. -/
structure Shows (targets : List WatchTarget) (reports : Reports) (s : Sighting) : Prop where
  hits : ∀ id, id ∈ s.hitIds ↔ Hit targets reports id
  idle : ∀ id, id ∈ s.idle ↔ SeenIdle targets reports id
  once : s.hitIds.Nodup
  order : ∃ offers : List (Nat × Product), offers.map Prod.snd = s.hits ∧
    (offers.map Prod.fst).Pairwise (· < ·) ∧ ∀ o ∈ offers, FirstOffer targets reports o.1 o.2

/-- A product goes by the id of the target that asked for it. -/
theorem targetId_of_evaluate {t : WatchTarget} {r : StockReport} {p : Product}
    (h : t.evaluate r = .actionable p) : p.targetId = t.id := by
  unfold WatchTarget.evaluate at h
  repeat' split at h
  all_goals first | contradiction | (obtain rfl := Evaluation.actionable.inj h; rfl)

section
variable {seen : List WatchTarget} {reports : Reports} {s : Sighting} {t : WatchTarget}
  {r : StockReport}

/-! ### One more target -/

theorem hit_snoc_iff {id : String} :
    Hit (seen ++ [t]) reports id ↔ Hit seen reports id ∨
      t.id = id ∧ ∃ r p, reports.get? id = some r ∧ t.evaluate r = .actionable p := by
  simp [Hit, or_and_right, exists_or]

theorem seenIdle_snoc_iff {id : String} :
    SeenIdle (seen ++ [t]) reports id ↔ SeenIdle seen reports id ∨
      t.id = id ∧ ∃ r, reports.get? id = some r ∧
        (t.evaluate r = .outOfStock ∨ t.evaluate r = .filtered) := by
  simp [SeenIdle, or_and_right, exists_or]

theorem FirstOffer.lt {place : Nat} {p : Product} (h : FirstOffer seen reports place p) :
    place < seen.length := by
  obtain ⟨u, -, hu, -⟩ := h
  exact (List.getElem?_eq_some_iff.1 hu).1

theorem FirstOffer.snoc {place : Nat} {p : Product} (h : FirstOffer seen reports place p) :
    FirstOffer (seen ++ [t]) reports place p := by
  have hlt := h.lt
  obtain ⟨u, r, hu, hr, he, hfirst⟩ := h
  refine ⟨u, r, by rw [List.getElem?_append_left hlt, hu], hr, he, fun j hj v hv => ?_⟩
  rw [List.getElem?_append_left (by omega)] at hv
  exact hfirst j hj v hv

/-- A further target does not come before the first offers there are. -/
theorem Shows.order_snoc (h : Shows seen reports s) :
    ∃ offers : List (Nat × Product), offers.map Prod.snd = s.hits ∧
      (offers.map Prod.fst).Pairwise (· < ·) ∧
      ∀ o ∈ offers, FirstOffer (seen ++ [t]) reports o.1 o.2 := by
  obtain ⟨offers, hs, hp, ho⟩ := h.order
  exact ⟨offers, hs, hp, fun o hm => (ho o hm).snoc⟩

/-- A target that makes no product changes no hit. -/
theorem hit_snoc_of_not_actionable {id : String} (hr : reports.get? t.id = some r)
    (h : ∀ p, t.evaluate r ≠ .actionable p) :
    Hit (seen ++ [t]) reports id ↔ Hit seen reports id := by
  rw [hit_snoc_iff]
  refine ⟨fun hh => hh.resolve_right ?_, .inl⟩
  intro first
  obtain ⟨rfl, r', p, hr', he⟩ := first
  obtain rfl := Option.some.inj (hr.symm.trans hr')
  exact h p he

theorem seenIdle_snoc_of_not_idle {id : String} (hr : reports.get? t.id = some r)
    (h : t.evaluate r ≠ .outOfStock ∧ t.evaluate r ≠ .filtered) :
    SeenIdle (seen ++ [t]) reports id ↔ SeenIdle seen reports id := by
  rw [seenIdle_snoc_iff]
  refine ⟨fun hh => hh.resolve_right ?_, .inl⟩
  intro first
  obtain ⟨rfl, r', hr', he⟩ := first
  obtain rfl := Option.some.inj (hr.symm.trans hr')
  exact he.elim h.1 h.2

theorem Shows.missing (h : Shows seen reports s) (hr : reports.get? t.id = none) :
    Shows (seen ++ [t]) reports s := by
  refine ⟨fun id => ?_, fun id => ?_, h.once, ?_⟩
  · rw [h.hits, hit_snoc_iff]
    refine ⟨.inl, fun hh => hh.resolve_right ?_⟩
    intro first
    obtain ⟨rfl, r, p, hr', -⟩ := first
    rw [hr] at hr'
    contradiction
  · rw [h.idle, seenIdle_snoc_iff]
    refine ⟨.inl, fun hh => hh.resolve_right ?_⟩
    intro first
    obtain ⟨rfl, r, hr', -⟩ := first
    rw [hr] at hr'
    contradiction
  · exact h.order_snoc

/-- The target finds no stock or filters it out. -/
theorem Shows.cold (h : Shows seen reports s) (hr : reports.get? t.id = some r)
    (he : t.evaluate r = .outOfStock ∨ t.evaluate r = .filtered) (out : Bool) :
    Shows (seen ++ [t]) reports { s with idle := s.idle ++ [t.id], outOfStock := out } := by
  have hact : ∀ p, t.evaluate r ≠ .actionable p := by
    intro p hp
    rcases he with he | he <;> rw [he] at hp <;> contradiction
  refine ⟨fun id => ?_, fun id => ?_, h.once, ?_⟩
  · rw [hit_snoc_of_not_actionable hr hact]
    exact h.hits id
  · rw [seenIdle_snoc_iff, ← h.idle, List.mem_append, List.mem_singleton]
    refine or_congr_right ⟨?_, fun hh => hh.1.symm⟩
    intro same
    subst same
    exact ⟨rfl, r, hr, he⟩
  · exact h.order_snoc

/-- The target makes nothing of the report. -/
theorem Shows.malformed (h : Shows seen reports s) (hr : reports.get? t.id = some r)
    {why : Malformation} (he : t.evaluate r = .malformed why) : Shows (seen ++ [t]) reports s := by
  refine ⟨fun id => ?_, fun id => ?_, h.once, ?_⟩
  · rw [hit_snoc_of_not_actionable hr (by simp [he])]
    exact h.hits id
  · rw [seenIdle_snoc_of_not_idle hr (by simp [he])]
    exact h.idle id
  · exact h.order_snoc

/-- The target makes a product, but its id was hit before. -/
theorem Shows.again (h : Shows seen reports s) (hr : reports.get? t.id = some r) {p : Product}
    (he : t.evaluate r = .actionable p) (hm : t.id ∈ s.hitIds) : Shows (seen ++ [t]) reports s := by
  refine ⟨fun id => ?_, fun id => ?_, h.once, ?_⟩
  · rw [hit_snoc_iff, ← h.hits]
    refine ⟨.inl, fun hh => hh.elim (fun hh => hh) ?_⟩
    intro first
    obtain ⟨rfl, -⟩ := first
    exact hm
  · rw [seenIdle_snoc_of_not_idle hr (by simp [he])]
    exact h.idle id
  · exact h.order_snoc

/-- The target makes the first product under its id. -/
theorem Shows.offer (h : Shows seen reports s) (hr : reports.get? t.id = some r) {p : Product}
    (he : t.evaluate r = .actionable p) (hm : t.id ∉ s.hitIds) :
    Shows (seen ++ [t]) reports { s with hits := s.hits ++ [p] } := by
  have hid := targetId_of_evaluate he
  have hids : (s.hits ++ [p]).map Product.targetId = s.hitIds ++ [t.id] := by
    simp [Sighting.hitIds, hid]
  refine ⟨fun id => ?_, fun id => ?_, ?_, ?_⟩
  · show id ∈ (s.hits ++ [p]).map Product.targetId ↔ _
    rw [hids, hit_snoc_iff, ← h.hits, List.mem_append, List.mem_singleton]
    refine or_congr_right ⟨?_, fun hh => hh.1.symm⟩
    intro same
    subst same
    exact ⟨rfl, r, p, hr, he⟩
  · rw [seenIdle_snoc_of_not_idle hr (by simp [he])]
    exact h.idle id
  · show ((s.hits ++ [p]).map Product.targetId).Nodup
    rw [hids, List.nodup_append]
    refine ⟨h.once, by simp, fun a ha b hb => ?_⟩
    obtain rfl := List.mem_singleton.1 hb
    exact fun e => hm (e ▸ ha)
  · obtain ⟨offers, hs, hp, ho⟩ := h.order
    refine ⟨offers ++ [(seen.length, p)], by simp [hs], ?_, fun o hmem => ?_⟩
    · rw [List.map_append, List.pairwise_append]
      refine ⟨hp, by simp, fun i hi j hj => ?_⟩
      obtain rfl : j = seen.length := by simpa using hj
      obtain ⟨o, hmem, rfl⟩ := List.mem_map.1 hi
      exact (ho o hmem).lt
    · rcases List.mem_append.1 hmem with hmem | hmem
      · exact (ho o hmem).snoc
      · obtain rfl := List.mem_singleton.1 hmem
        -- Nobody before made a product under this id, for it was no hit.
        refine ⟨t, r, by simp, hr, he, fun j hj u hu hid q hq => hm ((h.hits t.id).2 ?_)⟩
        rw [List.getElem?_append_left hj] at hu
        exact ⟨u, List.mem_of_getElem? hu, hid, r, q, hr, hq⟩

theorem Shows.see (h : Shows seen reports s) : Shows (seen ++ [t]) reports (s.see reports t) := by
  unfold Sighting.see
  split
  · next r hr =>
    cases he : t.evaluate r with
    | actionable p =>
      by_cases hm : t.id ∈ s.hitIds
      · simpa [Sighting.add, hm] using h.again hr he hm
      · simpa [Sighting.add, hm] using h.offer hr he hm
    | filtered => exact h.cold hr (.inr he) s.outOfStock
    | outOfStock => exact h.cold hr (.inl he) true
    | malformed why => exact h.malformed hr he
  · next hr => exact h.missing hr

/-! ### All targets -/

theorem shows_none : Shows [] reports .none :=
  ⟨by simp [Sighting.hitIds, Sighting.none, Hit], by simp [Sighting.none, SeenIdle],
    by simp [Sighting.hitIds, Sighting.none], [], by simp [Sighting.none]⟩

theorem Shows.foldl (h : Shows seen reports s) (later : List WatchTarget) :
    Shows (seen ++ later) reports (later.foldl (Sighting.see reports) s) := by
  induction later generalizing seen s with
  | nil => rw [List.append_nil]; exact h
  | cons t later ih =>
    have := ih (h.see (t := t))
    rwa [List.append_assoc] at this

theorem shows_ofReports (targets : List WatchTarget) (reports : Reports) :
    Shows targets reports (.ofReports targets reports) := shows_none.foldl targets

end

end Restock
