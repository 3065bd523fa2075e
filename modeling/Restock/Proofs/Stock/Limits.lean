import Restock.Proofs.Config.Rules
import Restock.Proofs.Stock.Sightings

/-! The limits of a target.

A target of a valid group has a finite ceiling, if it has one. It acts on a report if
and only if the report keeps within its limits (`evaluate_eq_actionable_iff`), however
odd the report is otherwise: prices that are finite are in order, and a price that is
none is refused. -/
namespace Restock

/-- A report that a target may act on, with the way in which the product is to be had. -/
structure WithinLimits (t : WatchTarget) (r : StockReport) (k : FulfillmentKind) : Prop where
  inStock : r.status = .inStock
  finite : r.price.isFinite = true
  unsigned : 0 ≤ r.price
  affordable : ∀ ceiling, t.maxPrice = some ceiling → r.price ≤ ceiling
  kind : r.fulfillment = some k
  accepted : t.mode.accepts k = true

/-- The ceiling of the target is a finite price. -/
def WatchTarget.Capped (t : WatchTarget) : Prop := ∀ x, t.maxPrice = some x → validCeiling x = true

section
variable {t : WatchTarget} {r : StockReport} {k : FulfillmentKind} {p : Product}

theorem withinCeiling_iff (capped : t.Capped) {price : Float} (finite : price.isFinite = true) :
    t.withinCeiling price = true ↔ ∀ ceiling, t.maxPrice = some ceiling → price ≤ ceiling := by
  unfold WatchTarget.withinCeiling
  cases hc : t.maxPrice with
  | none => simp
  | some ceiling =>
    have valid := capped ceiling hc
    simp only [validCeiling, Bool.and_eq_true] at valid
    simp [← not_lt_iff_le valid.1 finite]

theorem evaluate_eq_actionable_iff (capped : t.Capped) :
    t.evaluate r = .actionable p ↔ ∃ k, WithinLimits t r k ∧ p = t.product r k := by
  constructor
  · intro acts
    unfold WatchTarget.evaluate at acts
    split at acts
    · contradiction
    next status =>
    split at acts
    · contradiction
    next price =>
    rw [Bool.or_eq_true, not_or, Bool.not_eq_true', Bool.not_eq_false, decide_eq_true_eq] at price
    split at acts
    · contradiction
    next k kind =>
    split at acts
    · contradiction
    next accepted =>
    split at acts
    · next within =>
      refine ⟨k, ⟨status, price.1, (not_lt_iff_le price.1 (by decide)).1 price.2,
        (withinCeiling_iff capped price.1).1 within, kind, by simpa using accepted⟩, ?_⟩
      exact (Evaluation.actionable.inj acts).symm
    · contradiction
  · intro within
    obtain ⟨k, ⟨status, finite, unsigned, affordable, kind, accepted⟩, rfl⟩ := within
    have priced : ¬ r.price < 0 := (not_lt_iff_le finite (by decide)).2 unsigned
    have ceiling := (withinCeiling_iff capped finite).2 affordable
    simp [WatchTarget.evaluate, status, finite, priced, kind, accepted, ceiling]

end

/-! ### Targets of valid groups -/

theorem capped_of_validate {c : GroupConfig} (valid : c.validate = .ok ()) {t : WatchTarget}
    (ht : t ∈ c.targets) : t.Capped := fun x given =>
  validCeiling_iff.2 ((GroupConfig.validate_eq_ok_iff.1 valid).targets.ceilings t ht x given)

end Restock
