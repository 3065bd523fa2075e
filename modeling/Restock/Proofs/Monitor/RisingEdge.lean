import Restock.Proofs.Monitor.Steps
import Restock.Proofs.Stock.Sightings

/-! The rising edges of stock.

On a check an id is hit, idle or not observed at all: a report that is missing or
malformed shows nothing, and a check that failed has no reports. An id is spent
from a check that hit it until a check that finds it idle. The ids that a monitor
keeps as reported are the spent ones (`mem_reported_iff_spent`), whatever happens
in between, so a wave has exactly the products of the ids that are hit and not
spent (`waves_are_rising_edges`). -/
namespace Restock

/-- The reports of a check; one that failed has none. -/
def StockCheck.seen : StockCheck → Reports
  | .reports r => r
  | _ => []

/-- The id is idle: some target saw it so, and it is no hit. -/
def Idle (targets : List WatchTarget) (reports : Reports) (id : String) : Prop :=
  SeenIdle targets reports id ∧ ¬ Hit targets reports id

/-- Some check hit the id, and none has found it idle since. -/
def Spent (targets : List WatchTarget) (checks : List StockCheck) (id : String) : Prop :=
  ∃ past c later, checks = past ++ c :: later ∧ Hit targets c.seen id ∧
    ∀ d ∈ later, ¬ Idle targets d.seen id

/-- The products of the ids that a check hits and that earlier checks leave unspent,
one for each of them: that of the first target that finds it actionable, in the
order of these targets. -/
structure RisingEdges (targets : List WatchTarget) (past : List StockCheck) (c : StockCheck)
    (products : List Product) : Prop where
  ids : ∀ id, id ∈ products.map Product.targetId ↔
    Hit targets c.seen id ∧ ¬ Spent targets past id
  once : (products.map Product.targetId).Nodup
  order : ∃ offers : List (Nat × Product), offers.map Prod.snd = products ∧
    (offers.map Prod.fst).Pairwise (· < ·) ∧ ∀ o ∈ offers, FirstOffer targets c.seen o.1 o.2

theorem not_spent_nil (targets : List WatchTarget) (id : String) : ¬ Spent targets [] id := by
  intro hits
  obtain ⟨past, c, later, h, -⟩ := hits
  simp at h

/-- A hit spends an id, an idle check frees it, and nothing else matters. -/
theorem spent_snoc_iff {targets : List WatchTarget} {checks : List StockCheck} {c : StockCheck}
    {id : String} :
    Spent targets (checks ++ [c]) id ↔
      Hit targets c.seen id ∨ Spent targets checks id ∧ ¬ Idle targets c.seen id := by
  constructor
  · intro hits
    obtain ⟨past, d, later, h, hit, hlater⟩ := hits
    rcases split_snoc h with ⟨-, rfl, -⟩ | ⟨rest, rfl, rfl⟩
    · exact .inl hit
    · exact .inr ⟨⟨past, d, rest, rfl, hit, fun x hx => hlater x (by simp [hx])⟩,
        hlater c (by simp)⟩
  · intro hits
    rcases hits with hit | ⟨⟨past, d, later, rfl, hit, hlater⟩, hidle⟩
    · exact ⟨checks, c, [], rfl, hit, by simp⟩
    · refine ⟨past, d, later ++ [c], by simp, hit, fun x hx => ?_⟩
      rcases List.mem_append.1 hx with hx | hx
      · exact hlater x hx
      · rwa [List.mem_singleton.1 hx]

namespace Sighting

/-! ### The fresh hits of a sighting -/

section
variable {targets : List WatchTarget} {reports : Reports} {s : Sighting} {reported : List String}

theorem rearms_iff_idle (h : Shows targets reports s) (id : String) :
    s.rearms id = true ↔ Idle targets reports id := by
  simp [rearms, Idle, ← h.hits, ← h.idle]

theorem mem_remaining_iff (h : Shows targets reports s) (id : String) :
    id ∈ s.remaining reported ↔ id ∈ reported ∧ ¬ Idle targets reports id := by
  rw [← rearms_iff_idle h]
  simp [remaining]

/-- A hit is not idle, so it remains reported if it was. -/
theorem mem_freshIds_iff (h : Shows targets reports s) (id : String) :
    id ∈ (s.fresh reported).map Product.targetId ↔ Hit targets reports id ∧ id ∉ reported := by
  rw [← h.hits]
  simp only [fresh, List.mem_map, List.mem_filter, decide_eq_true_eq, hitIds]
  constructor
  · intro among
    obtain ⟨p, ⟨hp, hr⟩, rfl⟩ := among
    refine ⟨⟨p, hp, rfl⟩, fun hmem => hr ((mem_remaining_iff h _).2 ⟨hmem, ?_⟩)⟩
    exact fun hi => hi.2 ((h.hits _).1 (List.mem_map_of_mem hp))
  · intro among
    obtain ⟨⟨p, hp, rfl⟩, hr⟩ := among
    exact ⟨p, ⟨hp, fun hmem => hr ((mem_remaining_iff h _).1 hmem).1⟩, rfl⟩

theorem nodup_freshIds (h : Shows targets reports s) :
    ((s.fresh reported).map Product.targetId).Nodup :=
  h.once.sublist (List.filter_sublist.map _)

/-- The fresh hits keep the order of the offers they are among. -/
theorem order_fresh (h : Shows targets reports s) :
    ∃ offers : List (Nat × Product), offers.map Prod.snd = s.fresh reported ∧
      (offers.map Prod.fst).Pairwise (· < ·) ∧
      ∀ o ∈ offers, FirstOffer targets reports o.1 o.2 := by
  obtain ⟨offers, hs, hp, ho⟩ := h.order
  refine ⟨offers.filter fun o => o.2.targetId ∉ s.remaining reported, ?_,
    hp.sublist (List.filter_sublist.map _), fun o hmem => ho o (List.mem_filter.1 hmem).1⟩
  rw [fresh, ← hs, List.filter_map]
  rfl

end

end Sighting

namespace Monitor

/-! ### One check -/

/-- Without reports nothing is seen. -/
theorem ofReports_nil (targets : List WatchTarget) : Sighting.ofReports targets [] = .none := by
  unfold Sighting.ofReports
  induction targets with
  | nil => rfl
  | cons t targets ih => exact ih

/-- The products that a monitor sends on a check. -/
def freshOf (m : Monitor) (c : StockCheck) : List Product :=
  (Sighting.ofReports m.targets c.seen).fresh m.reported

/-- A wave of the products of a group, unless there are none. -/
def wavesFor (retailer : String) (id : GroupId) : List Product → List Wave
  | [] => []
  | p :: ps => [⟨retailer, id, p :: ps⟩]

/-- What a check adds to the reported ids, and what it takes from them. -/
theorem reported_finishCheck (m : Monitor) (c : StockCheck) :
    (m.finishCheck c).1.reported =
      (Sighting.ofReports m.targets c.seen).remaining m.reported ++
        (m.freshOf c).map Product.targetId := by
  cases c with
  | reports r => exact reported_sight m _
  | _ =>
    simp only [freshOf, StockCheck.seen, ofReports_nil]
    refine Eq.trans (reported_turn _ _ _ _) ?_
    exact ((List.append_nil _).trans (List.filter_eq_self.2 fun _ _ => rfl)).symm

/-- A check that failed has nothing to send. -/
theorem freshOf_of_seen_nil {m : Monitor} {c : StockCheck} (h : c.seen = []) :
    m.freshOf c = [] := by
  rw [freshOf, h, ofReports_nil]
  rfl

/-- The feed and the observers get the same wave, or none. -/
theorem waves_finishCheck (m : Monitor) (c : StockCheck) :
    (m.finishCheck c).2.filterMap Effect.fed? = wavesFor m.retailer m.groupId (m.freshOf c) ∧
      (m.finishCheck c).2.filterMap Effect.told? =
        wavesFor m.retailer m.groupId (m.freshOf c) := by
  cases c with
  | reports r =>
    show ((m.sight _).2.filterMap Effect.fed? = _ ∧ (m.sight _).2.filterMap Effect.told? = _)
    show (_ = wavesFor _ _ ((Sighting.ofReports m.targets r).fresh m.reported) ∧
      _ = wavesFor _ _ ((Sighting.ofReports m.targets r).fresh m.reported))
    cases hf : (Sighting.ofReports m.targets r).fresh m.reported with
    | nil =>
      rw [sight_of_stale hf]
      exact waves_turn _ _ _ _
    | cons p ps =>
      rw [sight_of_fresh (by simp [hf]), hf]
      exact ⟨rfl, rfl⟩
  | _ =>
    rw [freshOf_of_seen_nil rfl]
    exact waves_turn _ _ _ _

/-! ### All checks -/

/-- The check that a stimulus brings. -/
def checkOf? : Stimulus Signal → Option StockCheck
  | .signal (.checked c) => some c
  | _ => none

/-- The checks on a trail, in their order. -/
def checksOf (w : List (Leg Monitor (Stimulus Signal) Effect)) : List StockCheck :=
  w.filterMap fun l => checkOf? l.input

/-- What does not bring a check changes no reported id and sends no wave. -/
theorem quiet_of_take? {m n : Monitor} {i : Stimulus Signal} {es : List Effect}
    (h : m.take? i = some (n, es)) (hi : checkOf? i = none) :
    n.reported = m.reported ∧ es.filterMap Effect.fed? = [] ∧ es.filterMap Effect.told? = [] := by
  cases i with
  | stop =>
    obtain ⟨rfl, rfl⟩ := Prod.mk.inj (Option.some.inj h)
    exact ⟨rfl, rfl, rfl⟩
  | signal s =>
    cases does_of_next? h with
    | begin | stop => exact ⟨rfl, rfl, rfl⟩
    | round | retry => exact ⟨reported_round m, waves_round m⟩
    | warm | backOff | crash | rest => exact ⟨rfl, rfl, rfl⟩
    | check => contradiction

theorem alike_of_take? {m n : Monitor} {i : Stimulus Signal} {es : List Effect}
    (h : m.take? i = some (n, es)) :
    n.groupId = m.groupId ∧ n.retailer = m.retailer ∧ n.targets = m.targets := by
  cases i with
  | stop =>
    obtain ⟨rfl, -⟩ := Prod.mk.inj (Option.some.inj h)
    exact ⟨rfl, rfl, rfl⟩
  | signal s =>
    have := (does_of_next? h).alike
    exact ⟨this.groupId, this.retailer, this.targets⟩

/-- What brings a check is a step that finishes it. -/
theorem check_of_take? {m n : Monitor} {i : Stimulus Signal} {es : List Effect}
    (h : m.take? i = some (n, es)) {c : StockCheck} (hi : checkOf? i = some c) :
    (∃ p, n = (m.finishCheck c).1.enter p) ∧ es = (m.finishCheck c).2 := by
  match i, hi with
  | .signal (.checked c'), hi =>
    obtain rfl := Option.some.inj hi
    cases does_of_signal h with
    | check => exact ⟨⟨_, rfl⟩, rfl⟩

/-- After some checks a monitor of the group has the spent ids as reported. -/
structure Remembers (id : GroupId) (g : GroupConfig) (checks : List StockCheck) (m : Monitor) :
    Prop where
  groupId : m.groupId = id
  retailer : m.retailer = g.retailer
  targets : m.targets = g.targets
  reported : ∀ x, x ∈ m.reported ↔ Spent g.targets checks x

section
variable {id : GroupId} {g : GroupConfig} {m n : Monitor}

theorem remembers_ofConfig : Remembers id g [] (ofConfig id g) :=
  ⟨rfl, rfl, rfl, fun x => by simp [ofConfig, not_spent_nil]⟩

/-- The fresh hits are the rising edges. -/
theorem Remembers.risingEdges {checks : List StockCheck} (h : Remembers id g checks m)
    (c : StockCheck) : RisingEdges g.targets checks c (m.freshOf c) := by
  have hs := shows_ofReports g.targets c.seen
  unfold freshOf
  rw [h.targets]
  refine ⟨fun x => ?_, Sighting.nodup_freshIds hs, Sighting.order_fresh hs⟩
  rw [Sighting.mem_freshIds_iff hs, h.reported]

theorem Remembers.check {checks : List StockCheck} (h : Remembers id g checks m) (c : StockCheck)
    {p : Phase} : Remembers id g (checks ++ [c]) ((m.finishCheck c).1.enter p) := by
  have hs := shows_ofReports g.targets c.seen
  have ha := (alike_finishCheck m c).trans (alike_enter _ p)
  refine ⟨ha.groupId.trans h.groupId, ha.retailer.trans h.retailer, ha.targets.trans h.targets,
    fun x => ?_⟩
  have hfresh := (h.risingEdges c).ids x
  rw [reported_enter, reported_finishCheck, List.mem_append, h.targets, hfresh,
    Sighting.mem_remaining_iff hs, h.reported, spent_snoc_iff]
  by_cases hit : Hit g.targets c.seen x
  · -- A hit is not idle.
    have hidle : ¬ Idle g.targets c.seen x := fun hi => hi.2 hit
    simp only [hit, hidle, not_false_eq_true, and_true, true_and, true_or, iff_true]
    exact Classical.em _
  · simp only [hit, false_and, or_false, false_or]

theorem remembers_of_trail {w : List (Leg Monitor (Stimulus Signal) Effect)}
    (h : Trail take? (ofConfig id g) w m) : Remembers id g (checksOf w) m := by
  induction h with
  | rest => exact remembers_ofConfig
  | @step w m n i es past taken ih =>
    cases hi : checkOf? i with
    | some c =>
      have hc : checksOf (w ++ [⟨m, i, es, n⟩]) = checksOf w ++ [c] := by simp [checksOf, hi]
      rw [hc]
      obtain ⟨⟨p, rfl⟩, -⟩ := check_of_take? taken hi
      exact ih.check c
    | none =>
      have hc : checksOf (w ++ [⟨m, i, es, n⟩]) = checksOf w := by simp [checksOf, hi]
      rw [hc]
      obtain ⟨hg, hr, ht⟩ := alike_of_take? taken
      exact ⟨hg.trans ih.groupId, hr.trans ih.retailer, ht.trans ih.targets,
        fun x => (quiet_of_take? taken hi).1 ▸ ih.reported x⟩

/-! ### Every sequence of checks can happen -/

/-- A monitor that is about to decide, unless it is stopped, gets to a check. -/
theorem reaches_check (hp : m.phase = .deciding) (hs : m.stopping = false) :
    ∃ w n, Trail take? m w n ∧ checksOf w = [] ∧ n.phase = .checking ∧ n.stopping = false := by
  have hround : m.take? (.signal .proceed) = some m.round := by simp [take?, next?, hp, hs]
  have hstop : m.round.1.stopping = false := (alike_round m).stopping.trans hs
  by_cases hw : m.warmed = true
  · exact ⟨_, m.round.1, .single hround, rfl, by rw [phase_round, if_pos hw], hstop⟩
  · have hwarm : m.round.1.take? (.signal (.warmed .ready)) =
        some ({ m.round.1 with warmed := true }.enter .checking, [.check]) := by
      simp [take?, next?, phase_round, hw]
    exact ⟨_, _, (Trail.single hround).step hwarm, rfl, rfl, hstop⟩

/-- A check that does not bring the monitor down brings it back to deciding. -/
theorem reaches_deciding (hp : m.phase = .checking) (hs : m.stopping = false) {c : StockCheck}
    (hc : c ≠ .crashed) :
    ∃ w n, Trail take? m w n ∧ checksOf w = [c] ∧ n.phase = .deciding ∧ n.stopping = false := by
  have hcheck : m.take? (.signal (.checked c)) =
      some ((m.finishCheck c).1.enter .resting, (m.finishCheck c).2) := by
    simp [take?, next?, hp, hc]
  have hrest : ((m.finishCheck c).1.enter .resting).take? (.signal .rested) =
      some ((m.finishCheck c).1.enter .deciding, []) := rfl
  exact ⟨_, _, (Trail.single hcheck).step hrest, rfl, rfl,
    (alike_finishCheck m c).stopping.trans hs⟩

theorem checks_happen (checks : List StockCheck) (hc : ∀ c ∈ checks, c ≠ .crashed)
    (hp : m.phase = .deciding) (hs : m.stopping = false) :
    ∃ w n, Trail take? m w n ∧ checksOf w = checks := by
  induction checks generalizing m with
  | nil => exact ⟨[], m, .rest, rfl⟩
  | cons c checks ih =>
    obtain ⟨w₁, m₁, h₁, hw₁, hp₁, hs₁⟩ := reaches_check hp hs
    obtain ⟨w₂, m₂, h₂, hw₂, hp₂, hs₂⟩ := reaches_deciding hp₁ hs₁ (hc c (by simp))
    obtain ⟨w₃, n, h₃, hw₃⟩ := ih (fun d hd => hc d (by simp [hd])) hp₂ hs₂
    refine ⟨w₁ ++ (w₂ ++ w₃), n, h₁.append (h₂.append h₃), ?_⟩
    simp only [checksOf, List.filterMap_append] at hw₁ hw₂ hw₃ ⊢
    rw [hw₁, hw₂, hw₃]
    rfl

end

/-- **The rising-edge law.** Every sequence of checks can happen. On whatever way a
monitor has come, a check sends the tasks and the observers one wave, which has the
rising edges among its hits, or no wave if there are none, and nothing but a check
sends a wave. -/
theorem waves_are_rising_edges (id : GroupId) (g : GroupConfig) :
    (∀ checks : List StockCheck, (∀ c ∈ checks, c ≠ .crashed) →
      ∃ w m, Trail take? (ofConfig id g) w m ∧ checksOf w = checks) ∧
    ∀ w m, Trail take? (ofConfig id g) w m → ∀ past l later, w = past ++ l :: later →
      match checkOf? l.input with
      | some c => ∃ products, RisingEdges g.targets (checksOf past) c products ∧
          l.effects.filterMap Effect.fed? = wavesFor g.retailer id products ∧
          l.effects.filterMap Effect.told? = wavesFor g.retailer id products
      | none => l.effects.filterMap Effect.fed? = [] ∧ l.effects.filterMap Effect.told? = [] := by
  constructor
  · intro checks hc
    let begun := ((ofConfig id g).announce .settingUp .start Event.noPayload).1.enter .deciding
    have hbegin : (ofConfig id g).take? (.signal .begin) = some (begun, _) := rfl
    obtain ⟨w, m, h, hw⟩ := checks_happen (m := begun) checks hc rfl rfl
    exact ⟨_, m, (Trail.single hbegin).append h, hw⟩
  · rintro w m h past ⟨b, i, es, a⟩ later rfl
    obtain ⟨hpast, taken, -⟩ := h.reach
    have hr := remembers_of_trail hpast
    cases hi : checkOf? i with
    | none => exact (quiet_of_take? taken hi).2
    | some c =>
      obtain ⟨-, hes⟩ := check_of_take? taken hi
      simp only at hes ⊢
      refine ⟨b.freshOf c, hr.risingEdges c, ?_⟩
      rw [hes, ← hr.retailer, ← hr.groupId]
      exact waves_finishCheck b c

/-- Two targets share an id, and the first is content with less. -/
def twoCeilings : GroupConfig :=
  { GroupConfig.standard with
    retailer := "demo", targets := [⟨"sku", some 50, .any⟩, ⟨"sku", some 100, .any⟩] }

def inStock : StockCheck :=
  .reports [("sku", ⟨.inStock, 80, "console", none, some .pickup, .null⟩)]

def soldOut : StockCheck :=
  .reports [("sku", ⟨.outOfStock, 0, "console", none, none, .null⟩)]

/-- A hit, a failure that does not free the id, the hit again, which is no news, then
no stock, and stock again. -/
def restocked : List (Stimulus Signal) :=
  [.signal .begin, .signal .proceed, .signal (.warmed .ready), .signal (.checked inStock),
    .signal .rested, .signal .proceed, .signal (.checked .panicked), .signal .rested,
    .signal .proceed, .signal (.warmed .ready), .signal (.checked inStock), .signal .rested,
    .signal .proceed, .signal (.checked soldOut), .signal .rested, .signal .proceed]

theorem waves_of_two_ceilings :
    (∃ w m, Trail take? (ofConfig default twoCeilings) w m ∧ checksOf w = [inStock, .panicked]) ∧
    ∃ w l m, Trail take? (ofConfig default twoCeilings) (w ++ [l]) m ∧
      checksOf w = [inStock, .panicked, inStock, soldOut] ∧
      (∃ products, RisingEdges twoCeilings.targets (checksOf w) inStock products ∧
        l.effects.filterMap Effect.fed? = wavesFor "demo" default products) ∧
      l.effects.filterMap Effect.fed? =
        [⟨"demo", default, [⟨"sku", "console", 80, .pickup, none, .null⟩]⟩] := by
  obtain ⟨happen, law⟩ := waves_are_rising_edges default twoCeilings
  have h := (Trail.of_inputs take? (ofConfig default twoCeilings) restocked).step
    (i := .signal (.checked inStock)) rfl
  obtain ⟨products, hr, hf, -⟩ := law _ _ h _ _ [] rfl
  exact ⟨happen _ (by decide), _, _, _, h, by decide, ⟨products, hr, hf⟩, by decide⟩

end Monitor

end Restock
