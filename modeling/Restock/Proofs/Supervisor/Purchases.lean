import Restock.Proofs.Stock.Limits
import Restock.Proofs.Supervisor.Deliveries
import Restock.Proofs.World.Carts

/-! Purchases keep within the limits.

What a task puts into its cart was offered to it (`Offered`): the monitor of its own
group has checked the stock while the task was there, and found a report on one of the
group's targets that keeps within the target's limits. The product says what the report
says. Every monitor is set up by a start of its group (`Founded`), what it feeds are
hits of its checks, and a task takes nothing but what its feed brings. -/
namespace Restock

namespace Monitor

/-- What a monitor feeds comes from a report that one of its targets acts on. -/
theorem offer_of_next? {m m' : Monitor} {i : Signal} {es : List Effect}
    (acts : m.next? i = some (m', es)) {v : Wave} (fed : v ∈ es.filterMap Effect.fed?)
    {p : Product} (among : p ∈ v.products) :
    ∃ reports t r, i = .checked (.reports reports) ∧ t ∈ m.targets ∧
      reports.get? t.id = some r ∧ t.evaluate r = .actionable p := by
  have taken : m.take? (.signal i) = some (m', es) := acts
  cases hi : checkOf? (.signal i) with
  | none =>
    rw [(quiet_of_take? taken hi).2.1] at fed
    contradiction
  | some c =>
    obtain ⟨-, rfl⟩ := check_of_take? taken hi
    rw [(waves_finishCheck m c).1] at fed
    have hit : p ∈ m.freshOf c := by
      generalize m.freshOf c = products at fed
      cases products with
      | nil => contradiction
      | cons q qs =>
        rw [List.mem_singleton.1 fed] at among
        exact among
    obtain ⟨offers, products, -, first⟩ :=
      Sighting.order_fresh (shows_ofReports m.targets c.seen)
    have offered : p ∈ offers.map Prod.snd := products ▸ hit
    obtain ⟨o, ho, rfl⟩ := List.mem_map.1 offered
    obtain ⟨t, r, place, reported, actionable, -⟩ := first o ho
    have brings : i = .checked c := by
      cases i with
      | checked d => exact congrArg Signal.checked (Option.some.inj hi)
      | _ => contradiction
    cases c with
    | reports reports =>
      exact ⟨reports, t, r, brings, List.mem_of_getElem? place, reported, actionable⟩
    | failed | panicked | crashed => contradiction

end Monitor

namespace Supervisor

/-- The group was started with the configuration, and brought its monitor with it. -/
inductive Founded (h : List (Leg Supervisor Occasion Happening)) (n : Nat) (m : Monitor)
    (c : GroupConfig) : Prop
  | founded {l : Leg Supervisor Occasion Happening} (among : l ∈ h)
    (starts : l.input = .startGroup c) (valid : c.validate = .ok ())
    (vacant : l.before.world.monitors.get? n = none)
    (sits : l.after.world.monitors.get? n = some (.ofConfig m.groupId c))
    (same : m.setUp = (m.groupId, c.retailer, c.targets))

/-- A check of the stock has offered the product to the task. The monitor that checks is
the one that the task watches and belongs to the task's own group, which was started with
the configuration. -/
inductive Offered (h : List (Leg Supervisor Occasion Happening)) (k : Nat) (b : Buyer)
    (p : Product) : Prop
  | offered {l : Leg Supervisor Occasion Happening} {b₀ : Buyer} {m : Monitor} {reports : Reports}
    {c : GroupConfig} {t : WatchTarget} {r : StockReport} {kind : FulfillmentKind}
    (among : l ∈ h) (there : l.before.world.buyers.get? k = some b₀)
    (checks : l.input = .act (.monitor b.feed (.checked (.reports reports))))
    (sits : l.before.world.monitors.get? b.feed = some m)
    (group : m.groupId = b.task.context.groupId) (founded : Founded h b.feed m c)
    (target : t ∈ c.targets) (reported : reports.get? t.id = some r)
    (within : WithinLimits t r kind)
    (product : p = ⟨t.id, r.name, r.price, kind, r.imageUrl, r.identifiers⟩)

section
variable {s₀ s : Supervisor} {h more : List (Leg Supervisor Occasion Happening)} {n k : Nat}
  {m : Monitor} {c : GroupConfig} {b : Buyer} {p : Product}

theorem Founded.mono (founded : Founded h n m c) (subset : ∀ l ∈ h, l ∈ more) :
    Founded more n m c := by
  obtain ⟨among, starts, valid, vacant, sits, same⟩ := founded
  exact ⟨subset _ among, starts, valid, vacant, sits, same⟩

theorem Founded.congr {m' : Monitor} (founded : Founded h n m c) (alike : m'.setUp = m.setUp) :
    Founded h n m' c := by
  obtain ⟨among, starts, valid, vacant, sits, same⟩ := founded
  have group : m'.groupId = m.groupId := congrArg Prod.fst alike
  rw [← group] at sits same
  exact ⟨among, starts, valid, vacant, sits, alike.trans same⟩

/-- Every monitor was set up by a start of its group. -/
theorem founded_of_trail (trail : Trail take? s₀ h s) (service : s₀.InService)
    (unmanned : s₀.world.monitors = []) (sits : s.world.monitors.get? n = some m) :
    ∃ c, Founded h n m c := by
  induction trail generalizing m with
  | rest =>
    rw [unmanned] at sits
    contradiction
  | @step h v u o seen past taken ih =>
    have attends := attends_of_take? (played_of_trail past service).2 taken
    have duty := attends.duties n
    have later : ∀ l ∈ h, l ∈ h ++ [⟨v, o, seen, u⟩] := fun l hl => List.mem_append_left _ hl
    rw [sits] at duty
    generalize before : v.world.monitors.get? n = x at duty
    cases duty with
    | rests =>
      obtain ⟨c, founded⟩ := ih before
      exact ⟨c, founded.mono later⟩
    | stopped m =>
      obtain ⟨c, founded⟩ := ih before
      exact ⟨c, (founded.mono later).congr rfl⟩
    | @begins c called valid g =>
      exact ⟨c, List.mem_append_right _ (List.mem_singleton_self _), called, valid, before, sits, rfl⟩
    | acts called acts =>
      obtain ⟨c, founded⟩ := ih before
      have alike := (Monitor.does_of_next? acts).alike
      refine ⟨c, (founded.mono later).congr ?_⟩
      rw [Monitor.setUp, alike.groupId, alike.retailer, alike.targets]
      rfl

/-- A feed gets its waves from the monitor that sits at it. -/
theorem Duty.source {o : Occasion} {seen : List Happening} {x y : Option Monitor} {v : Wave}
    (duty : Duty o seen n x y) (wave : v ∈ wavesAmong n seen) :
    ∃ m m' i es, x = some m ∧ o = .act (.monitor n i) ∧ m.next? i = some (m', es) ∧
      v ∈ es.filterMap Monitor.Effect.fed? := by
  cases duty with
  | rests _ quiet | stopped _ quiet | begins _ _ _ quiet =>
    rw [quiet] at wave
    contradiction
  | acts called acts waves => exact ⟨_, _, _, _, rfl, called, acts, waves ▸ wave⟩

/-- What a task has taken was offered to it. -/
theorem offered_of_takes {x : World.Scene} (trail : Trail take? s₀ h s) (service : s₀.InService)
    (unmanned : s₀.world.monitors = []) (vacant : s₀.world.buyers.get? k = none)
    (here : s.world.buyers.get? k = some b) (among : x ∈ h.map scene)
    (takes : World.Takes k x p) : Offered h k b p := by
  obtain ⟨y, hy, b₀, v, there, wave, inside⟩ :=
    (played_of_trail trail service).1.wave_of_takes vacant among takes
  obtain ⟨l, hl, rfl⟩ := List.mem_map.1 hy
  obtain ⟨past, later, rfl⟩ := List.append_of_mem hl
  obtain ⟨before, taken, after⟩ := trail.reach
  have running := (played_of_trail before service).2
  have attends := attends_of_take? running taken
  obtain ⟨m, m', i, es, sits, called, acts, fed⟩ := (attends.duties b₀.feed).source wave
  obtain ⟨reports, t, r, rfl, target, reported, actionable⟩ :=
    Monitor.offer_of_next? acts fed inside
  -- The task watches the same monitor from there on, for the same group.
  obtain ⟨⟨b', here', feed, context⟩, -⟩ :=
    (played_of_trail ((Trail.single taken).append after) running).1.watches there
  obtain rfl := Option.some.inj (here.symm.trans here')
  rw [← feed] at sits called
  obtain ⟨m₀, sits', group⟩ := running.buyers k b₀ there
  rw [← feed] at sits'
  obtain rfl := Option.some.inj (sits.symm.trans sits')
  obtain ⟨c, founded⟩ := founded_of_trail before service unmanned sits
  have targets : m.targets = c.targets := by
    obtain ⟨-, -, -, -, -, same⟩ := founded
    exact congrArg (·.2.2) same
  have valid : c.validate = .ok () := by
    obtain ⟨-, -, valid⟩ := founded
    exact valid
  rw [targets] at target
  obtain ⟨kind, within, product⟩ :=
    (evaluate_eq_actionable_iff (capped_of_validate valid target)).1 actionable
  exact ⟨by simp, there, called, sits, context ▸ group,
    founded.mono fun l hl => List.mem_append_left _ hl, target, reported, within, product⟩

/-- **No purchase outside the limits.** When a task first puts a product into its cart it
is one that a check of its own group has offered to it since it is there; and what the
targets of a valid group act on are the reports that keep within their limits. -/
theorem purchases_keep_within_limits :
    (∀ registry settings ids h s, Trail take? (.new registry settings ids) h s →
      ∀ k past l later, h = past ++ l :: later → World.Carts k (scene l) →
        (∀ m ∈ past, ¬ World.Carts k (scene m)) →
        ∃ b b' p, l.before.world.buyers.get? k = some b ∧ l.after.world.buyers.get? k = some b' ∧
          b.task.state.product = some p ∧ b'.task.state.product = some p ∧ Offered past k b p) ∧
    ∀ c : GroupConfig, c.validate = .ok () → ∀ t ∈ c.targets, ∀ r p,
      t.evaluate r = .actionable p ↔ ∃ kind, WithinLimits t r kind ∧
        p = ⟨t.id, r.name, r.price, kind, r.imageUrl, r.identifiers⟩ := by
  constructor
  · intro registry settings ids h s trail k past l later split carts first
    have service := inService_new registry settings ids
    subst split
    obtain ⟨before, -, -⟩ := trail.reach
    have scenes : (past ++ l :: later).map scene = past.map scene ++ scene l :: later.map scene := by
      simp
    obtain ⟨b, b', p, here, there, product, product', x, among, takes⟩ :=
      (played_of_trail trail service).1.first_cart rfl scenes carts (by simpa using first)
    exact ⟨b, b', p, here, there, product, product',
      offered_of_takes before service rfl rfl here among takes⟩
  · intro c valid t target r p
    exact evaluate_eq_actionable_iff (capped_of_validate valid target)

end

/-- The report that the stand's monitor has seen. -/
def consoleReport : StockReport := ⟨.inStock, 80, "console", none, some .pickup, .null⟩

/-- The task of the stand puts into its cart what the first check has found. -/
theorem purchase_at_the_stand :
    (∃ h l s, Trail take? shop (h ++ [l]) s ∧ World.Carts 0 (scene l) ∧
      (∀ m ∈ h, ¬ World.Carts 0 (scene m)) ∧
      ∃ b, l.before.world.buyers.get? 0 = some b ∧ b.task.state.product = some console ∧
        Offered h 0 b console) ∧
    stand.validate = .ok () ∧ ∃ kind, WithinLimits ⟨"sku", some 100, .any⟩ consoleReport kind := by
  obtain ⟨runs, targets⟩ := purchases_keep_within_limits
  have trail := (Trail.of_inputs take? shop (.startGroup stand :: firstWave)).step
    (i := .act (.task 0 .proceed)) rfl
  have carts : ∀ m ∈ (Trail.follow take? shop (.startGroup stand :: firstWave)).1,
      ¬ World.Carts 0 (scene m) := by decide
  obtain ⟨b, -, p, here, -, product, -, offered⟩ :=
    runs _ _ _ _ _ trail 0 _ _ [] rfl (by decide) carts
  have found : ((Trail.follow take? shop (.startGroup stand :: firstWave)).2.world.buyers.get? 0).bind
      (fun b => b.task.state.product) = some console := by decide
  have here' : (Trail.follow take? shop (.startGroup stand :: firstWave)).2.world.buyers.get? 0 =
    some b := here
  rw [here'] at found
  obtain rfl := Option.some.inj (product.symm.trans found)
  have valid : stand.validate = .ok () := rfl
  obtain ⟨kind, within, -⟩ := (targets stand valid ⟨"sku", some 100, .any⟩ (by decide) consoleReport
    console).1 rfl
  exact ⟨⟨_, _, _, trail, by decide, carts, b, here, product, offered⟩, valid, kind, within⟩

end Supervisor

end Restock
