import Restock.Proofs.Supervisor.Service

/-! Products are delivered.

What `World.Delivery` says of a task holds wherever tasks watch feeds: in a world in
which anybody may publish at any time, whatever happens to its bus and its pool, and
under a supervisor. A task that comes with its group is there for all waves of the
group's monitor, from the very first. -/
namespace Restock

namespace World

def scene (l : Leg World Occasion Happening) : Scene := ⟨l.before, (), l.effects, l.after⟩

theorem played_of_trail {w₀ w : World} {h : List (Leg World Occasion Happening)}
    (trail : Trail take? w₀ h w) (laid : w₀.Laid) : Played w₀ (h.map scene) w ∧ w.Laid := by
  induction trail with
  | rest => exact ⟨.rest, laid⟩
  | step _ taken ih =>
    obtain ⟨played, laid⟩ := ih
    have serves := serves_of_take? laid taken
    rw [List.map_append]
    exact ⟨played.step serves, serves.laid⟩

end World

namespace Supervisor

def scene (l : Leg Supervisor Occasion Happening) : World.Scene :=
  ⟨l.before.world, (), l.effects, l.after.world⟩

section
variable {s₀ s : Supervisor} {h : List (Leg Supervisor Occasion Happening)}

theorem played_of_trail (trail : Trail take? s₀ h s) (service : s₀.InService) :
    s₀.world.Played (h.map scene) s.world ∧ s.InService := by
  induction trail with
  | rest => exact ⟨.rest, service⟩
  | step _ taken ih =>
    obtain ⟨played, service⟩ := ih
    have attends := attends_of_take? service taken
    rw [List.map_append]
    exact ⟨played.step attends.serves, attends.service⟩

/-- A task that a group brings with it is there for all waves of the group's monitor. -/
theorem waves_of_started {past later : List (Leg Supervisor Occasion Happening)}
    {l : Leg Supervisor Occasion Happening} {c : GroupConfig} {k : Nat} {b : Buyer}
    (trail : Trail take? s₀ h s) (service : s₀.InService) (vacant : s₀.world.buyers.get? k = none)
    (split : h = past ++ l :: later) (started : l.input = .startGroup c)
    (absent : l.before.world.buyers.get? k = none) (here : l.after.world.buyers.get? k = some b) :
    l.after.world.monitors.get? b.feed = some (.ofConfig b.task.context.groupId c) ∧
      World.wavesSince k (h.map scene) = World.wavesTo b.feed (h.map scene) := by
  subst split
  obtain ⟨before, taken, after⟩ := trail.reach
  obtain ⟨played, service⟩ := played_of_trail before service
  have attends := attends_of_take? service taken
  rw [started, take?] at taken
  split at taken
  · next g s' seen ok =>
    obtain ⟨rfl, rfl⟩ := Prod.ext_iff.1 (Option.some.inj taken)
    obtain ⟨-, monitors, -, -, joined⟩ := startGroup_world service.laid ok
    obtain ⟨feed, belongs⟩ := joined k b absent here
    refine ⟨?_, ?_⟩
    · rw [monitors, feed, belongs]
      exact Table.get?_put_self ..
    · have closed : l.before.world.feeds.get? b.feed = none := by
        refine Option.not_isSome_iff_eq_none.1 fun opened => ?_
        have known := (Table.mem_keys_iff ..).2 opened
        rw [service.laid.opened, feed] at known
        simp at known
      rw [List.map_append, List.map_cons]
      exact World.wavesSince_of_joined played attends.serves
        (played_of_trail after attends.service).1 absent ((played.attended vacant).absent absent)
        here closed
  · contradiction

/-- A task gets the first product of the latest wave that it has been there for, once,
and as soon as it waits for one: however waves come, and from wherever. -/
theorem products_are_delivered :
    (∀ capacity h w, Trail World.take? (.new capacity) h w →
      ∀ k, World.Delivery k (h.map World.scene) w) ∧
    ∀ registry settings ids h s, Trail take? (.new registry settings ids) h s → ∀ k,
      World.Delivery k (h.map scene) s.world ∧
      ∀ past l later c b, h = past ++ l :: later → l.input = .startGroup c →
        l.before.world.buyers.get? k = none → l.after.world.buyers.get? k = some b →
        l.after.world.monitors.get? b.feed = some (.ofConfig b.task.context.groupId c) ∧
          World.wavesSince k (h.map scene) = World.wavesTo b.feed (h.map scene) := by
  refine ⟨fun capacity h w trail k => ?_, fun registry settings ids h s trail k => ⟨?_, ?_⟩⟩
  · exact (World.played_of_trail trail (World.laid_new capacity)).1.delivery rfl
  · exact (played_of_trail trail (inService_new registry settings ids)).1.delivery rfl
  · intro past l later c b split started absent here
    exact waves_of_started trail (inService_new registry settings ids) rfl split started absent here

end

def console : Product := ⟨"sku", "console", 80, .pickup, none, .null⟩

def game : Product := ⟨"game", "game", 5, .shipping, none, .null⟩

/-- A feed with a wave from before the task and two that come while it is there. -/
def lateTask : List World.Occasion :=
  [.openFeed, .feed 0 ⟨"shop", .ofNat 0, [game]⟩,
    .addTask ⟨.ofNat 0, .ofNat 0, "shop", none, .null, none⟩ RetryPolicy.standard.decide 0,
    .feed 0 ⟨"shop", .ofNat 0, [game]⟩, .act (.task 0 .begin), .bus (.new 7),
    .feed 0 ⟨"shop", .ofNat 0, [console, game]⟩, .act (.task 0 .take)]

def shop : Supervisor :=
  .new ⟨[("shop", ())]⟩ .standard ⟨fun n => .ofNat n, fun n => .ofNat n, 0, 0⟩

def stand : GroupConfig :=
  { GroupConfig.standard with
    name := "stand", retailer := "shop", targets := [⟨"sku", some 100, .any⟩], tasks := [.guest] }

/-- The shop with the stand. -/
def furnished : Supervisor × List Happening := (shop.take? (.startGroup stand)).getD (shop, [])

theorem opens : shop.take? (.startGroup stand) = some (furnished.1, furnished.2) := rfl

/-- The first check of the group's monitor, and the task after it. -/
def firstWave : List Occasion :=
  [.act (.monitor 0 .begin), .act (.task 0 .begin), .act (.monitor 0 .proceed),
    .act (.monitor 0 (.warmed .ready)),
    .act (.monitor 0 (.checked (.reports
      [("sku", ⟨.inStock, 80, "console", none, some .pickup, .null⟩)]))),
    .act (.task 0 .take)]

theorem products_of_first_waves :
    (∃ h w, Trail World.take? (.new 1) h w ∧ World.Delivery 0 (h.map World.scene) w ∧
      World.wavesSince 0 (h.map World.scene) =
        [⟨"shop", .ofNat 0, [game]⟩, ⟨"shop", .ofNat 0, [console, game]⟩] ∧
      (w.task? 0).map (fun t => t.state.product) = some (some console)) ∧
    ∃ h s, Trail take? shop h s ∧ World.Delivery 0 (h.map scene) s.world ∧
      World.wavesSince 0 (h.map scene) = World.wavesTo 0 (h.map scene) ∧
      World.wavesTo 0 (h.map scene) = [⟨"shop", .ofNat 0, [console]⟩] ∧
      (s.world.task? 0).map (fun t => t.state.product) = some (some console) := by
  obtain ⟨worlds, supervisors⟩ := products_are_delivered
  have world := Trail.of_inputs World.take? (.new 1) lateTask
  have trail := (Trail.single opens).append (Trail.of_inputs take? furnished.1 firstWave)
  obtain ⟨delivery, started⟩ := supervisors _ _ _ _ _ trail 0
  obtain ⟨b, here⟩ := Option.isSome_iff_exists.1
    (show (furnished.1.world.buyers.get? 0).isSome = true by decide)
  have feed : b.feed = 0 := by
    have all : (furnished.1.world.buyers.get? 0).all (·.feed = 0) = true := by decide
    rw [here] at all
    exact of_decide_eq_true all
  obtain ⟨-, waves⟩ := started [] _ _ stand b rfl rfl rfl here
  rw [feed] at waves
  exact ⟨⟨_, _, world, worlds 1 _ _ world 0, by decide, by decide⟩,
    _, _, trail, delivery, waves, by decide, by decide⟩

end Supervisor

end Restock
