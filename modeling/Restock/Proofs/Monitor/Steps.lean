import Restock.Monitor
import Restock.Proofs.Trail

/-! The steps of a monitor.

`Monitor.take?` is a monitor as a machine whose stop flag may be raised at any
time. What a monitor does with a signal is said once, by one constructor of
`Monitor.Does` for each thing it can do (`does_of_next?`); whoever proves something
about monitors goes through these cases. The lemmas in front of them say what the
parts of a step leave as it was. -/
namespace Restock.Monitor

def take? (m : Monitor) : Stimulus Signal → Option (Monitor × List Effect)
  | .stop => some (m.stop, [])
  | .signal s => m.next? s

/-- The wave that an effect puts into the feed. -/
def Effect.fed? : Effect → Option Wave
  | .feed wave => some wave
  | _ => none

/-- The wave that an effect tells the observers of. -/
def Effect.told? : Effect → Option Wave
  | .publish (.product wave) => some wave
  | _ => none

/-! ### What the parts of a step leave as it was -/

/-- The monitor of the same group, with the same flag. -/
structure Alike (m n : Monitor) : Prop where
  groupId : n.groupId = m.groupId
  retailer : n.retailer = m.retailer
  targets : n.targets = m.targets
  stopping : n.stopping = m.stopping

section
variable (m : Monitor) (s : MonitorStatus) (t : EventType) (payload : Json) (p : Phase)

theorem Alike.refl : Alike m m := ⟨rfl, rfl, rfl, rfl⟩

theorem alike_enter : Alike m (m.enter p) := ⟨rfl, rfl, rfl, rfl⟩

theorem alike_announce : Alike m (m.announce s t payload).1 := ⟨rfl, rfl, rfl, rfl⟩

/-- A status is told only where it is new. -/
theorem turn_eq : m.turn s t payload = (m, []) ∧ m.status = s ∨
    m.turn s t payload = m.announce s t payload ∧ m.status ≠ s := by
  unfold turn
  by_cases h : m.status = s <;> simp [h]

theorem alike_turn : Alike m (m.turn s t payload).1 := by
  rcases turn_eq m s t payload with ⟨h, -⟩ | ⟨h, -⟩ <;> rw [h]
  · exact .refl m
  · exact alike_announce m s t payload

@[simp] theorem reported_enter : (m.enter p).reported = m.reported := rfl

@[simp] theorem reported_turn : (m.turn s t payload).1.reported = m.reported := by
  rcases turn_eq m s t payload with ⟨h, -⟩ | ⟨h, -⟩ <;> rw [h]
  rfl

@[simp] theorem reported_round : m.round.1.reported = m.reported := by
  unfold round
  split
  · rfl
  · exact reported_turn m _ _ _

/-- A change of status is no wave. -/
theorem waves_turn : (m.turn s t payload).2.filterMap Effect.fed? = [] ∧
    (m.turn s t payload).2.filterMap Effect.told? = [] := by
  rcases turn_eq m s t payload with ⟨h, -⟩ | ⟨h, -⟩ <;> rw [h] <;>
    simp [announce, Effect.fed?, Effect.told?]

/-- Neither is a call of the source. -/
theorem waves_round : m.round.2.filterMap Effect.fed? = [] ∧
    m.round.2.filterMap Effect.told? = [] := by
  unfold round
  split
  · exact ⟨rfl, rfl⟩
  · obtain ⟨hf, ht⟩ := waves_turn m .settingUp .update Event.noPayload
    simp [List.filterMap_append, hf, ht, Effect.fed?, Effect.told?]

end

theorem Alike.trans {l m n : Monitor} (h : Alike l m) (h' : Alike m n) : Alike l n :=
  ⟨h'.groupId.trans h.groupId, h'.retailer.trans h.retailer, h'.targets.trans h.targets,
    h'.stopping.trans h.stopping⟩

theorem alike_round (m : Monitor) : Alike m m.round.1 := by
  unfold round
  split
  · exact alike_enter m .checking
  · exact (alike_turn m _ _ _).trans (alike_enter _ _)

theorem phase_round (m : Monitor) :
    m.round.1.phase = if m.warmed = true then .checking else .warming := by
  unfold round
  split <;> rfl

/-- The monitor with the reported ids that a sighting leaves. -/
def remember (m : Monitor) (s : Sighting) : Monitor :=
  { m with reported := s.remaining m.reported ++ (s.fresh m.reported).map Product.targetId }

theorem alike_remember (m : Monitor) (s : Sighting) : Alike m (m.remember s) := ⟨rfl, rfl, rfl, rfl⟩

theorem sight_of_fresh {m : Monitor} {s : Sighting} (h : s.fresh m.reported ≠ []) :
    m.sight s = (m.remember s).send (s.fresh m.reported) := by
  have he : (s.fresh m.reported).isEmpty = false := by simpa using h
  simp only [sight, he]
  rfl

/-- Without fresh hits a monitor only shows whether anything was out of stock. -/
theorem sight_of_stale {m : Monitor} {s : Sighting} (h : s.fresh m.reported = []) :
    m.sight s = (m.remember s).turn (if s.outOfStock then .outOfStock else .searching) .update
      Event.noPayload := by
  have he : (s.fresh m.reported).isEmpty = true := by simpa using h
  simp only [sight, he, Bool.not_true, Bool.false_eq_true, if_false]
  split <;> rfl

theorem alike_sight (m : Monitor) (s : Sighting) : Alike m (m.sight s).1 := by
  by_cases h : s.fresh m.reported = []
  · rw [sight_of_stale h]
    exact (alike_remember m s).trans (alike_turn _ _ _ _)
  · rw [sight_of_fresh h]
    exact ⟨rfl, rfl, rfl, rfl⟩

theorem reported_sight (m : Monitor) (s : Sighting) :
    (m.sight s).1.reported = (m.remember s).reported := by
  by_cases h : s.fresh m.reported = []
  · rw [sight_of_stale h, reported_turn]
  · rw [sight_of_fresh h]
    rfl

theorem alike_finishCheck (m : Monitor) (c : StockCheck) : Alike m (m.finishCheck c).1 := by
  have ha : Alike m { m with warmed := false } := ⟨rfl, rfl, rfl, rfl⟩
  cases c with
  | reports r => exact alike_sight m _
  | _ => exact ha.trans (alike_turn _ _ _ _)

/-! ### One case for each thing a monitor can do -/

/-- A monitor looks at its flag in these phases. -/
def Phase.looks : Phase → Bool
  | .deciding | .backingOff | .resting => true
  | _ => false

inductive Does (m : Monitor) : Signal → Monitor → List Effect → Prop
  | begin (phase : m.phase = .fresh) :
    Does m .begin ((m.announce .settingUp .start Event.noPayload).1.enter .deciding)
      (m.announce .settingUp .start Event.noPayload).2
  | stop (looks : m.phase.looks) (flag : m.stopping = true) :
    Does m .notice ((m.announce .idle .stop Event.noPayload).1.enter .stopped)
      (m.announce .idle .stop Event.noPayload).2
  | round (phase : m.phase = .deciding) (flag : m.stopping = false) :
    Does m .proceed m.round.1 m.round.2
  | warm (phase : m.phase = .warming) :
    Does m (.warmed .ready) ({ m with warmed := true }.enter .checking) [.check]
  | backOff (phase : m.phase = .warming) {result : WarmUp}
    (cold : result = .notReady ∨ result = .panicked) :
    Does m (.warmed result) (m.enter .backingOff) []
  | crash (phase : m.phase = .warming) : Does m (.warmed .crashed) (m.enter .crashed) []
  | check (phase : m.phase = .checking) (result : StockCheck) :
    Does m (.checked result)
      ((m.finishCheck result).1.enter (if result = .crashed then .crashed else .resting))
      (m.finishCheck result).2
  | rest (phase : m.phase = .resting) : Does m .rested (m.enter .deciding) []
  | retry (phase : m.phase = .backingOff) : Does m .rested m.round.1 m.round.2

theorem does_of_next? {m n : Monitor} {s : Signal} {es : List Effect}
    (h : m.next? s = some (n, es)) : Does m s n es := by
  cases s with
  | begin =>
    cases hp : m.phase <;> simp only [next?, hp, reduceCtorEq, Option.some.injEq] at h
    obtain ⟨rfl, rfl⟩ := Prod.mk.inj h
    exact .begin hp
  | notice =>
    cases hp : m.phase <;> cases hs : m.stopping <;>
      simp only [next?, hp, hs, reduceCtorEq, Option.some.injEq] at h
    all_goals
      obtain ⟨rfl, rfl⟩ := Prod.mk.inj h
      exact .stop (by rw [hp]; rfl) hs
  | proceed =>
    cases hp : m.phase <;> cases hs : m.stopping <;>
      simp only [next?, hp, hs, reduceCtorEq, Option.some.injEq] at h
    obtain ⟨rfl, rfl⟩ := Prod.ext_iff.1 h
    exact .round hp hs
  | warmed result =>
    cases hp : m.phase <;> cases result <;>
      simp only [next?, hp, reduceCtorEq, Option.some.injEq] at h
    all_goals obtain ⟨rfl, rfl⟩ := Prod.mk.inj h
    · exact .warm hp
    · exact .backOff hp (.inl rfl)
    · exact .backOff hp (.inr rfl)
    · exact .crash hp
  | checked result =>
    cases hp : m.phase <;> simp only [next?, hp, reduceCtorEq, Option.some.injEq] at h
    obtain ⟨rfl, rfl⟩ := Prod.mk.inj h
    exact .check hp result
  | rested =>
    cases hp : m.phase <;> simp only [next?, hp, reduceCtorEq, Option.some.injEq] at h
    · obtain ⟨rfl, rfl⟩ := Prod.ext_iff.1 h
      exact .retry hp
    · obtain ⟨rfl, rfl⟩ := Prod.mk.inj h
      exact .rest hp

theorem does_of_signal {m n : Monitor} {s : Signal} {es : List Effect}
    (h : m.take? (.signal s) = some (n, es)) : Does m s n es := does_of_next? h

/-- No step makes another group's monitor of it, or changes its flag. -/
theorem Does.alike {m n : Monitor} {s : Signal} {es : List Effect} (h : Does m s n es) :
    Alike m n := by
  cases h with
  | begin | stop => exact (alike_announce m _ _ _).trans (alike_enter _ _)
  | round | retry => exact alike_round m
  | warm => exact ⟨rfl, rfl, rfl, rfl⟩
  | backOff | crash | rest => exact alike_enter m _
  | check _ c => exact (alike_finishCheck m c).trans (alike_enter _ _)

/-- A run that is over takes no signal. -/
theorem Does.running {m n : Monitor} {s : Signal} {es : List Effect} (h : Does m s n es) :
    m.ended = false := by
  cases h with
  | begin phase | round phase | warm phase | backOff phase | crash phase | check phase | rest phase
  | retry phase =>
    rw [ended, phase]
    rfl
  | stop looks => cases hp : m.phase <;> simp_all [ended, Phase.looks]

end Restock.Monitor
