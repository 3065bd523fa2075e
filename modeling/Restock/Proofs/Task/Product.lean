import Restock.Proofs.Task.Login

/-! How a task comes by its product.

A task seeks a product until it takes the first one of a wave, and then it calls its
driver to put it into the cart. It does not go back: one that has taken a product
seeks none again. What each step is to that is said by `Progress`. -/
namespace Restock.Task

def Effect.call? : Effect → Option Step
  | .call s => some s
  | _ => none

/-- The steps that the driver is called for. -/
def callsIn (es : List Effect) : List Step := es.filterMap Effect.call?

/-- The task has taken no product yet. -/
def Phase.seeks (p : Phase) : Bool := p.early || p == .awaitingWave

/-- The run is over. -/
def Phase.finished (p : Phase) : Bool := p == .ended || p == .crashed

inductive Progress (t : Task) (i : Signal) (u : Task) (calls : List Step) : Prop
  /-- Before the wait for a wave. -/
  | early (before : t.phase.early = true) (after : u.phase.seeks = true)
    (unfed : ∀ next, i ≠ .fed next) (uncalled : .addToCart ∉ calls)
  | shrugs {v : Wave} (phase : t.phase = .awaitingWave) (fed : i = .fed (.wave v))
    (empty : v.products = []) (same : u = t) (silent : calls = [])
  | chooses {v : Wave} {p : Product} {ps : List Product} (phase : t.phase = .awaitingWave)
    (fed : i = .fed (.wave v)) (products : v.products = p :: ps)
    (after : u.phase = .entering .addToCart) (product : u.state.product = some p)
    (silent : calls = [])
  | starts (phase : t.phase = .entering .addToCart) (after : u.phase = .calling .addToCart)
    (state : u.state = t.state) (unfed : ∀ next, i ≠ .fed next) (calls : calls = [.addToCart])
  /-- After the first call for the cart. -/
  | goesOn (before : t.phase.seeks = false) (begun : t.phase ≠ .entering .addToCart)
    (after : u.phase.seeks = false) (unfed : ∀ next, i ≠ .fed next) (uncalled : .addToCart ∉ calls)
  | ends (finished : u.phase.finished = true)
    (why : t.phase = .awaitingWave →
      u.phase = .ended ∧ (i = .notice ∧ t.stopping = true ∨ i = .fed .closed))
    (silent : calls = [])

theorem Phase.settled_of_finished {p : Phase} (finished : p.finished = true) : p.seeks = false := by
  cases p <;> first | rfl | contradiction

section
variable {t u : Task} {i : Signal} {es : List Effect}

theorem callsIn_eq_nil (uncalled : ∀ s, .call s ∉ es) : callsIn es = [] := by
  refine List.filterMap_eq_nil_iff.2 fun e he => ?_
  cases e with
  | call s => exact absurd he (uncalled s)
  | publish | finish => rfl

theorem callsIn_attempt (t : Task) (s : Step) : callsIn (t.attempt s).2 = [s] := by
  obtain ⟨-, -, -, -, uncalled⟩ := steady_turn t s.status .update Event.noPayload
  show callsIn ((t.turn s.status .update Event.noPayload).2 ++ [.call s]) = [s]
  rw [callsIn, List.filterMap_append, ← callsIn, callsIn_eq_nil uncalled]
  rfl

theorem state_attempt (t : Task) (s : Step) : (t.attempt s).1.state = t.state := state_turn ..

theorem Does.silent (h : Does t i u es) (hi : i ≠ .proceed) : callsIn es = [] :=
  callsIn_eq_nil (h.steady hi).uncalled

theorem Does.progress (h : Does t i u es) : Progress t i u (callsIn es) := by
  cases h with
  | beginGuest phase | beginMember phase =>
    exact .early (by rw [phase]; rfl) rfl (by simp) (by simp [callsIn, Effect.call?, tells])
  | stop looks flag =>
    exact .ends (by rw [phase_halt]; rfl) (fun _ => ⟨phase_halt .., .inl ⟨rfl, flag⟩⟩)
      ((Does.stop looks flag).silent (by simp))
  | adopt phase flag v =>
    exact .early (by rw [phase]; rfl) rfl (by simp)
      (by rw [(Does.adopt phase flag v).silent (by simp)]; exact List.not_mem_nil)
  | adoptLater phase flag v =>
    exact .early (by rw [phase]; rfl) rfl (by simp)
      (by rw [(Does.adoptLater phase flag v).silent (by simp)]; exact List.not_mem_nil)
  | wait phase | elect phase | claim phase =>
    exact .early (by rw [phase]; rfl) rfl (by simp) List.not_mem_nil
  | stay phase =>
    exact .early (by rw [phase]; rfl) (by rw [phase]; rfl) (by simp) List.not_mem_nil
  | @attempt s phase flag =>
    rw [callsIn_attempt]
    cases s with
    | login => exact .early (by rw [phase]; rfl) rfl (by simp) (by decide)
    | addToCart => exact .starts phase rfl (state_attempt t _) (by simp) rfl
    | _ => exact .goesOn (by rw [phase]; rfl) (by simp [phase]) rfl (by simp) (by decide)
  | share phase state v =>
    exact .early (by rw [phase]; rfl) rfl (by simp)
      (by rw [(Does.share phase state v).silent (by simp)]; exact List.not_mem_nil)
  | sessionless phase state =>
    exact .ends (by rw [phase_halt]; rfl) (by simp [phase])
      ((Does.sessionless phase state).silent (by simp))
  | @advance s n phase checkout onward state v =>
    have ahead := Step.ne_login_of_next onward
    refine .goesOn ?_ (by simp [phase]) ?_ (by simp) List.not_mem_nil
    · rw [phase]
      cases s <;> first | rfl | contradiction
    · cases n <;> first | rfl | contradiction
  | complete phase state v =>
    exact .ends rfl (by simp [phase]) ((Does.complete phase state v).silent (by simp))
  | undecided phase state failed decided =>
    exact .ends rfl (by simp [phase]) ((Does.undecided phase state failed decided).silent (by simp))
  | crash phase state =>
    exact .ends rfl (by simp [phase]) ((Does.crash phase state).silent (by simp))
  | yield phase state failed decided =>
    exact .ends (by rw [phase_halt]; rfl) (by simp [phase])
      ((Does.yield phase state failed decided).silent (by simp))
  | abort phase state failed decided =>
    exact .ends (by rw [phase_halt]; rfl) (by simp [phase])
      ((Does.abort phase state failed decided).silent (by simp))
  | @pause s phase state r f terminal failed delay reason decided =>
    have silent := (Does.pause phase state failed decided).silent (by simp)
    rw [silent]
    cases s with
    | login => exact .early (by rw [phase]; rfl) rfl (by simp) List.not_mem_nil
    | _ => exact .goesOn (by rw [phase]; rfl) (by simp [phase]) rfl (by simp) List.not_mem_nil
  | @rest s delay phase =>
    cases s with
    | login => exact .early (by rw [phase]; rfl) rfl (by simp) List.not_mem_nil
    | _ => exact .goesOn (by rw [phase]; rfl) (by simp [phase]) rfl (by simp) List.not_mem_nil
  | receive phase products => exact .chooses phase rfl products rfl rfl rfl
  | ignore phase products => exact .shrugs phase rfl products rfl rfl
  | giveUp phase =>
    exact .ends (by rw [phase_halt]; rfl) (fun _ => ⟨phase_halt .., .inr rfl⟩)
      ((Does.giveUp phase).silent (by simp))

/-- A run that is over takes no signal. -/
theorem next?_of_finished (finished : t.phase.finished = true) (i : Signal) : t.next? i = none := by
  have phase : t.phase = .ended ∨ t.phase = .crashed := by
    simpa only [Phase.finished, Bool.or_eq_true, beq_iff_eq] using finished
  rcases phase with phase | phase <;> cases i <;> simp only [next?, phase]

/-- A task that has taken a product seeks none again. -/
theorem Progress.settled {calls : List Step} (h : Progress t i u calls)
    (before : t.phase.seeks = false) : u.phase.seeks = false := by
  cases h with
  | early early =>
    rw [Phase.seeks, early] at before
    contradiction
  | shrugs phase | chooses phase =>
    rw [phase] at before
    contradiction
  | starts _ after =>
    rw [after]
    rfl
  | goesOn _ _ after => exact after
  | ends finished => exact Phase.settled_of_finished finished

end

end Restock.Task
