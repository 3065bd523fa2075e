import Restock.Proofs.World.Delivery

/-! What tasks put into their carts.

A task calls its driver for the cart only after it has taken a product, and then, the
first time, with just this product (`Played.first_cart`): between the two it does
nothing at all. The product comes from a wave that the task was there for. -/
namespace Restock.World

/-- The task calls its driver to put its product into the cart. -/
def Carts (k : Nat) (l : Scene) : Prop := Step.addToCart ∈ callsAmong k l.effects

instance (k : Nat) (l : Scene) : Decidable (Carts k l) :=
  inferInstanceAs (Decidable (_ ∈ callsAmong k l.effects))

/-- How far a task is on its way to the cart. -/
inductive Errand (k : Nat) (h : List Scene) (b : Buyer) : Prop
  | seeks (seeks : b.task.phase.seeks = true) (empty : ∀ l ∈ h, ¬ Carts k l)
  | chosen {l : Scene} {p : Product} (earlier : l ∈ h) (takes : Takes k l p)
    (phase : b.task.phase = .entering .addToCart) (product : b.task.state.product = some p)
    (empty : ∀ l ∈ h, ¬ Carts k l)
  | called {l : Scene} (earlier : l ∈ h) (carts : Carts k l)
  | finished (finished : b.task.phase.finished = true)

section
variable {w₀ w w' : World} {seen : List Happening} {h : List Scene} {k : Nat} {b b' : Buyer}
  {p : Product}

theorem empty_snoc {l : Scene} (empty : ∀ l ∈ h, ¬ Carts k l) (leg : ¬ Carts k l) :
    ∀ m ∈ h ++ [l], ¬ Carts k m := by
  intro m hm
  rcases List.mem_append.1 hm with hm | hm
  · exact empty m hm
  · rwa [List.mem_singleton.1 hm]

/-- A task that does nothing gets no further. -/
theorem Errand.rest (errand : Errand k h b) (same : b'.task.phase = b.task.phase)
    (state : b'.task.state = b.task.state) (silent : callsAmong k seen = []) :
    Errand k (h ++ [⟨w, (), seen, w'⟩]) b' := by
  have uncalled : ¬ Carts k ⟨w, (), seen, w'⟩ := by
    rw [Carts, silent]
    exact List.not_mem_nil
  cases errand with
  | seeks seeks empty => exact .seeks (same ▸ seeks) (empty_snoc empty uncalled)
  | chosen earlier takes phase product empty =>
    exact .chosen (List.mem_append_left _ earlier) takes (same ▸ phase) (state ▸ product)
      (empty_snoc empty uncalled)
  | called earlier carts => exact .called (List.mem_append_left _ earlier) carts
  | finished finished => exact .finished (same ▸ finished)

theorem Errand.acts {i : Task.Signal} {u : Task} {es : List Task.Effect} {watch : Watch}
    (errand : Errand k h b) (here : w.buyers.get? k = some b)
    (there : w'.buyers.get? k = some ⟨u, b.feed, watch⟩) (acts : b.task.next? i = some (u, es))
    (calls : callsAmong k seen = Task.callsIn es) :
    Errand k (h ++ [⟨w, (), seen, w'⟩]) ⟨u, b.feed, watch⟩ := by
  have last : (⟨w, (), seen, w'⟩ : Scene) ∈ h ++ [⟨w, (), seen, w'⟩] := by simp
  have progress := (Task.does_of_next? acts).progress
  rw [← calls] at progress
  cases errand with
  | called earlier carts => exact .called (List.mem_append_left _ earlier) carts
  | finished finished =>
    rw [Task.next?_of_finished finished] at acts
    contradiction
  | seeks seeks empty =>
    cases progress with
    | early _ after _ uncalled => exact .seeks after (empty_snoc empty uncalled)
    | shrugs phase _ _ same silent =>
      have uncalled : ¬ Carts k ⟨w, (), seen, w'⟩ := by simp [Carts, silent]
      exact .seeks (same ▸ seeks) (empty_snoc empty uncalled)
    | @chooses v p ps phase _ _ after product silent =>
      have uncalled : ¬ Carts k ⟨w, (), seen, w'⟩ := by simp [Carts, silent]
      exact .chosen last ⟨b, _, here, there, phase, after, product⟩ after product
        (empty_snoc empty uncalled)
    | starts phase =>
      rw [phase] at seeks
      contradiction
    | goesOn before =>
      rw [seeks] at before
      contradiction
    | ends finished => exact .finished finished
  | chosen earlier takes phase product empty =>
    cases progress with
    | starts _ _ _ _ calls => exact .called last (by simp [Carts, calls])
    | ends finished => exact .finished finished
    | early before =>
      rw [phase] at before
      contradiction
    | shrugs waits | chooses waits =>
      rw [phase] at waits
      contradiction
    | goesOn _ begun => exact absurd phase begun

/-- How far a task is after some scenes, if it is there. -/
structure Errands (k : Nat) (h : List Scene) (w : World) : Prop where
  absent : w.buyers.get? k = none → ∀ l ∈ h, ¬ Carts k l
  present : ∀ b, w.buyers.get? k = some b → Errand k h b

theorem Errands.step (errands : Errands k h w) (serves : Serves w w' seen) :
    Errands k (h ++ [⟨w, (), seen, w'⟩]) w' := by
  have fate := serves.buyers k
  generalize before : w.buyers.get? k = x at fate
  generalize after : w'.buyers.get? k = y at fate
  have still : callsAmong k seen = [] → ¬ Carts k ⟨w, (), seen, w'⟩ := by
    intro silent
    rw [Carts, silent]
    exact List.not_mem_nil
  cases fate with
  | rests _ silent =>
    refine ⟨fun absent => ?_, fun b here => ?_⟩
    · exact empty_snoc (errands.absent (before.trans (after.symm.trans absent))) (still silent)
    · exact (errands.present b (before.trans (after.symm.trans here))).rest rfl rfl silent
  | stopped b silent =>
    refine ⟨fun absent => absurd (after.symm.trans absent) (by simp), fun b' here => ?_⟩
    obtain rfl := Option.some.inj (after.symm.trans here)
    exact (errands.present b before).rest rfl rfl silent
  | joins c d feed silent =>
    refine ⟨fun absent => absurd (after.symm.trans absent) (by simp), fun b' here => ?_⟩
    obtain rfl := Option.some.inj (after.symm.trans here)
    exact .seeks rfl (empty_snoc (errands.absent before) (still silent))
  | acts acts _ _ calls =>
    refine ⟨fun absent => absurd (after.symm.trans absent) (by simp), fun b' here => ?_⟩
    obtain rfl := Option.some.inj (after.symm.trans here)
    exact (errands.present _ before).acts before after acts calls

theorem Played.errands (played : Played w₀ h w) (absent : w₀.buyers.get? k = none) :
    Errands k h w := by
  induction played with
  | rest =>
    refine ⟨fun _ l hl => absurd hl List.not_mem_nil, fun b here => ?_⟩
    rw [absent] at here
    contradiction
  | step _ serves ih => exact ih.step serves

/-- The product of the first call for the cart is the one that the task has taken. -/
theorem Played.first_cart {past later : List Scene} {l : Scene} (played : Played w₀ h w)
    (absent : w₀.buyers.get? k = none) (split : h = past ++ l :: later) (carts : Carts k l)
    (first : ∀ m ∈ past, ¬ Carts k m) :
    ∃ b b' p, l.before.buyers.get? k = some b ∧ l.after.buyers.get? k = some b' ∧
      b.task.state.product = some p ∧ b'.task.state.product = some p ∧
      ∃ m ∈ past, Takes k m p := by
  obtain ⟨before, serves⟩ := played.reach split
  have fate := serves.buyers k
  generalize here : l.before.buyers.get? k = x at fate
  generalize there : l.after.buyers.get? k = y at fate
  have silence : callsAmong k l.effects ≠ [] := fun silent => by
    rw [Carts, silent] at carts
    contradiction
  cases fate with
  | rests _ silent | stopped _ silent | joins _ _ _ silent => exact absurd silent silence
  | @acts b i u es watch acts _ _ calls =>
    have progress := (Task.does_of_next? acts).progress
    rw [← calls] at progress
    cases progress with
    | early _ _ _ uncalled | goesOn _ _ _ _ uncalled => exact absurd carts uncalled
    | shrugs _ _ _ _ silent | chooses _ _ _ _ _ silent | ends _ _ silent =>
      exact absurd silent silence
    | starts phase _ state =>
      cases (before.errands absent).present b here with
      | seeks seeks =>
        rw [phase] at seeks
        contradiction
      | called earlier carts => exact absurd carts (first _ earlier)
      | finished finished =>
        rw [phase] at finished
        contradiction
      | @chosen m p earlier takes _ product =>
        refine ⟨b, _, p, rfl, rfl, product, ?_, m, earlier, takes⟩
        exact (congrArg CheckoutState.product state).trans product

/-- What a task takes comes first in a wave that it was there for. -/
theorem Played.wave_of_takes {m : Scene} (played : Played w₀ h w)
    (absent : w₀.buyers.get? k = none) (among : m ∈ h) (takes : Takes k m p) :
    ∃ l ∈ h, ∃ b v, l.before.buyers.get? k = some b ∧ v ∈ wavesAmong b.feed l.effects ∧
      p ∈ v.products := by
  obtain ⟨past, later, split⟩ := List.append_of_mem among
  obtain ⟨before, serves⟩ := played.reach split
  have ⟨b, _, here, _⟩ := takes
  obtain ⟨v, ps, last, products⟩ :=
    ((before.attended absent).watching b here).takes serves here takes
  obtain ⟨l, hl, b, there, wave⟩ := mem_wavesSince_iff.1 (List.mem_of_getLast? last)
  refine ⟨l, ?_, b, v, there, wave, by simp [products]⟩
  rw [split]
  exact List.mem_append_left _ hl

end

end Restock.World
