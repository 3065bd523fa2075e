import Restock.Proofs.World.Feeds

/-! The delivery of products.

`Played` are the scenes of a world, whoever directs it: each of them serves the feeds
and the tasks. A task that is there gets the waves that its feed gets from then on
(`wavesSince`). While it seeks a product, its watch lags behind the feed by just these
(`Watching`), and so the one product that it takes is the first of the latest of them
(`Delivery`). -/
namespace Restock.World

abbrev Scene := Leg World Unit Happening

/-- The scenes lead from the first world to the last. -/
inductive Played (w : World) : List Scene → World → Prop
  | rest : Played w [] w
  | step {h : List Scene} {v u : World} {seen : List Happening} (past : Played w h v)
    (serves : Serves v u seen) : Played w (h ++ [⟨v, (), seen, u⟩]) u

/-- The waves that the feed of a task gets while the task is there. -/
def wavesSince (k : Nat) (h : List Scene) : List Wave :=
  h.flatMap fun l => (l.before.buyers.get? k).elim [] fun b => wavesAmong b.feed l.effects

/-- All waves that a feed gets. -/
def wavesTo (n : Nat) (h : List Scene) : List Wave := h.flatMap fun l => wavesAmong n l.effects

/-- The task takes the product. -/
def Takes (k : Nat) (l : Scene) (p : Product) : Prop :=
  ∃ b b', l.before.buyers.get? k = some b ∧ l.after.buyers.get? k = some b' ∧
    b.task.phase = .awaitingWave ∧ b'.task.phase = .entering .addToCart ∧
    b'.task.state.product = some p

/-- What a task may rely on after some scenes. -/
structure Delivery (k : Nat) (h : List Scene) (w : World) : Prop where
  /-- A task takes the first product of the latest wave since it is there. -/
  taken : ∀ past l later p, h = past ++ l :: later → Takes k l p →
    ∃ v ps, (wavesSince k past).getLast? = some v ∧ v.products = p :: ps
  once : ∀ past l later p, h = past ++ l :: later → Takes k l p →
    ∀ m ∈ past ++ later, ∀ q, ¬ Takes k m q
  /-- A task that waits, and is not stopped, can take a product when there was a wave,
  and nothing else. -/
  ready : ∀ b, w.buyers.get? k = some b → b.task.phase = .awaitingWave →
    b.task.stopping = false → wavesSince k h ≠ [] →
    (∃ w' seen p, w.step? (.task k .take) = some (w', seen) ∧ Takes k ⟨w, (), seen, w'⟩ p) ∧
      ∀ m w' seen, w.step? (.task k m) = some (w', seen) → m = .take
  /-- The wait ends with a product, or with a stop that was called for, or because there
  was no wave and will be none. -/
  waited : ∀ past l later b b', h = past ++ l :: later → l.before.buyers.get? k = some b →
    l.after.buyers.get? k = some b' → b.task.phase = .awaitingWave →
    b'.task.phase ≠ .awaitingWave →
    (∃ p, Takes k l p) ∨ (b'.task.phase = .ended ∧ (b.task.stopping = true ∨
      (l.before.feed b.feed).isClosed = true ∧ wavesSince k past = []))

end Restock.World

namespace Restock

namespace Feed

variable {α : Type} {f : Feed α} {w : Watch}

theorem next_wave {v : α} (h : (f.next w).1 = .wave v) : w.seen ≠ f.version ∧ f.latest = some v := by
  unfold next at h
  split at h
  · split at h <;> contradiction
  · next lags =>
    refine ⟨lags, ?_⟩
    cases hl : f.latest with
    | none =>
      rw [hl] at h
      dsimp only at h
      split at h <;> contradiction
    | some u =>
      rw [hl] at h
      exact congrArg some (Next.wave.inj h)

theorem next_closed (h : (f.next w).1 = .closed) :
    f.isClosed = true ∧ (w.seen = f.version ∨ f.latest = none) := by
  unfold next at h
  split at h
  · next level =>
    split at h
    · next closed => exact ⟨closed, .inl level⟩
    · contradiction
  · cases hl : f.latest with
    | none =>
      rw [hl] at h
      dsimp only at h
      split at h
      · next closed => exact ⟨closed, .inr rfl⟩
      · contradiction
    | some u =>
      rw [hl] at h
      contradiction

/-- A watch that lags behind sees the latest wave. -/
theorem next_of_lag {v : α} (lags : w.seen < f.version) (latest : f.latest = some v) :
    (f.next w).1 = .wave v := by
  rw [next, if_neg (by omega), latest]

end Feed

namespace World

section
variable {w w' : World} {seen : List Happening} {h : List Scene} {k : Nat} {b b' : Buyer} {p : Product}

theorem wavesSince_snoc (k : Nat) (h : List Scene) (l : Scene) :
    wavesSince k (h ++ [l]) = wavesSince k h ++
      (l.before.buyers.get? k).elim [] fun b => wavesAmong b.feed l.effects := by
  simp [wavesSince]

theorem mem_wavesSince_iff {v : Wave} : v ∈ wavesSince k h ↔
    ∃ l ∈ h, ∃ b, l.before.buyers.get? k = some b ∧ v ∈ wavesAmong b.feed l.effects := by
  simp only [wavesSince, List.mem_flatMap]
  refine exists_congr fun l => and_congr_right fun _ => ?_
  cases l.before.buyers.get? k <;> simp

/-- Up to any of them the scenes are scenes, and each of them serves. -/
theorem Played.reach {past later : List Scene} {l : Scene} (played : Played w h w')
    (split : h = past ++ l :: later) :
    Played w past l.before ∧ Serves l.before l.after l.effects := by
  induction played generalizing later with
  | rest => simp at split
  | step played serves ih =>
    rcases split_snoc split with ⟨rfl, rfl, -⟩ | ⟨rest, -, split⟩
    · exact ⟨played, serves⟩
    · exact ih split

/-- The watch of a task that seeks a product lags behind its feed by the waves since the
task is there, and the feed keeps the last of them. -/
structure Watching (k : Nat) (h : List Scene) (w : World) (b : Buyer) : Prop where
  products : ∀ v ∈ wavesSince k h, v.products ≠ []
  watch : b.task.phase.seeks = true → ∃ f, w.feeds.get? b.feed = some f ∧
    b.watch.seen + (wavesSince k h).length = f.version ∧
    (wavesSince k h ≠ [] → f.latest = (wavesSince k h).getLast?)

/-- What a task has got after some scenes. -/
structure Attended (k : Nat) (h : List Scene) (w : World) : Prop where
  absent : w.buyers.get? k = none → wavesSince k h = []
  watching : ∀ b, w.buyers.get? k = some b → Watching k h w b
  settled : ∀ l ∈ h, ∀ p, Takes k l p →
    ∃ b, w.buyers.get? k = some b ∧ b.task.phase.seeks = false

/-! ### What a task finds in its feed -/

theorem Watching.wave {v : Wave} (watching : Watching k h w b) (waits : b.task.phase = .awaitingWave)
    (next : ((w.feed b.feed).next b.watch).1 = .wave v) : (wavesSince k h).getLast? = some v := by
  obtain ⟨f, feed, lag, latest⟩ := watching.watch (by rw [waits]; rfl)
  rw [World.feed, feed] at next
  obtain ⟨behind, last⟩ := Feed.next_wave next
  have behind : b.watch.seen ≠ f.version := behind
  have last : f.latest = some v := last
  rw [← latest, last]
  intro quiet
  rw [quiet] at lag
  exact behind lag

theorem Watching.closed (watching : Watching k h w b) (waits : b.task.phase = .awaitingWave)
    (next : ((w.feed b.feed).next b.watch).1 = .closed) :
    (w.feed b.feed).isClosed = true ∧ wavesSince k h = [] := by
  obtain ⟨f, feed, lag, latest⟩ := watching.watch (by rw [waits]; rfl)
  obtain ⟨closed, level⟩ := Feed.next_closed next
  refine ⟨closed, ?_⟩
  rw [World.feed, feed] at level
  by_cases quiet : wavesSince k h = []
  · exact quiet
  · rcases level with level | empty
    · have positive := List.length_pos_iff.2 quiet
      have level : b.watch.seen = f.version := level
      omega
    · have last := latest quiet
      rw [show f.latest = none from empty] at last
      exact absurd last.symm (by simpa using quiet)

/-- While there was a wave, a task that waits finds the last of them. -/
theorem Watching.pending (watching : Watching k h w b) (waits : b.task.phase = .awaitingWave)
    (waves : wavesSince k h ≠ []) : ∃ v p ps, (wavesSince k h).getLast? = some v ∧
      v.products = p :: ps ∧ ((w.feed b.feed).next b.watch).1 = .wave v := by
  obtain ⟨f, feed, lag, latest⟩ := watching.watch (by rw [waits]; rfl)
  obtain ⟨v, last⟩ := Option.isSome_iff_exists.1 (List.getLast?_isSome.2 waves)
  obtain ⟨p, ps, products⟩ := List.exists_cons_of_ne_nil
    (watching.products v (List.mem_of_getLast? last))
  refine ⟨v, p, ps, last, products, ?_⟩
  have positive := List.length_pos_iff.2 waves
  have behind : b.watch.seen < f.version := by omega
  rw [World.feed, feed]
  exact Feed.next_of_lag behind ((latest waves).trans last)

/-! ### What a scene brings to a task -/

/-- The waves of a scene come after those that a task has been waiting through. -/
theorem Watching.rest (watching : Watching k h w b) (serves : Serves w w' seen)
    (here : w.buyers.get? k = some b) (feed : b'.feed = b.feed) (watch : b'.watch = b.watch)
    (seeks : b'.task.phase.seeks = true → b.task.phase.seeks = true) :
    Watching k (h ++ [⟨w, (), seen, w'⟩]) w' b' := by
  have waves : wavesSince k (h ++ [⟨w, (), seen, w'⟩]) = wavesSince k h ++ wavesAmong b.feed seen := by
    rw [wavesSince_snoc]
    dsimp only
    rw [here]
    rfl
  refine ⟨fun v hv => ?_, fun seeking => ?_⟩
  · rw [waves] at hv
    rcases List.mem_append.1 hv with hv | hv
    · exact watching.products v hv
    · exact serves.products _ v hv
  · obtain ⟨f, hf, lag, latest⟩ := watching.watch (seeks seeking)
    obtain ⟨f', hf', version, kept⟩ := serves.feeds _ f hf
    refine ⟨f', feed ▸ hf', ?_, fun some => ?_⟩
    · rw [waves, List.length_append, watch]
      omega
    · rw [waves] at some
      rw [kept, waves, List.getLast?_append]
      cases last : (wavesAmong b.feed seen).getLast? with
      | some v => rfl
      | none =>
        rw [List.getLast?_eq_none_iff.1 last, List.append_nil] at some
        exact latest some

theorem Watching.settled (watching : Watching k h w b) (serves : Serves w w' seen)
    (here : w.buyers.get? k = some b) (finished : b'.task.phase.seeks = false) :
    Watching k (h ++ [⟨w, (), seen, w'⟩]) w' b' := by
  have rest : Watching k (h ++ [⟨w, (), seen, w'⟩]) w' b := watching.rest serves here rfl rfl id
  refine ⟨rest.products, fun seeks => ?_⟩
  rw [finished] at seeks
  contradiction

theorem Watching.acts {i : Task.Signal} {u : Task} {es : List Task.Effect} {watch : Watch}
    (watching : Watching k h w b) (serves : Serves w w' seen) (here : w.buyers.get? k = some b)
    (acts : b.task.next? i = some (u, es)) (reads : Reads w b i watch) :
    Watching k (h ++ [⟨w, (), seen, w'⟩]) w' ⟨u, b.feed, watch⟩ := by
  cases (Task.does_of_next? acts).progress with
  | early before after unfed =>
    have kept : watch = b.watch := by
      cases reads with
      | takes => exact absurd rfl (unfed _)
      | other => rfl
    exact watching.rest serves here rfl kept fun _ => by rw [Task.Phase.seeks, before]; rfl
  | @shrugs v phase fed empty =>
    -- No wave is empty.
    cases reads with
    | other unfed => exact absurd fed (unfed _)
    | takes =>
      have last := watching.wave phase (Task.Signal.fed.inj fed)
      exact absurd empty (watching.products v (List.mem_of_getLast? last))
  | chooses _ _ _ after | starts _ after =>
    exact watching.settled serves here (by dsimp only; rw [after]; rfl)
  | goesOn _ _ after => exact watching.settled serves here after
  | ends finished => exact watching.settled serves here (Task.Phase.settled_of_finished finished)

/-- Only who waits takes a product, and it takes it from the last wave. -/
theorem Watching.takes {l : Scene} (watching : Watching k h l.before b)
    (serves : Serves l.before l.after l.effects) (here : l.before.buyers.get? k = some b)
    (takes : Takes k l p) :
    ∃ v ps, (wavesSince k h).getLast? = some v ∧ v.products = p :: ps := by
  obtain ⟨c, c', hc, hc', waits, enters, product⟩ := takes
  obtain rfl := Option.some.inj (here.symm.trans hc)
  have fate := serves.buyers k
  rw [hc, hc'] at fate
  cases fate with
  | rests | stopped =>
    have same : b.task.phase = .entering .addToCart := enters
    rw [waits] at same
    contradiction
  | @acts _ i u es watch acts reads =>
    have enters : u.phase = .entering .addToCart := enters
    cases (Task.does_of_next? acts).progress with
    | @chooses v p' ps phase fed products _ chosen =>
      cases reads with
      | other unfed => exact absurd fed (unfed _)
      | takes =>
        obtain rfl := Option.some.inj (chosen.symm.trans product)
        exact ⟨v, ps, watching.wave phase (Task.Signal.fed.inj fed), products⟩
    | early before =>
      rw [waits] at before
      contradiction
    | shrugs _ _ _ same =>
      rw [same, waits] at enters
      contradiction
    | starts phase =>
      rw [waits] at phase
      contradiction
    | goesOn before =>
      rw [waits] at before
      contradiction
    | ends finished =>
      rw [enters] at finished
      contradiction

/-- A task that has taken a product is there, and seeks none. -/
theorem settled_of_takes {l : Scene} (takes : Takes k l p) :
    ∃ b, l.after.buyers.get? k = some b ∧ b.task.phase.seeks = false := by
  obtain ⟨-, b, -, here, -, enters, -⟩ := takes
  exact ⟨b, here, by rw [enters]; rfl⟩

theorem Serves.settled (serves : Serves w w' seen)
    (before : ∃ b, w.buyers.get? k = some b ∧ b.task.phase.seeks = false) :
    ∃ b, w'.buyers.get? k = some b ∧ b.task.phase.seeks = false := by
  obtain ⟨b, here, finished⟩ := before
  have fate := serves.buyers k
  rw [here] at fate
  generalize w'.buyers.get? k = after at fate
  cases fate with
  | rests => exact ⟨b, rfl, finished⟩
  | stopped => exact ⟨_, rfl, finished⟩
  | acts acts => exact ⟨_, rfl, (Task.does_of_next? acts).progress.settled finished⟩

theorem Attended.step (attended : Attended k h w) (serves : Serves w w' seen) :
    Attended k (h ++ [⟨w, (), seen, w'⟩]) w' := by
  refine ⟨fun gone => ?_, fun b here => ?_, fun l hl p takes => ?_⟩
  · have fate := serves.buyers k
    rw [gone] at fate
    generalize before : w.buyers.get? k = b at fate
    cases fate with
    | rests =>
      rw [wavesSince_snoc, attended.absent before]
      dsimp only
      rw [before]
      rfl
  · have fate := serves.buyers k
    rw [here] at fate
    generalize before : w.buyers.get? k = b at fate
    cases fate with
    | rests => exact (attended.watching _ before).rest serves before rfl rfl id
    | stopped b => exact (attended.watching b before).rest serves before rfl rfl id
    | @joins c d n f feed =>
      have none : wavesSince k (h ++ [⟨w, (), seen, w'⟩]) = [] := by
        rw [wavesSince_snoc, attended.absent before]
        dsimp only
        rw [before]
        rfl
      refine ⟨fun v hv => ?_, fun _ => ⟨f, feed, ?_, fun some => absurd none some⟩⟩
      · rw [none] at hv
        contradiction
      · rw [none]
        rfl
    | @acts b i u es watch acts reads =>
      exact (attended.watching b before).acts serves before acts reads
  · rcases List.mem_append.1 hl with hl | hl
    · exact serves.settled (attended.settled l hl p takes)
    · obtain rfl := List.mem_singleton.1 hl
      exact settled_of_takes takes

theorem Played.attended {w₀ : World} (played : Played w₀ h w) (absent : w₀.buyers.get? k = none) :
    Attended k h w := by
  induction played with
  | rest =>
    refine ⟨fun _ => rfl, fun b here => ?_, fun l hl => absurd hl List.not_mem_nil⟩
    rw [absent] at here
    contradiction
  | step _ serves ih => exact ih.step serves

/-! ### What a task may rely on -/

/-- The task takes its product by taking the wave that it finds. -/
theorem takes_of_wave {v : Wave} {ps : List Product} (here : w.buyers.get? k = some b)
    (waits : b.task.phase = .awaitingWave) (next : ((w.feed b.feed).next b.watch).1 = .wave v)
    (products : v.products = p :: ps) :
    ∃ w' seen, w.step? (.task k .take) = some (w', seen) ∧ Takes k ⟨w, (), seen, w'⟩ p := by
  let u := { b.task with state := { b.task.state with product := some p } }.enter
    (.entering .addToCart)
  let watch := ((w.feed b.feed).next b.watch).2
  have acts : b.task.next? (.fed (.wave v)) = some (u, []) := by
    simp only [Task.next?, waits, products, u]
  have step : w.step? (.task k .take) =
      some ({ w with buyers := w.buyers.put k ⟨u, b.feed, watch⟩ }, []) := by
    simp only [step?, stepTask, signal?, here, next, acts, bind, Option.bind]
    rfl
  refine ⟨_, _, step, b, ⟨u, b.feed, watch⟩, here, ?_, waits, rfl, rfl⟩
  exact Table.get?_put_self ..

/-- A task that waits, and is not stopped, does nothing but look at its feed. -/
theorem take_of_stepTask {m : TaskMove} (here : w.buyers.get? k = some b)
    (waits : b.task.phase = .awaitingWave) (unstopped : b.task.stopping = false)
    (step : w.stepTask k m = some (w', seen)) : m = .take := by
  obtain ⟨b', hb, step⟩ := Option.bind_eq_some_iff.1 step
  obtain rfl := Option.some.inj (here.symm.trans hb)
  obtain ⟨⟨i, pool, watch⟩, hi, step⟩ := Option.bind_eq_some_iff.1 step
  obtain ⟨⟨u, es⟩, acts, -⟩ := Option.bind_eq_some_iff.1 step
  have fed : ∃ next, i = .fed next := by
    cases (Task.does_of_next? acts).progress with
    | early before | goesOn before =>
      rw [waits] at before
      contradiction
    | shrugs _ fed | chooses _ fed => exact ⟨_, fed⟩
    | starts phase =>
      rw [waits] at phase
      contradiction
    | ends _ why =>
      obtain ⟨-, ⟨-, flag⟩ | fed⟩ := why waits
      · rw [unstopped] at flag
        contradiction
      · exact ⟨_, fed⟩
  obtain ⟨next, rfl⟩ := fed
  cases m with
  | take => rfl
  | elect | look =>
    obtain ⟨key, -, hi⟩ := Option.bind_eq_some_iff.1 hi
    cases hi
  | begin | notice | proceed | reply | rest => cases hi

/-- How a wait ends. -/
theorem Watching.ends (watching : Watching k h w b) (serves : Serves w w' seen)
    (here : w.buyers.get? k = some b) (there : w'.buyers.get? k = some b')
    (waits : b.task.phase = .awaitingWave) (finished : b'.task.phase ≠ .awaitingWave) :
    (∃ p, Takes k ⟨w, (), seen, w'⟩ p) ∨ (b'.task.phase = .ended ∧ (b.task.stopping = true ∨
      (w.feed b.feed).isClosed = true ∧ wavesSince k h = [])) := by
  have fate := serves.buyers k
  rw [here, there] at fate
  cases fate with
  | rests | stopped => exact absurd waits finished
  | @acts _ i u es watch acts reads =>
    have finished : u.phase ≠ .awaitingWave := finished
    cases (Task.does_of_next? acts).progress with
    | early before | goesOn before =>
      rw [waits] at before
      contradiction
    | shrugs _ _ _ same =>
      rw [same] at finished
      exact absurd waits finished
    | @chooses v p ps _ _ _ enters product =>
      exact .inl ⟨p, b, _, here, there, waits, enters, product⟩
    | starts phase =>
      rw [waits] at phase
      contradiction
    | ends _ why =>
      obtain ⟨ended, ⟨-, flag⟩ | fed⟩ := why waits
      · exact .inr ⟨ended, .inl flag⟩
      · cases reads with
        | other unfed => exact absurd fed (unfed _)
        | takes => exact .inr ⟨ended, .inr (watching.closed waits (Task.Signal.fed.inj fed))⟩

theorem Played.delivery {w₀ : World} (played : Played w₀ h w) (absent : w₀.buyers.get? k = none) :
    Delivery k h w := by
  refine ⟨fun past l later p split takes => ?_, fun past l later p split takes => ?_,
    fun b here waits unstopped waves => ?_, fun past l later b b' split here there waits finished => ?_⟩
  · obtain ⟨before, serves⟩ := played.reach split
    have ⟨b, _, here, _⟩ := takes
    exact ((before.attended absent).watching b here).takes serves here takes
  · intro m hm q again
    -- Whichever comes second finds a task that seeks no product.
    have twice : ∀ {past l later m} {p q : Product}, h = past ++ l :: later → m ∈ past →
        Takes k m q → ¬ Takes k l p := by
      intro past l later m p q split hm earlier takes
      obtain ⟨b, here, settled⟩ := ((played.reach split).1.attended absent).settled m hm q earlier
      obtain ⟨c, -, here', -, waits, -⟩ := takes
      obtain rfl := Option.some.inj (here.symm.trans here')
      rw [waits] at settled
      contradiction
    rcases List.mem_append.1 hm with hm | hm
    · exact twice split hm again takes
    · obtain ⟨a, c, rfl⟩ := List.append_of_mem hm
      have split : h = (past ++ l :: a) ++ m :: c := by simpa using split
      exact twice split (by simp) takes again
  · have watching := (played.attended absent).watching b here
    obtain ⟨v, p, ps, -, products, next⟩ := watching.pending waits waves
    obtain ⟨w', seen, step, takes⟩ := takes_of_wave here waits next products
    exact ⟨⟨w', seen, p, step, takes⟩,
      fun m w' seen step => take_of_stepTask here waits unstopped step⟩
  · obtain ⟨before, serves⟩ := played.reach split
    exact ((before.attended absent).watching b here).ends serves here there waits finished

/-! ### All waves of a feed -/

/-- A feed that is not there has got no wave. -/
theorem Played.unopened {w₀ : World} {n : Nat} (played : Played w₀ h w)
    (closed : w.feeds.get? n = none) : wavesTo n h = [] := by
  induction played with
  | rest => rfl
  | @step h v u seen past serves ih =>
    have earlier : v.feeds.get? n = none := by
      cases feed : v.feeds.get? n with
      | none => rfl
      | some f =>
        obtain ⟨f', there, -⟩ := serves.feeds n f feed
        rw [closed] at there
        contradiction
    have quiet : wavesAmong n seen = [] := serves.unopened n earlier
    rw [wavesTo, List.flatMap_append, ← wavesTo, ih earlier]
    exact (List.append_nil _).trans quiet

/-- A task watches one feed, and is there for all its waves from then on. -/
theorem Played.watches {w₀ : World} (played : Played w₀ h w) (here : w₀.buyers.get? k = some b) :
    (∃ b', w.buyers.get? k = some b' ∧ b'.feed = b.feed ∧ b'.task.context = b.task.context) ∧
      wavesSince k h = wavesTo b.feed h := by
  induction played with
  | rest => exact ⟨⟨b, here, rfl, rfl⟩, rfl⟩
  | @step h v u seen past serves ih =>
    obtain ⟨⟨b', there, feed, context⟩, waves⟩ := ih
    constructor
    · have fate := serves.buyers k
      rw [there] at fate
      generalize u.buyers.get? k = after at fate
      cases fate with
      | rests | stopped => exact ⟨_, rfl, feed, context⟩
      | acts acts => exact ⟨_, rfl, feed, (Task.does_of_next? acts).same.1.trans context⟩
    · have waves' : wavesTo b.feed (h ++ [⟨v, (), seen, u⟩]) =
          wavesTo b.feed h ++ wavesAmong b.feed seen := by simp [wavesTo]
      rw [wavesSince_snoc, waves, waves']
      dsimp only
      rw [there, ← feed]
      rfl

/-- The task that joins with its feed is there for all waves of the feed. -/
theorem wavesSince_of_joined {w₀ w₁ w₂ : World} {past later : List Scene}
    (before : Played w₀ past w₁) (serves : Serves w₁ w₂ seen) (after : Played w₂ later w)
    (absent : w₁.buyers.get? k = none) (unseen : wavesSince k past = [])
    (here : w₂.buyers.get? k = some b) (closed : w₁.feeds.get? b.feed = none) :
    wavesSince k (past ++ ⟨w₁, (), seen, w₂⟩ :: later) =
      wavesTo b.feed (past ++ ⟨w₁, (), seen, w₂⟩ :: later) := by
  have quiet : wavesAmong b.feed seen = [] := serves.unopened _ closed
  have early := before.unopened closed
  have onward := (after.watches here).2
  simp only [wavesSince, wavesTo, List.flatMap_append, List.flatMap_cons] at unseen early onward ⊢
  rw [unseen, early, onward, quiet, absent]
  rfl

end

end World

end Restock
