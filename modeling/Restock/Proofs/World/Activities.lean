import Restock.Proofs.World.Feeds

/-! The activities of a world.

Who runs in a world, and with which flag, changes in few ways: whoever acts keeps its
flag, and its run may be over then; a stop raises flags; and new tasks begin with their
flags down (`Active`). Only those who run can act, and no act of theirs says that
everything has closed. What is not an act publishes nothing and calls nobody
(`Hushed`), unless it closes everything. -/
namespace Restock

/-- Who makes a move. -/
def Move.actor : Move → Activity
  | .monitor n _ => .monitor n
  | .task n _ => .task n

/-- An event is published, or a collaborator is called. -/
def Happening.loud : Happening → Bool
  | .published _ | .warming _ | .checking _ | .calling .. => true
  | _ => false

/-- The happening shows somebody at work: it is loud, or a wave goes to a feed. -/
def Happening.busy : Happening → Bool
  | .fed .. => true
  | x => x.loud

/-- Nothing is published, and nobody is called. -/
def Hushed (seen : List Happening) : Prop := ∀ x ∈ seen, x.loud = false

/-- The closing events among the happenings. -/
def closesAmong (seen : List Happening) : List Event := (eventsAmong seen).filter Event.isClose

theorem closesAmong_append (seen more : List Happening) :
    closesAmong (seen ++ more) = closesAmong seen ++ closesAmong more := by
  simp [closesAmong, eventsAmong]

theorem Hushed.append {seen more : List Happening} (h : Hushed seen) (h' : Hushed more) :
    Hushed (seen ++ more) := by
  intro x hx
  rcases List.mem_append.1 hx with hx | hx
  · exact h x hx
  · exact h' x hx

theorem Hushed.closes {seen : List Happening} (h : Hushed seen) : closesAmong seen = [] := by
  have events : eventsAmong seen = [] := by
    apply List.filterMap_eq_nil_iff.2
    intro x hx
    have quiet := h x hx
    cases x with
    | published => contradiction
    | _ => rfl
  rw [closesAmong, events]
  rfl

/-! ### What activities tell -/

/-- The events that a task publishes. -/
def Event.ofTask (t : TaskId) : Event → Bool
  | .auth _ u .. | .task u .. => u = t
  | _ => false

namespace Task

variable {t u : Task} {i : Signal} {es : List Effect}

theorem eventsIn_append (es fs : List Effect) : eventsIn (es ++ fs) = eventsIn es ++ eventsIn fs :=
  List.filterMap_append

theorem voice_announce (t : Task) (s : TaskStatus) (type : EventType) (payload : Json) :
    (eventsIn (t.announce s type payload).2).all (Event.ofTask t.context.taskId) = true := by
  simp [announce, eventsIn, Effect.event?, Event.ofTask]

theorem voice_turn (t : Task) (s : TaskStatus) (type : EventType) (payload : Json) :
    (eventsIn (t.turn s type payload).2).all (Event.ofTask t.context.taskId) = true := by
  unfold turn
  split
  · rfl
  · exact voice_announce ..

theorem voice_halt (t : Task) (h : Halt) :
    (eventsIn (t.halt h).2).all (Event.ofTask t.context.taskId) = true := by
  unfold halt
  split <;> cases h <;>
    simp [close, announce, enter, tellAuth, eventsIn, Effect.event?, Event.ofTask]

theorem voice_crash (t : Task) :
    (eventsIn t.crash.2).all (Event.ofTask t.context.taskId) = true := by
  cases hg : t.guard <;> simp [crash, hg, eventsIn, Effect.event?]

theorem voice_adopt (t : Task) (s : Session) (o : AuthOutcome) :
    (eventsIn (t.adopt s o).2).all (Event.ofTask t.context.taskId) = true := by
  have turns := voice_turn { t with state := { t.state with session := some s } }
    .waitingForMonitor .update Event.noPayload
  exact Bool.and_eq_true_iff.2 ⟨decide_eq_true (p := t.context.taskId = t.context.taskId) rfl, turns⟩

theorem voice_share (t : Task) (s : Session) :
    (eventsIn (t.share s).2).all (Event.ofTask t.context.taskId) = true := by
  have adopts := voice_adopt { t with guard := none } s .loggedIn
  cases hg : t.guard <;> simpa [share, hg, eventsIn, Effect.event?] using adopts

theorem voice_attempt (t : Task) (s : Step) :
    (eventsIn (t.attempt s).2).all (Event.ofTask t.context.taskId) = true := by
  show (eventsIn ((t.turn s.status .update Event.noPayload).2 ++ [.call s])).all _ = true
  rw [eventsIn_append, List.all_append, voice_turn]
  rfl

/-- What the driver may have changed is not who the task is. -/
theorem context_called (t : Task) (s : Step) (state : CheckoutState) :
    (t.called s state).context = t.context := by
  cases s <;> rfl

/-- Tasks tell of themselves and of their accounts. -/
theorem Does.voice (h : Does t i u es) :
    (eventsIn es).all (Event.ofTask t.context.taskId) = true := by
  cases h with
  | wait | claim | elect | stay | advance | rest | receive | ignore => rfl
  | beginGuest | beginMember => simp [tells, eventsIn, Effect.event?, Event.ofTask]
  | complete _ state => exact voice_announce { t with state } ..
  | stop | sessionless | giveUp => exact voice_halt ..
  | yield | abort =>
    rw [← context_called t _ _]
    exact voice_halt ..
  | undecided | crash =>
    rw [← context_called t _ _]
    exact voice_crash _
  | pause =>
    rw [← context_called t _ _]
    exact voice_announce ..
  | adopt | adoptLater => exact voice_adopt ..
  | share => exact voice_share ..
  | attempt => exact voice_attempt ..

end Task

namespace World

/-- The activity runs, and its stop flag is as said. -/
def Active (w : World) (flag : Bool) : Activity → Prop
  | .monitor n => ∃ m, w.monitors.get? n = some m ∧ m.ended = false ∧ m.stopping = flag
  | .task n => ∃ t, w.task? n = some t ∧ t.ended = false ∧ t.stopping = flag

section
variable {w w' : World} {n k : Nat} {seen : List Happening} {flag : Bool} {a : Activity}

theorem running_iff : w.running a = true ↔ ∃ flag, w.Active flag a := by
  cases a with
  | monitor n | task n =>
    simp only [running, Option.any_eq_true, Bool.not_eq_true', Active]
    constructor
    · intro runs
      obtain ⟨x, hx, runs⟩ := runs
      exact ⟨x.stopping, x, hx, runs, rfl⟩
    · intro active
      obtain ⟨flag, x, hx, runs, -⟩ := active
      exact ⟨x, hx, runs⟩

theorem active_congr (monitors : w'.monitors = w.monitors) (buyers : w'.buyers = w.buyers) :
    w'.Active flag a ↔ w.Active flag a := by
  cases a with
  | monitor n => rw [Active, Active, monitors]
  | task n => rw [Active, Active, task?_congr buyers]

/-! ### Acts -/

/-- A monitor acts at its place, and only its own feed gets waves. -/
theorem posts_of_stepMonitor {i : Monitor.Signal} (h : w.stepMonitor n i = some (w', seen)) :
    ∃ m m' es, w.monitors.get? n = some m ∧ m.next? i = some (m', es) ∧
      w'.monitors = w.monitors.put n m' ∧ w'.buyers = w.buyers ∧
      (∀ k, wavesAmong k seen = if n = k then es.filterMap Monitor.Effect.fed? else []) ∧
      eventsAmong seen = Monitor.eventsIn es := by
  obtain ⟨m, hm, h⟩ := Option.bind_eq_some_iff.1 h
  obtain ⟨⟨m', es⟩, acts, h⟩ := Option.bind_eq_some_iff.1 h
  obtain ⟨-, buyers, events⟩ := performMonitor_eq { w with monitors := w.monitors.put n m' } n es
  obtain ⟨-, monitors, -, waves, -⟩ :=
    performMonitor_feeds { w with monitors := w.monitors.put n m' } n es
  refine ⟨m, m', es, hm, acts, ?_⟩
  dsimp only at h
  split at h
  · obtain ⟨rfl, rfl⟩ := Prod.ext_iff.1 (Option.some.inj h)
    refine ⟨monitors, buyers, fun k => ?_, ?_⟩
    · rw [wavesAmong_append, wavesAmong_append, (quiet_leaveFeed _ n).1 k, List.append_nil]
      exact (List.append_nil _).trans (waves k)
    · rw [← events]
      unfold leaveFeed
      dsimp only
      split <;> simp [eventsAmong, Happening.event?]
  · obtain ⟨rfl, rfl⟩ := Prod.ext_iff.1 (Option.some.inj h)
    exact ⟨monitors, buyers, waves, events⟩

/-- A task feeds no feed, and every monitor stays at its place. -/
theorem posts_of_stepTask {m : TaskMove} (h : w.stepTask k m = some (w', seen)) :
    w'.monitors = w.monitors ∧ ∀ n, wavesAmong n seen = [] := by
  obtain ⟨b, -, h⟩ := Option.bind_eq_some_iff.1 h
  obtain ⟨⟨i, p, watch⟩, -, h⟩ := Option.bind_eq_some_iff.1 h
  obtain ⟨⟨u, es⟩, -, h⟩ := Option.bind_eq_some_iff.1 h
  obtain ⟨-, monitors, waves, -⟩ := performTask_feeds
    { w with pool := p, buyers := w.buyers.put k { b with task := u, watch } } k es
  obtain ⟨rfl, rfl⟩ := Prod.ext_iff.1 (Option.some.inj h)
  refine ⟨monitors, fun n => ?_⟩
  dsimp only
  split
  · rw [wavesAmong_append, waves]
    rfl
  · exact waves n

theorem running_of_step? {m : Move} (h : w.step? m = some (w', seen)) :
    w.running m.actor = true := by
  apply running_iff.2
  cases m with
  | monitor n i =>
    obtain ⟨m, m', es, hm, acts, -⟩ := posts_of_stepMonitor h
    exact ⟨m.stopping, m, hm, (Monitor.does_of_next? acts).running, rfl⟩
  | task n m =>
    obtain ⟨t, u, i, es, p, turn⟩ := turn_of_stepTask h
    refine ⟨t.stopping, t, turn.task, Bool.eq_false_iff.2 fun ended => ?_, rfl⟩
    have refused := Task.next?_of_finished ended i
    rw [turn.acts] at refused
    contradiction

/-- Whoever runs after an act has run before it, with the same flag. -/
theorem active_of_step? {m : Move} (h : w.step? m = some (w', seen)) (active : w'.Active flag a) :
    w.Active flag a := by
  have running := running_of_step? h
  cases m with
  | monitor n i =>
    obtain ⟨m, m', es, hm, acts, monitors, buyers, -⟩ := posts_of_stepMonitor h
    cases a with
    | task k => simpa only [Active, task?_congr buyers] using active
    | monitor k =>
      rw [Active, monitors, Table.get?_put] at active
      split at active
      · next same =>
        subst same
        obtain ⟨m₁, sits, -, flagged⟩ := active
        obtain rfl := Option.some.inj sits
        have does := Monitor.does_of_next? acts
        exact ⟨m, hm, does.running, does.alike.stopping.symm.trans flagged⟩
      · exact active
  | task n m =>
    obtain ⟨t, u, i, es, p, turn⟩ := turn_of_stepTask h
    cases a with
    | monitor k => simpa only [Active, (posts_of_stepTask h).1] using active
    | task k =>
      rw [Active, turn.tasks] at active
      split at active
      · next same =>
        subst same
        obtain ⟨t₁, sits, -, flagged⟩ := active
        obtain rfl := Option.some.inj sits
        obtain ⟨-, -, stopping⟩ := (Task.does_of_next? turn.acts).same
        obtain ⟨flag', t', ht, runs, -⟩ := running_iff.1 running
        obtain rfl := Option.some.inj (turn.task.symm.trans ht)
        exact ⟨t, ht, runs, stopping.symm.trans flagged⟩
      · exact active

/-- Nobody who acts says that everything has closed. -/
theorem closes_of_step? {m : Move} (h : w.step? m = some (w', seen)) : closesAmong seen = [] := by
  apply List.filter_eq_nil_iff.2
  intro e he closes
  cases m with
  | monitor n i =>
    obtain ⟨m, m', es, -, acts, -, -, -, events⟩ := posts_of_stepMonitor h
    rw [events] at he
    have own := List.all_eq_true.1 (Monitor.does_of_next? acts).tells e he
    cases e <;> contradiction
  | task n m =>
    obtain ⟨t, u, i, es, p, turn⟩ := turn_of_stepTask h
    rw [turn.events] at he
    have own := List.all_eq_true.1 (Task.does_of_next? turn.acts).voice e he
    cases e <;> contradiction

/-! ### Whose doing it is -/

/-- The happening is the activity's doing: an event of its own, a wave that it feeds, or
a call of its collaborator. -/
inductive Voices (w : World) : Activity → Happening → Prop
  | tells {n : Nat} {m : Monitor} {e : Event} (sits : w.monitors.get? n = some m)
    (own : e.ofMonitor m.groupId = true) : Voices w (.monitor n) (.published e)
  | feeds (n : Nat) (wave : Wave) : Voices w (.monitor n) (.fed n wave)
  | warms (n : Nat) : Voices w (.monitor n) (.warming n)
  | checks (n : Nat) : Voices w (.monitor n) (.checking n)
  | reports {k : Nat} {t : Task} {e : Event} (task : w.task? k = some t)
    (own : e.ofTask t.context.taskId = true) : Voices w (.task k) (.published e)
  | calls (k : Nat) (s : Step) : Voices w (.task k) (.calling k s)

theorem quiet_of_leaveFeed (w : World) (n : Nat) : ∀ x ∈ (w.leaveFeed n).2, x.busy = false := by
  unfold leaveFeed
  dsimp only
  split <;> simp [Happening.busy, Happening.loud]

theorem heard_of_performMonitor (w : World) (n : Nat) (es : List Monitor.Effect) :
    ∀ x ∈ (perform (performMonitor n) w es).2, (∃ e ∈ Monitor.eventsIn es, x = .published e) ∨
      (∃ wave, x = .fed n wave) ∨ x = .warming n ∨ x = .checking n := by
  induction es generalizing w with
  | nil => exact fun x hx => absurd hx List.not_mem_nil
  | cons e es ih =>
    intro x hx
    rcases List.mem_append.1 hx with first | later
    · cases e <;> obtain rfl := List.mem_singleton.1 first
      · exact .inl ⟨_, List.mem_cons_self, rfl⟩
      · exact .inr (.inl ⟨_, rfl⟩)
      · exact .inr (.inr (.inl rfl))
      · exact .inr (.inr (.inr rfl))
    · refine (ih _ x later).imp_left fun told => ?_
      obtain ⟨f, hf, rfl⟩ := told
      refine ⟨f, ?_, rfl⟩
      cases e with
      | publish => exact List.mem_cons_of_mem _ hf
      | feed | warm | check => exact hf

theorem heard_of_performTask (w : World) (k : Nat) (es : List Task.Effect) :
    ∀ x ∈ (perform (performTask k) w es).2, (∃ e ∈ Task.eventsIn es, x = .published e) ∨
      (∃ s, x = .calling k s) ∨ x = .poolChanged := by
  induction es generalizing w with
  | nil => exact fun x hx => absurd hx List.not_mem_nil
  | cons e es ih =>
    intro x hx
    rcases List.mem_append.1 hx with first | later
    · cases e with
      | publish e => exact .inl ⟨e, List.mem_cons_self, List.mem_singleton.1 first⟩
      | call s => exact .inr (.inl ⟨s, List.mem_singleton.1 first⟩)
      | finish g session =>
        have first : x ∈ if (w.pool.finish g session).2 then [Happening.poolChanged] else [] := first
        split at first
        · exact .inr (.inr (List.mem_singleton.1 first))
        · contradiction
    · refine (ih _ x later).imp_left fun told => ?_
      obtain ⟨f, hf, rfl⟩ := told
      refine ⟨f, ?_, rfl⟩
      cases e with
      | publish => exact List.mem_cons_of_mem _ hf
      | finish | call => exact hf

/-- Whatever a step shows of somebody's work is the doing of the one who acts. -/
theorem voices_of_step? {m : Move} (h : w.step? m = some (w', seen)) :
    ∀ x ∈ seen, x.busy = true → w.Voices m.actor x := by
  intro x hx busy
  cases m with
  | monitor n i =>
    obtain ⟨m, hm, h⟩ := Option.bind_eq_some_iff.1 h
    obtain ⟨⟨m', es⟩, acts, h⟩ := Option.bind_eq_some_iff.1 h
    have tells := (Monitor.does_of_next? acts).tells
    have told : ∀ x ∈ (perform (performMonitor n) { w with monitors := w.monitors.put n m' } es).2,
        w.Voices (.monitor n) x := by
      intro x hx
      rcases heard_of_performMonitor _ n es x hx with ⟨e, he, rfl⟩ | ⟨wave, rfl⟩ | rfl | rfl
      · exact .tells hm (List.all_eq_true.1 tells e he)
      · exact .feeds n wave
      · exact .warms n
      · exact .checks n
    dsimp only at h
    split at h
    · obtain ⟨-, rfl⟩ := Prod.ext_iff.1 (Option.some.inj h)
      rcases List.mem_append.1 hx with hx | hx
      · rcases List.mem_append.1 hx with hx | hx
        · exact told x hx
        · rw [quiet_of_leaveFeed _ _ x hx] at busy
          contradiction
      · rw [List.mem_singleton.1 hx] at busy
        contradiction
    · obtain ⟨-, rfl⟩ := Prod.ext_iff.1 (Option.some.inj h)
      exact told x hx
  | task k m =>
    obtain ⟨b, hb, h⟩ := Option.bind_eq_some_iff.1 h
    obtain ⟨⟨i, p, watch⟩, -, h⟩ := Option.bind_eq_some_iff.1 h
    obtain ⟨⟨u, es⟩, acts, h⟩ := Option.bind_eq_some_iff.1 h
    have voice := (Task.does_of_next? acts).voice
    have told : ∀ x ∈ (perform (performTask k)
        { w with pool := p, buyers := w.buyers.put k { b with task := u, watch } } es).2,
        x.busy = true → w.Voices (.task k) x := by
      intro x hx busy
      rcases heard_of_performTask _ k es x hx with ⟨e, he, rfl⟩ | ⟨s, rfl⟩ | rfl
      · exact .reports (by rw [task?, hb]; rfl) (List.all_eq_true.1 voice e he)
      · exact .calls k s
      · contradiction
    obtain ⟨-, rfl⟩ := Prod.ext_iff.1 (Option.some.inj h)
    dsimp only at hx
    split at hx
    · rcases List.mem_append.1 hx with hx | hx
      · exact told x hx busy
      · rw [List.mem_singleton.1 hx] at busy
        contradiction
    · exact told x hx busy

theorem Voices.busy {x : Happening} (h : w.Voices a x) : x.busy = true := by
  cases h <;> rfl

/-- What is one's doing is not another's, if monitors and tasks go by different ids. -/
theorem Voices.alone {b : Activity} {x : Happening} (h : w.Voices a x) (h' : w.Voices b x)
    (monitors : ∀ {m n x y}, w.monitors.get? m = some x → w.monitors.get? n = some y →
      x.groupId = y.groupId → m = n)
    (tasks : ∀ {m n t u}, w.task? m = some t → w.task? n = some u →
      t.context.taskId = u.context.taskId → m = n) : a = b := by
  cases h with
  | feeds | warms | checks | calls => cases h'; rfl
  | @tells n m e sits own =>
    cases h' with
    | tells sits' own' =>
      rw [monitors sits sits']
      cases e <;> simp_all [Event.ofMonitor]
    | reports _ own' => cases e <;> simp_all [Event.ofMonitor, Event.ofTask]
  | @reports k t e task own =>
    cases h' with
    | tells _ own' => cases e <;> simp_all [Event.ofMonitor, Event.ofTask]
    | reports task' own' =>
      rw [tasks task task']
      cases e <;> simp_all [Event.ofTask]

/-! ### Stops and newcomers -/

/-- A stop ends no run. -/
theorem active_stop {as : List Activity} (active : (w.stop as).1.Active flag a) :
    (a ∈ as ∧ flag = true ∧ ∃ before, w.Active before a) ∨ (a ∉ as ∧ w.Active flag a) := by
  cases a with
  | monitor n =>
    rw [Active, (w.raised_stop as).monitors] at active
    split at active
    · next reached =>
      obtain ⟨m, sits, runs, rfl⟩ := active
      obtain ⟨m, hm, rfl⟩ := Option.map_eq_some_iff.1 sits
      exact .inl ⟨reached, rfl, m.stopping, m, hm, runs, rfl⟩
    · next spared => exact .inr ⟨spared, active⟩
  | task n =>
    rw [Active, (w.raised_stop as).tasks] at active
    split at active
    · next reached =>
      obtain ⟨t, sits, runs, rfl⟩ := active
      obtain ⟨t, ht, rfl⟩ := Option.map_eq_some_iff.1 sits
      exact .inl ⟨reached, rfl, t.stopping, t, ht, runs, rfl⟩
    · next spared => exact .inr ⟨spared, active⟩

/-- The flag of a new task is down. -/
theorem Grows.active (h : Grows w w') (active : w'.Active true (.task k)) :
    w.Active true (.task k) := by
  obtain ⟨t, ht, runs, flagged⟩ := active
  obtain ⟨b, hb, rfl⟩ := Option.map_eq_some_iff.1 ht
  rcases h.buyers k with same | ⟨-, c, d, n, f, -, joined⟩
  · exact ⟨b.task, by rw [task?, ← same, hb]; rfl, runs, flagged⟩
  · obtain rfl := Option.some.inj (hb.symm.trans joined)
    contradiction

theorem hushed_leaveFeed (w : World) (n : Nat) : Hushed (w.leaveFeed n).2 := by
  unfold leaveFeed
  dsimp only
  split <;> simp [Hushed, Happening.loud]

theorem hushed_withPool (w : World) (p : Pool) (changed : Bool) :
    Hushed (w.withPool p changed).2 := by
  cases changed <;> simp [Hushed, withPool, Happening.loud]

end

end World

end Restock
