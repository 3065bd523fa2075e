import Restock.Proofs.Monitor.RisingEdge

/-! What a monitor still does once its flag is raised.

A raised flag is looked at before a round and during both rests, but not between a
warm-up that succeeds and the check it was for. So a warm-up that is in flight when
the flag is raised may still be followed by a check, and that check by a wave
(`check_after_stop`), and a rest that runs out before the flag is seen by one more
warm-up. Nothing else begins: `stopping_monitor` says what is left of a run, that it
can always be brought to its end by the answers to the calls in flight, and that the
farewell is told once, last of all. -/
namespace Restock.Monitor

/-- A call of the source begins. -/
def Effect.calls : Effect → Bool
  | .warm | .check => true
  | _ => false

/-- An event that ends a story is told. -/
def Effect.parts : Effect → Bool
  | .publish (.monitor _ _ .stop _) => true
  | _ => false

/-- What a monitor tells when it sees that it is stopped. -/
def farewell (id : GroupId) : Effect := .publish (.monitor id .idle .stop Event.noPayload)

/-- A check may follow without another look at the flag. -/
def Phase.opens : Phase → Bool
  | .warming | .backingOff => true
  | _ => false

/-- The number of checks that began on some legs. -/
def begun (w : List (Leg Monitor (Stimulus Signal) Effect)) : Nat := (effectsOf w).count .check

/-! ### What a step begins and tells -/

/-- Effects that begin no call and end no story. -/
def Plain (es : List Effect) : Prop := ∀ e ∈ es, e.calls = false ∧ e.parts = false

section
variable {m n : Monitor} {es : List Effect}

theorem Plain.no_warm (h : Plain es) : .warm ∉ es :=
  fun among => absurd (h _ among).1 (by decide)

theorem Plain.no_check (h : Plain es) : .check ∉ es :=
  fun among => absurd (h _ among).1 (by decide)

theorem plain_announce (m : Monitor) (s : MonitorStatus) {t : EventType} (payload : Json)
    (goes : t ≠ .stop) : Plain (m.announce s t payload).2 := by
  intro e among
  obtain rfl := List.mem_singleton.1 among
  cases t <;> first | exact ⟨rfl, rfl⟩ | exact absurd rfl goes

theorem plain_turn (m : Monitor) (s : MonitorStatus) {t : EventType} (payload : Json)
    (goes : t ≠ .stop) : Plain (m.turn s t payload).2 := by
  rcases turn_eq m s t payload with ⟨h, -⟩ | ⟨h, -⟩ <;> rw [h]
  · intro e among
    simp at among
  · exact plain_announce m s payload goes

theorem plain_sight (m : Monitor) (s : Sighting) : Plain (m.sight s).2 := by
  by_cases h : s.fresh m.reported = []
  · rw [sight_of_stale h]
    exact plain_turn _ _ _ (by decide)
  · rw [sight_of_fresh h]
    intro e among
    rcases List.mem_append.1 among with told | sent
    · exact plain_announce _ _ _ (by decide) e told
    · rcases List.mem_cons.1 sent with rfl | shown
      · exact ⟨rfl, rfl⟩
      · obtain rfl := List.mem_singleton.1 shown
        exact ⟨rfl, rfl⟩

/-- A check that is over begins nothing by itself. -/
theorem plain_finishCheck (m : Monitor) (c : StockCheck) : Plain (m.finishCheck c).2 := by
  cases c with
  | reports r => exact plain_sight m _
  | _ => exact plain_turn _ _ _ (by decide)

/-- A cold source is warmed up before anything else. -/
theorem round_of_cold (cold : m.warmed = false) :
    m.round.1.phase = .warming ∧ m.round.1.warmed = false ∧
      ∃ told, Plain told ∧ m.round.2 = told ++ [.warm] := by
  refine ⟨by rw [phase_round, cold]; rfl, ?_, _, plain_turn m .settingUp Event.noPayload
    (t := .update) (by decide), by simp [round, cold]⟩
  rcases turn_eq m .settingUp .update Event.noPayload with ⟨h, -⟩ | ⟨h, -⟩ <;>
    simp [round, cold, h, enter, announce]

/-- Whoever warms a source up, or rests for another attempt, has a cold one. -/
def Cold (m : Monitor) : Prop := m.phase.opens = true → m.warmed = false

theorem Does.cold {s : Signal} (h : Does m s n es) (cold : Cold m) : Cold n := by
  intro opens
  cases h with
  | begin | stop | warm | crash | rest => simp [enter, Phase.opens] at opens
  | check _ c => by_cases hc : c = .crashed <;> simp [enter, Phase.opens, hc] at opens
  | backOff phase => exact cold (by rw [phase]; rfl)
  | round | retry =>
    cases hw : m.warmed with
    | false => exact (round_of_cold hw).2.1
    | true => simp [phase_round, hw, Phase.opens] at opens

theorem cold_of_take? {i : Stimulus Signal} (cold : Cold m) (h : m.take? i = some (n, es)) :
    Cold n := by
  cases i with
  | stop =>
    obtain ⟨rfl, -⟩ := Prod.mk.inj (Option.some.inj h)
    exact cold
  | signal s => exact (does_of_signal h).cold cold

theorem cold_of_trail {id : GroupId} {g : GroupConfig}
    {w : List (Leg Monitor (Stimulus Signal) Effect)} (h : Trail take? (ofConfig id g) w m) :
    Cold m := by
  induction h with
  | rest => exact fun opens => by simp [ofConfig, Phase.opens] at opens
  | step past taken ih => exact cold_of_take? ih taken

end

/-! ### One step of a stopping monitor -/

/-- What a monitor does that is to stop. Where the flag is not raised it might also
start a round. -/
inductive Fades (m : Monitor) : Stimulus Signal → Monitor → List Effect → Prop
  | stop : Fades m .stop m.stop []
  | begin {n : Monitor} {es : List Effect} (phase : m.phase = .fresh) (next : n.phase = .deciding)
    (plain : Plain es) : Fades m (.signal .begin) n es
  | leave {n : Monitor} (looks : m.phase.looks) (next : n.phase = .stopped) :
    Fades m (.signal .notice) n [farewell m.groupId]
  | warm {n : Monitor} (phase : m.phase = .warming) (next : n.phase = .checking) :
    Fades m (.signal (.warmed .ready)) n [.check]
  | cool {n : Monitor} {result : WarmUp} (phase : m.phase = .warming)
    (next : n.phase = .backingOff ∨ n.phase = .crashed) : Fades m (.signal (.warmed result)) n []
  | check {n : Monitor} {es : List Effect} {result : StockCheck} (phase : m.phase = .checking)
    (next : n.phase = .resting ∨ n.phase = .crashed) (plain : Plain es) :
    Fades m (.signal (.checked result)) n es
  | rest {n : Monitor} (phase : m.phase = .resting) (next : n.phase = .deciding) :
    Fades m (.signal .rested) n []
  | retry {n : Monitor} {told : List Effect} (phase : m.phase = .backingOff)
    (next : n.phase = .warming) (plain : Plain told) :
    Fades m (.signal .rested) n (told ++ [.warm])

section
variable {m n : Monitor} {i : Stimulus Signal} {es : List Effect}

theorem fades_of_take? (flag : m.stopping = true) (cold : Cold m)
    (h : m.take? i = some (n, es)) : Fades m i n es := by
  cases i with
  | stop =>
    obtain ⟨rfl, rfl⟩ := Prod.mk.inj (Option.some.inj h)
    exact .stop
  | signal s =>
    cases does_of_signal h with
    | begin phase => exact .begin phase rfl (plain_announce m _ _ (by decide))
    | stop looks => exact .leave looks rfl
    | round _ down => exact absurd (flag.symm.trans down) (by decide)
    | warm phase => exact .warm phase rfl
    | backOff phase => exact .cool phase (.inl rfl)
    | crash phase => exact .cool phase (.inr rfl)
    | check phase c =>
      refine .check phase ?_ (plain_finishCheck m c)
      by_cases hc : c = .crashed
      · exact .inr (by simp [enter, hc])
      · exact .inl (by simp [enter, hc])
    | rest phase => exact .rest phase rfl
    | retry phase =>
      obtain ⟨next, -, told, plain, hes⟩ := round_of_cold (cold (by rw [phase]; rfl))
      rw [hes]
      exact .retry phase next plain

theorem stopping_of_take? (flag : m.stopping = true) (h : m.take? i = some (n, es)) :
    n.stopping = true := by
  cases i with
  | stop =>
    obtain ⟨rfl, -⟩ := Prod.mk.inj (Option.some.inj h)
    rfl
  | signal s => exact (does_of_signal h).alike.stopping.trans flag

end

/-! ### What a stopping monitor begins -/

section
variable {m n : Monitor} {i : Stimulus Signal} {es : List Effect}

theorem Fades.warms (h : Fades m i n es) (began : .warm ∈ es) :
    i = .signal .rested ∧ m.phase = .backingOff := by
  cases h with
  | retry phase => exact ⟨rfl, phase⟩
  | begin _ _ plain | check _ _ plain => exact absurd began plain.no_warm
  | _ => simp [farewell] at began

theorem Fades.checks (h : Fades m i n es) (began : .check ∈ es) : i = .signal (.warmed .ready) := by
  cases h with
  | warm => rfl
  | begin _ _ plain | check _ _ plain => exact absurd began plain.no_check
  | retry _ _ plain => exact absurd began (by simpa using plain.no_check)
  | _ => simp [farewell] at began

theorem Fades.calm (h : Fades m i n es) (shut : m.phase.opens = false) :
    .warm ∉ es ∧ .check ∉ es := by
  cases h with
  | begin _ _ plain | check _ _ plain => exact ⟨plain.no_warm, plain.no_check⟩
  | warm phase | retry phase => rw [phase] at shut; exact absurd shut (by decide)
  | _ => simp [farewell]

theorem Fades.waits (h : Fades m i n es) (signal : i ≠ .stop) :
    (m.phase = .warming → ∃ result, i = .signal (.warmed result)) ∧
    (m.phase = .checking → ∃ result, i = .signal (.checked result)) := by
  cases h with
  | stop => exact absurd rfl signal
  | warm phase | cool phase => exact ⟨fun _ => ⟨_, rfl⟩, by simp [phase]⟩
  | check phase => exact ⟨by simp [phase], fun _ => ⟨_, rfl⟩⟩
  | begin phase | rest phase | retry phase => simp [phase]
  | leave looks => cases hp : m.phase <;> simp [hp, Phase.looks] at looks ⊢

theorem Fades.answers (h : Fades m i n es) {c : StockCheck} (brings : checkOf? i = some c) :
    i = .signal (.checked c) ∧ m.phase = .checking := by
  cases h with
  | check phase =>
    obtain rfl := Option.some.inj brings
    exact ⟨rfl, phase⟩
  | _ => simp [checkOf?] at brings

/-- A step tells the farewell if it ends the run by the flag, and parts from nobody else. -/
theorem Fades.parting (h : Fades m i n es) (running : m.phase ≠ .stopped) :
    n.phase = .stopped ∧ es = [farewell m.groupId] ∨
      n.phase ≠ .stopped ∧ ∀ e ∈ es, e.parts = false := by
  cases h with
  | leave _ next => exact .inl ⟨next, rfl⟩
  | stop => exact .inr ⟨running, by simp⟩
  | begin _ next plain => exact .inr ⟨by simp [next], fun e among => (plain e among).2⟩
  | warm _ next => exact .inr ⟨by simp [next], by simp [Effect.parts]⟩
  | cool _ next => exact .inr ⟨by rcases next with next | next <;> simp [next], by simp⟩
  | check _ next plain =>
    exact .inr ⟨by rcases next with next | next <;> simp [next], fun e among => (plain e among).2⟩
  | rest _ next => exact .inr ⟨by simp [next], by simp⟩
  | retry _ next plain =>
    refine .inr ⟨by simp [next], fun e among => ?_⟩
    rcases List.mem_append.1 among with told | call
    · exact (plain e told).2
    · rw [List.mem_singleton.1 call]
      rfl

end

/-! ### The calls that are still made -/

/-- The number of checks in flight. -/
def Phase.asks (p : Phase) : Nat := if p = .checking then 1 else 0

/-- Where a run is that was in phase `p` when its flag was raised. Each check that
began, or was in flight then, is answered or still in flight; whoever may still get
from a warm-up to a check has begun none yet. -/
structure Ebbs (p : Phase) (later : List (Leg Monitor (Stimulus Signal) Effect)) (n : Monitor) :
    Prop where
  flag : n.stopping = true
  cold : Cold n
  opens : n.phase.opens = true → p.opens = true ∧ begun later = 0
  balance : begun later + p.asks = (checksOf later).length + n.phase.asks
  once : begun later ≤ if p.opens then 1 else 0

section
variable {p : Phase} {later : List (Leg Monitor (Stimulus Signal) Effect)} {m n : Monitor}
  {i : Stimulus Signal} {es : List Effect}

theorem begun_snoc (l : Leg Monitor (Stimulus Signal) Effect) :
    begun (later ++ [l]) = begun later + l.effects.count .check := by
  simp [begun, List.count_append]

theorem checksOf_snoc (l : Leg Monitor (Stimulus Signal) Effect) :
    checksOf (later ++ [l]) = checksOf later ++ (checkOf? l.input).toList := by
  simp only [checksOf, List.filterMap_append, List.filterMap_cons, List.filterMap_nil]
  cases checkOf? l.input <;> rfl

theorem ebbs_stop (cold : Cold m) : Ebbs m.phase [] m.stop :=
  ⟨rfl, cold, fun opens => ⟨opens, rfl⟩, rfl, Nat.zero_le _⟩

/-- A step that begins no check keeps the account if it answers what it gets. -/
theorem Ebbs.quiet (h : Ebbs p later m) (flag : n.stopping = true) (cold : Cold n)
    (none : Effect.check ∉ es) (back : n.phase.opens = false ∨ m.phase.opens = true)
    (answered : m.phase.asks = (checkOf? i).toList.length + n.phase.asks) :
    Ebbs p (later ++ [⟨m, i, es, n⟩]) n := by
  have same : begun (later ++ [⟨m, i, es, n⟩]) = begun later := by
    rw [begun_snoc, List.count_eq_zero.2 none, Nat.add_zero]
  refine ⟨flag, cold, fun opens => ?_, ?_, ?_⟩
  · rw [same]
    exact h.opens (back.resolve_left (by rw [opens]; decide))
  · rw [same, checksOf_snoc, List.length_append, h.balance, answered, Nat.add_assoc]
  · rw [same]
    exact h.once

theorem Ebbs.step (h : Ebbs p later m) (taken : m.take? i = some (n, es)) :
    Ebbs p (later ++ [⟨m, i, es, n⟩]) n := by
  have flag := stopping_of_take? h.flag taken
  have cold := cold_of_take? h.cold taken
  cases fades_of_take? h.flag h.cold taken with
  | stop => exact h.quiet flag cold (by simp) (Bool.eq_false_or_eq_true _).symm (Nat.zero_add _).symm
  | begin phase next plain =>
    exact h.quiet flag cold plain.no_check (.inl (by rw [next]; rfl)) (by rw [phase, next]; rfl)
  | leave looks next =>
    refine h.quiet flag cold (by simp [farewell]) (.inl (by rw [next]; rfl)) ?_
    rw [next]
    cases hp : m.phase <;> first | rfl | simp [hp, Phase.looks] at looks
  | warm phase next =>
    obtain ⟨early, unbegun⟩ := h.opens (by rw [phase]; rfl)
    have balance := h.balance
    rw [unbegun, phase] at balance
    refine ⟨flag, cold, fun opens => by rw [next] at opens; exact absurd opens (by decide), ?_, ?_⟩
    · rw [begun_snoc, unbegun, checksOf_snoc, next]
      show 0 + 1 + p.asks = (checksOf later ++ []).length + 1
      rw [List.append_nil, Nat.add_right_comm, balance]
      rfl
    · rw [begun_snoc, unbegun, early]
      exact Nat.le_refl 1
  | cool phase next =>
    refine h.quiet flag cold (by simp) (.inr (by rw [phase]; rfl)) ?_
    rcases next with next | next <;> rw [phase, next] <;> rfl
  | check phase next plain =>
    rcases next with next | next <;>
      exact h.quiet flag cold plain.no_check (.inl (by rw [next]; rfl)) (by rw [phase, next]; rfl)
  | rest phase next =>
    exact h.quiet flag cold (by simp) (.inl (by rw [next]; rfl)) (by rw [phase, next]; rfl)
  | retry phase next plain =>
    refine h.quiet flag cold ?_ (.inr (by rw [phase]; rfl)) (by rw [phase, next]; rfl)
    simpa using plain.no_check

theorem ebbs_of_trail {m : Monitor} (cold : Cold m) (h : Trail take? m.stop later n) :
    Ebbs m.phase later n := by
  induction h with
  | rest => exact ebbs_stop cold
  | step past taken ih => exact ih.step taken

end

/-- What a run that was in phase `p` when its flag was raised still asks of its source,
and what it still finds. -/
structure WindsDown (p : Phase) (later : List (Leg Monitor (Stimulus Signal) Effect)) : Prop where
  /-- A warm-up begins only where a rest ran out before the flag was seen. -/
  warms : ∀ m ∈ later, .warm ∈ m.effects →
    m.input = .signal .rested ∧ m.before.phase = .backingOff
  /-- A check begins only where a warm-up has just succeeded. -/
  checks : ∀ m ∈ later, .check ∈ m.effects → m.input = .signal (.warmed .ready)
  /-- Without a warm-up under way no call begins. -/
  calm : p.opens = false → ∀ m ∈ later, .warm ∉ m.effects ∧ .check ∉ m.effects
  once : begun later ≤ 1
  /-- A call that is in flight runs to its end. -/
  waits : ∀ m ∈ later, m.input ≠ .stop →
    (m.before.phase = .warming → ∃ result, m.input = .signal (.warmed result)) ∧
    (m.before.phase = .checking → ∃ result, m.input = .signal (.checked result))
  /-- A wave is what the first answer brings, to a check that was in flight when the flag
  was raised or that began since then. -/
  waves : ∀ past m rest, later = past ++ m :: rest →
    m.effects.filterMap Effect.fed? ≠ [] ∨ m.effects.filterMap Effect.told? ≠ [] →
      (∃ c, m.input = .signal (.checked c)) ∧ checksOf past = [] ∧
        (p = .checking ∧ begun past = 0 ∨ p.opens = true ∧ begun past = 1)

section
variable {later : List (Leg Monitor (Stimulus Signal) Effect)} {m n : Monitor}

/-- At each leg of what is left of a run the account holds, and the monitor fades. -/
theorem fades_of_trail {past rest : List (Leg Monitor (Stimulus Signal) Effect)}
    {x : Leg Monitor (Stimulus Signal) Effect} (cold : Cold m)
    (h : Trail take? m.stop (past ++ x :: rest) n) :
    Ebbs m.phase past x.before ∧ Fades x.before x.input x.after x.effects := by
  obtain ⟨before, taken, -⟩ := h.reach
  have account := ebbs_of_trail cold before
  exact ⟨account, fades_of_take? account.flag account.cold taken⟩

theorem windsDown_of_trail (cold : Cold m) (h : Trail take? m.stop later n) :
    WindsDown m.phase later where
  warms x among began := by
    obtain ⟨past, rest, rfl⟩ := List.append_of_mem among
    exact (fades_of_trail cold h).2.warms began
  checks x among began := by
    obtain ⟨past, rest, rfl⟩ := List.append_of_mem among
    exact (fades_of_trail cold h).2.checks began
  calm shut x among := by
    obtain ⟨past, rest, rfl⟩ := List.append_of_mem among
    obtain ⟨account, fades⟩ := fades_of_trail cold h
    refine fades.calm (Bool.eq_false_iff.2 fun opens => ?_)
    exact absurd (account.opens opens).1 (by rw [shut]; decide)
  once := by
    have once := (ebbs_of_trail cold h).once
    split at once <;> omega
  waits x among signal := by
    obtain ⟨past, rest, rfl⟩ := List.append_of_mem among
    exact (fades_of_trail cold h).2.waits signal
  waves past x rest split found := by
    subst split
    obtain ⟨account, fades⟩ := fades_of_trail cold h
    obtain ⟨-, taken, -⟩ := h.reach
    have brings : ∃ c, checkOf? x.input = some c := by
      cases hi : checkOf? x.input with
      | some c => exact ⟨c, rfl⟩
      | none =>
        obtain ⟨-, fed, told⟩ := quiet_of_take? taken hi
        exact absurd found (by simp [fed, told])
    obtain ⟨c, brings⟩ := brings
    obtain ⟨input, phase⟩ := fades.answers brings
    have balance := account.balance
    have once := account.once
    rw [phase, show Phase.asks .checking = 1 from rfl] at balance
    have answered : (checksOf past).length = 0 ∧
        (m.phase = .checking ∧ begun past = 0 ∨ m.phase.opens = true ∧ begun past = 1) := by
      by_cases asked : m.phase = .checking
      · rw [asked, show Phase.asks .checking = 1 from rfl] at balance
        rw [asked, show Phase.opens .checking = false from rfl] at once
        have none : begun past = 0 := Nat.le_zero.1 once
        exact ⟨by omega, .inl ⟨asked, none⟩⟩
      · -- The check in flight is one that began since.
        rw [show m.phase.asks = 0 from if_neg asked] at balance
        cases opens : m.phase.opens with
        | false => simp [opens] at once; omega
        | true => simp [opens] at once; exact ⟨by omega, .inr ⟨rfl, by omega⟩⟩
    exact ⟨⟨c, input⟩, List.length_eq_zero_iff.1 answered.1, answered.2⟩

/-! ### The farewell -/

/-- Whoever has ended stays so, and tells nothing. -/
theorem silent_of_ended (gone : m.ended = true) (h : Trail take? m later n) :
    n.phase = m.phase ∧ effectsOf later = [] := by
  induction h with
  | rest => exact ⟨rfl, rfl⟩
  | @step w a b i es past taken ih =>
    obtain ⟨same, none⟩ := ih
    cases i with
    | stop =>
      obtain ⟨rfl, rfl⟩ := Prod.mk.inj (Option.some.inj taken)
      exact ⟨same, by rw [effectsOf_append, none]; rfl⟩
    | signal s =>
      have ended : a.ended = true := by rw [ended, same]; exact gone
      exact absurd ended (by rw [(does_of_signal taken).running]; decide)

/-- How a run that goes on when its flag is raised takes leave: with the farewell, last
of all and once, if it ends by the flag, and without one as long as it has not. -/
def TakesLeave (id : GroupId) (later : List (Leg Monitor (Stimulus Signal) Effect)) (n : Monitor) :
    Prop :=
  (n.phase = .stopped ∧ ∃ told, effectsOf later = told ++ [farewell id] ∧
    ∀ e ∈ told, e.parts = false) ∨
  n.phase ≠ .stopped ∧ ∀ e ∈ effectsOf later, e.parts = false

theorem takesLeave_of_trail (cold : Cold m) (running : m.ended = false)
    (h : Trail take? m.stop later n) : TakesLeave m.groupId later n := by
  suffices n.groupId = m.groupId ∧ TakesLeave m.groupId later n from this.2
  induction h with
  | rest =>
    refine ⟨rfl, .inr ⟨fun gone => ?_, by simp [effectsOf]⟩⟩
    rw [ended, show m.phase = .stopped from gone] at running
    exact absurd running (by decide)
  | @step w a b i es past taken ih =>
    obtain ⟨group, leaves⟩ := ih
    refine ⟨(alike_of_take? taken).1.trans group, ?_⟩
    rcases leaves with ⟨gone, told, heard, others⟩ | ⟨on, others⟩
    · have ended : a.ended = true := by rw [ended, gone]; rfl
      obtain ⟨same, none⟩ := silent_of_ended ended (.single taken)
      refine .inl ⟨same.trans gone, told, ?_, others⟩
      rw [effectsOf_append, heard, none, List.append_nil]
    · have account := ebbs_of_trail cold past
      rw [TakesLeave, effectsOf_append, effectsOf_singleton]
      rcases (fades_of_take? account.flag account.cold taken).parting on with
        ⟨next, rfl⟩ | ⟨next, silent⟩
      · exact .inl ⟨next, _, by rw [group], others⟩
      · refine .inr ⟨next, fun e among => ?_⟩
        exact (List.mem_append.1 among).elim (others e) (silent e)

/-! ### The end of the run -/

/-- What it takes to end a run besides the farewell: it begins, and the calls in flight
are answered. -/
def closing (warm : WarmUp) (check : StockCheck) : List (Stimulus Signal) :=
  [.signal .begin, .signal (.warmed warm), .signal (.checked check), .signal .notice]

/-- The run can be ended by these answers. -/
def Ends (warm : WarmUp) (check : StockCheck) (n : Monitor) : Prop :=
  ∃ w u, Trail take? n w u ∧ u.phase = .stopped ∧ ∀ x ∈ w, x.input ∈ closing warm check

variable {warm : WarmUp} {check : StockCheck}

theorem Ends.step {i : Stimulus Signal} {es : List Effect} (taken : m.take? i = some (n, es))
    (among : i ∈ closing warm check) (h : Ends warm check n) : Ends warm check m := by
  obtain ⟨w, u, trail, ended, inputs⟩ := h
  refine ⟨_, u, (Trail.single taken).append trail, ended, fun x hx => ?_⟩
  rcases List.mem_append.1 hx with first | later
  · rw [List.mem_singleton.1 first]
    exact among
  · exact inputs x later

theorem ends_of_looks (looks : m.phase.looks) (flag : m.stopping = true) : Ends warm check m := by
  have taken : m.take? (.signal .notice) =
      some ((m.announce .idle .stop Event.noPayload).1.enter .stopped, [farewell m.groupId]) := by
    cases hp : m.phase <;> simp [hp, Phase.looks] at looks <;>
      simp [take?, next?, hp, flag, announce, farewell]
  exact ⟨_, _, .single taken, rfl, by simp [closing]⟩

theorem ends_of_checking (phase : m.phase = .checking) (flag : m.stopping = true)
    (contained : check ≠ .crashed) : Ends warm check m := by
  have taken : m.take? (.signal (.checked check)) =
      some ((m.finishCheck check).1.enter .resting, (m.finishCheck check).2) := by
    simp [take?, next?, phase, contained]
  exact .step taken (by simp [closing])
    (ends_of_looks rfl ((alike_finishCheck m check).stopping.trans flag))

/-- Whatever its source answers, a run whose flag is raised can be ended by answers alone,
without a rest that has to run out. -/
theorem ends_of_flag (flag : m.stopping = true) (running : m.ended = false)
    (ready : warm ≠ .crashed) (contained : check ≠ .crashed) : Ends warm check m := by
  cases phase : m.phase with
  | fresh =>
    have taken : m.take? (.signal .begin) =
        some ((m.announce .settingUp .start Event.noPayload).1.enter .deciding,
          (m.announce .settingUp .start Event.noPayload).2) := by
      simp only [take?, next?, phase]
    exact .step taken (by simp [closing]) (ends_of_looks rfl flag)
  | deciding | backingOff | resting => exact ends_of_looks (by rw [phase]; rfl) flag
  | warming =>
    have among : Stimulus.signal (.warmed warm) ∈ closing warm check := by simp [closing]
    cases warm with
    | ready =>
      have taken : m.take? (.signal (.warmed .ready)) =
          some ({ m with warmed := true }.enter .checking, [.check]) := by
        simp [take?, next?, phase]
      exact .step taken among (ends_of_checking rfl flag contained)
    | notReady | panicked =>
      have taken : ∀ result, result = .notReady ∨ result = .panicked →
          m.take? (.signal (.warmed result)) = some (m.enter .backingOff, []) := by
        rintro result (rfl | rfl) <;> simp [take?, next?, phase]
      exact .step (taken _ (by simp)) among (ends_of_looks rfl flag)
    | crashed => exact absurd rfl ready
  | checking => exact ends_of_checking phase flag contained
  | stopped | crashed => simp [ended, phase] at running

end

/-- **What a stopped monitor still does.** Whenever its flag is raised, a monitor that runs
begins a warm-up only if a rest between two attempts runs out before the flag is seen, and a
check only, and at most once, after a warm-up that succeeds, so no call at all unless it was
warming up or resting between two attempts. Calls in flight run to their end. It sends a wave
only on the answer to the check that was in flight, or to that one check. It ends with the
farewell as the last and the only one of its kind, and it can always get there. One whose run
was over does nothing any more. -/
theorem stopping_monitor (id : GroupId) (g : GroupConfig)
    {w : List (Leg Monitor (Stimulus Signal) Effect)} {n : Monitor}
    (h : Trail take? (ofConfig id g) w n) :
    ∀ past l later, w = past ++ l :: later → l.input = .stop →
      if l.before.ended then n.phase = l.before.phase ∧ effectsOf later = [] else
        WindsDown l.before.phase later ∧ TakesLeave id later n ∧
          (n.ended = false → ∀ warm check, warm ≠ .crashed → check ≠ .crashed →
            Ends warm check n) := by
  rintro past l later rfl raised
  obtain ⟨before, taken, after⟩ := h.reach
  rw [raised] at taken
  rw [← (Prod.mk.inj (Option.some.inj taken)).1] at after
  have cold := cold_of_trail before
  split
  · next ended => exact silent_of_ended (m := l.before.stop) ended after
  · next on =>
    have running : l.before.ended = false := by simpa using on
    refine ⟨windsDown_of_trail cold after, ?_, fun on warm check ready contained => ?_⟩
    · rw [← (remembers_of_trail before).groupId]
      exact takesLeave_of_trail cold running after
    · exact ends_of_flag (ebbs_of_trail cold after).flag on ready contained

/-- The flag is raised while the first warm-up is in flight; it succeeds, and the check that
follows finds stock. -/
def stopInFlight : List (Leg Monitor (Stimulus Signal) Effect) × Monitor :=
  Trail.follow take? (ofConfig default twoCeilings)
    [.signal .begin, .signal .proceed, .stop, .signal (.warmed .ready),
      .signal (.checked inStock), .signal .notice]

theorem trail_stopInFlight :
    Trail take? (ofConfig default twoCeilings)
      (stopInFlight.1.take 2 ++ stopInFlight.1[2] :: stopInFlight.1.drop 3) stopInFlight.2 := by
  have h := Trail.of_inputs take? (ofConfig default twoCeilings)
    [.signal .begin, .signal .proceed, .stop, .signal (.warmed .ready),
      .signal (.checked inStock), .signal .notice]
  exact h

/-- No check was in flight when the flag was raised, and yet one begins and finds a wave. -/
theorem check_after_stop :
    ∃ past l later n, Trail take? (ofConfig default twoCeilings) (past ++ l :: later) n ∧
      l.input = .stop ∧ l.before.phase = .warming ∧ Effect.check ∉ effectsOf past ∧
      Effect.check ∈ effectsOf later ∧
      (effectsOf later).filterMap Effect.fed? =
        [⟨"demo", default, [⟨"sku", "console", 80, .pickup, none, .null⟩]⟩] ∧
      (effectsOf later).getLast? = some (farewell default) :=
  ⟨_, _, _, _, trail_stopInFlight, rfl, by decide, by decide, by decide, by decide, by decide⟩

theorem stopping_in_flight :
    ∃ past l later n, Trail take? (ofConfig default twoCeilings) (past ++ l :: later) n ∧
      l.input = .stop ∧ l.before.ended = false ∧ WindsDown .warming later ∧
      TakesLeave default later n ∧ n.phase = .stopped ∧ begun later = 1 := by
  have law := stopping_monitor default twoCeilings trail_stopInFlight _ _ _ rfl rfl
  rw [if_neg (by decide)] at law
  exact ⟨_, _, _, _, trail_stopInFlight, rfl, by decide, law.1, law.2.1, by decide, by decide⟩

end Restock.Monitor
