import Mathlib.Data.List.Chain
import Restock.Proofs.Monitor.Stopping
import Restock.Proofs.World.Tasks

/-! The statuses of a monitor.

What a monitor publishes is a log of its statuses: it opens with the start, every
status follows one that it may come after, a wave comes right after the status that
announces it, and the farewell is the last event (`Log`). A monitor keeps its log since
its status fits its phase (`Fits`): a failed check leaves a cold source behind, which
is set up again before the next check, so each failure is told, and once. -/
namespace Restock

/-- The statuses that may come next. -/
def MonitorStatus.successors : MonitorStatus → List MonitorStatus
  | .idle => []
  | .settingUp => [.searching, .outOfStock, .sendingToTasks, .error, .idle]
  | .searching => [.outOfStock, .sendingToTasks, .error, .idle]
  | .outOfStock => [.searching, .sendingToTasks, .error, .idle]
  | .sendingToTasks => [.sendingToTasks, .searching, .outOfStock, .error, .idle]
  | .error => [.settingUp, .idle]

namespace Event

/-- The status of a monitor that an event tells. -/
def status? : Event → Option MonitorStatus
  | .monitor _ s _ _ => some s
  | _ => none

def isFail : Event → Bool
  | .monitor _ _ .fail _ => true
  | _ => false

end Event

/-- Why a check failed, if it did. -/
def StockCheck.failure? : StockCheck → Option String
  | .reports _ => none
  | .failed e => some e.message
  | .panicked | .crashed => some "stock check panicked"

namespace Monitor

/-- The events that a monitor published on some legs. -/
def published (w : List (Leg Monitor (Stimulus Signal) Effect)) : List Event :=
  eventsIn (effectsOf w)

/-- The statuses that it told, in their order. -/
def statusesOf (w : List (Leg Monitor (Stimulus Signal) Effect)) : List MonitorStatus :=
  (published w).filterMap Event.status?

/-- The event that tells of a failed check. -/
def failed (id : GroupId) (reason : String) : Event :=
  .monitor id .error .fail (.ofMembers [("reason", .string reason)])

/-- The event that announces a wave. -/
def sending (id : GroupId) (v : Wave) : Event :=
  .monitor id .sendingToTasks .update
    (.ofMembers [("targets", .array (v.targetIds.map Json.string))])

/-! ### Logs -/

/-- The events of a monitor up to its last status, and the wave that is still to come after it. -/
inductive Log (id : GroupId) : MonitorStatus → Option Wave → List Event → Prop
  | start : Log id .settingUp none [.monitor id .settingUp .start Event.noPayload]
  | update {s s' : MonitorStatus} {es : List Event} (past : Log id s none es)
    (next : s' ∈ s.successors) (quiet : s' ∉ [.sendingToTasks, .error, .idle]) :
    Log id s' none (es ++ [.monitor id s' .update Event.noPayload])
  | fail {s : MonitorStatus} {es : List Event} (past : Log id s none es)
    (next : .error ∈ s.successors) (reason : String) :
    Log id .error none (es ++ [failed id reason])
  | announce {s : MonitorStatus} {es : List Event} (past : Log id s none es)
    (next : .sendingToTasks ∈ s.successors) {v : Wave} (group : v.groupId = id)
    (full : v.products ≠ []) : Log id .sendingToTasks (some v) (es ++ [sending id v])
  | send {v : Wave} {es : List Event} (past : Log id .sendingToTasks (some v) es) :
    Log id .sendingToTasks none (es ++ [.product v])
  | part {s : MonitorStatus} {es : List Event} (past : Log id s none es)
    (next : .idle ∈ s.successors) :
    Log id .idle none (es ++ [.monitor id .idle .stop Event.noPayload])

section
variable {id g : GroupId} {s s' : MonitorStatus} {due : Option Wave} {es past later : List Event}
  {e : Event} {t : EventType} {payload : Json} {v : Wave}

theorem Log.head (h : Log id s due es) :
    es.head? = some (.monitor id .settingUp .start Event.noPayload) := by
  induction h with
  | start => rfl
  | update past _ _ ih | fail past _ _ ih | announce past _ _ _ ih | send past ih
  | part past _ ih =>
    rw [List.head?_append, ih]
    rfl

/-- One more status that may come next. -/
theorem isChain_snoc {es : List MonitorStatus}
    (h : es.IsChain (fun s s' => s' ∈ s.successors) ∧ es.getLast? = some s)
    (next : s' ∈ s.successors) :
    (es ++ [s']).IsChain (fun s s' => s' ∈ s.successors) ∧ (es ++ [s']).getLast? = some s' := by
  refine ⟨List.isChain_append.2 ⟨h.1, .singleton _, fun x last y first => ?_⟩,
    List.getLast?_concat⟩
  rw [h.2] at last
  cases last
  cases first
  exact next

/-- Every status comes after one that it may follow, and the last one is the monitor's. -/
theorem Log.statuses (h : Log id s due es) :
    (es.filterMap Event.status?).IsChain (fun s s' => s' ∈ s.successors) ∧
      (es.filterMap Event.status?).getLast? = some s := by
  induction h with
  | start => exact ⟨.singleton _, rfl⟩
  | update _ next _ ih | fail _ next _ ih | announce _ next _ _ ih | part _ next ih =>
    rw [List.filterMap_append]
    exact isChain_snoc ih next
  | send _ ih =>
    rw [List.filterMap_append]
    exact (List.append_nil _).symm ▸ ih

/-- Each event is a status, whose type goes with it, or a wave. -/
theorem Log.kinds (h : Log id s due es) (among : e ∈ es) :
    (∃ s t p, e = .monitor id s t p ∧ (t = .fail ↔ s = .error) ∧ (t = .stop ↔ s = .idle)) ∨
      ∃ v, e = .product v := by
  induction h with
  | start =>
    obtain rfl := List.mem_singleton.1 among
    exact .inl ⟨_, _, _, rfl, by decide, by decide⟩
  | update _ _ quiet ih =>
    rcases List.mem_append.1 among with before | new
    · exact ih before
    · obtain rfl := List.mem_singleton.1 new
      simp only [List.mem_cons, List.not_mem_nil, or_false, not_or] at quiet
      exact .inl ⟨_, _, _, rfl, by simp [quiet], by simp [quiet]⟩
  | fail _ _ _ ih | announce _ _ _ _ ih | part _ _ ih =>
    rcases List.mem_append.1 among with before | new
    · exact ih before
    · obtain rfl := List.mem_singleton.1 new
      exact .inl ⟨_, _, _, rfl, by decide, by decide⟩
  | send _ ih =>
    rcases List.mem_append.1 among with before | new
    · exact ih before
    · exact .inr ⟨_, List.mem_singleton.1 new⟩

/-- Nothing follows the farewell. -/
theorem Log.idle_last (h : Log id s due es) (split : es = past ++ e :: later)
    (idle : e.status? = some .idle) : later = [] ∧ s = .idle := by
  induction h generalizing later with
  | start =>
    rcases split_snoc (h := []) split with ⟨-, rfl, -⟩ | ⟨rest, -, none⟩
    · exact absurd idle (by simp [Event.status?])
    · simp at none
  | update _ next quiet ih =>
    rcases split_snoc split with ⟨-, rfl, rfl⟩ | ⟨rest, -, before⟩
    · exact ⟨rfl, Option.some.inj idle⟩
    · rw [(ih before).2] at next
      exact absurd next List.not_mem_nil
  | fail _ next _ ih | announce _ next _ _ ih | part _ next ih =>
    rcases split_snoc split with ⟨-, rfl, rfl⟩ | ⟨rest, -, before⟩
    · exact ⟨rfl, Option.some.inj idle⟩
    · rw [(ih before).2] at next
      exact absurd next List.not_mem_nil
  | send _ ih =>
    rcases split_snoc split with ⟨-, rfl, rfl⟩ | ⟨rest, -, before⟩
    · simp [Event.status?] at idle
    · exact absurd (ih before).2 (by decide)

/-- A wave is due just after it was announced. -/
theorem Log.pending (h : Log id s (some v) es) :
    ∃ before, es = before ++ [sending id v] ∧ v.groupId = id ∧ v.products ≠ [] := by
  cases h with
  | announce past _ group full => exact ⟨_, rfl, group, full⟩

/-- A wave comes right after the status that announces it, and only there. -/
theorem Log.announced (h : Log id s due es) (split : es = past ++ .product v :: later) :
    ∃ before, past = before ++ [sending id v] ∧ v.groupId = id ∧ v.products ≠ [] := by
  induction h generalizing later with
  | start =>
    rcases split_snoc (h := []) split with ⟨-, other, -⟩ | ⟨rest, -, none⟩
    · exact absurd other (by simp)
    · simp at none
  | update _ _ _ ih | fail _ _ _ ih | announce _ _ _ _ ih | part _ _ ih =>
    rcases split_snoc split with ⟨-, other, -⟩ | ⟨rest, -, before⟩
    · exact absurd other (by simp [failed, sending])
    · exact ih before
  | send log ih =>
    rcases split_snoc split with ⟨rfl, same, -⟩ | ⟨rest, -, before⟩
    · obtain rfl := Event.product.inj same
      exact log.pending
    · exact ih before

/-- The status that sends a wave is followed by that wave, and by no other. -/
theorem Log.sends (h : Log id s due es)
    (split : es = past ++ .monitor g .sendingToTasks t payload :: later) :
    ∃ v, .monitor g .sendingToTasks t payload = sending id v ∧ v.groupId = id ∧
      v.products ≠ [] ∧ ((∃ rest, later = .product v :: rest) ∨ due = some v ∧ later = []) := by
  induction h generalizing later with
  | start =>
    rcases split_snoc (h := []) split with ⟨-, other, -⟩ | ⟨rest, -, none⟩
    · exact absurd other (by simp)
    · simp at none
  | update past' next quiet ih =>
    rcases split_snoc split with ⟨-, same, -⟩ | ⟨rest, rfl, before⟩
    · simp only [Event.monitor.injEq] at same
      exact absurd same.2.1 fun sends => quiet (by simp [sends])
    · obtain ⟨v, told, group, full, ⟨more, rfl⟩ | ⟨⟨⟩, -⟩⟩ := ih before
      exact ⟨v, told, group, full, .inl ⟨_, rfl⟩⟩
  | fail _ _ _ ih | part _ _ ih =>
    rcases split_snoc split with ⟨-, other, -⟩ | ⟨rest, rfl, before⟩
    · exact absurd other (by simp [failed])
    · obtain ⟨v, told, group, full, ⟨more, rfl⟩ | ⟨⟨⟩, -⟩⟩ := ih before
      exact ⟨v, told, group, full, .inl ⟨_, rfl⟩⟩
  | @announce s es log next v group full ih =>
    rcases split_snoc split with ⟨-, same, rfl⟩ | ⟨rest, rfl, before⟩
    · exact ⟨v, same.symm, group, full, .inr ⟨rfl, rfl⟩⟩
    · obtain ⟨v, told, group, full, ⟨more, rfl⟩ | ⟨⟨⟩, -⟩⟩ := ih before
      exact ⟨v, told, group, full, .inl ⟨_, rfl⟩⟩
  | @send v es log ih =>
    rcases split_snoc split with ⟨-, other, -⟩ | ⟨rest, rfl, before⟩
    · exact absurd other (by simp)
    · obtain ⟨v', told, group, full, ⟨more, rfl⟩ | ⟨due, rfl⟩⟩ := ih before
      · exact ⟨v', told, group, full, .inl ⟨_, rfl⟩⟩
      · obtain rfl := Option.some.inj due
        exact ⟨v, told, group, full, .inl ⟨[], rfl⟩⟩

end

/-! ### Statuses and phases -/

/-- The status of a monitor that has begun fits its phase. -/
structure Fits (m : Monitor) : Prop where
  begun : m.phase ≠ .fresh
  /-- A source is cold at the start and after an error. -/
  cold : m.warmed = false → m.phase ≠ .stopped → m.status = .settingUp ∨ m.status = .error
  warm : m.warmed = true → m.status ≠ .error
  opens : m.phase.opens = true → m.status = .settingUp ∧ m.warmed = false
  checking : m.phase = .checking → m.warmed = true
  idle : m.status = .idle ↔ m.phase = .stopped

section
variable {id : GroupId} {g : GroupConfig} {m n : Monitor} {i : Signal} {es past : List Event}
  {told : List Effect} {s : MonitorStatus} {payload : Json} {c : StockCheck}
  {w : List (Leg Monitor (Stimulus Signal) Effect)}

/-- From a status that is neither an error nor the farewell a monitor may take on any status
but the setting up, and not the same again but to send. -/
theorem mem_successors {s' : MonitorStatus} (fine : s ≠ .error) (on : s ≠ .idle)
    (up : s' ≠ .settingUp) (new : s' = .sendingToTasks ∨ s' ≠ s) : s' ∈ s.successors := by
  cases s <;> cases s' <;> simp_all [MonitorStatus.successors]

theorem Log.turn (log : Log id m.status none past) (group : m.groupId = id)
    (next : m.status ≠ s → s ∈ m.status.successors)
    (quiet : s ∉ [.sendingToTasks, .error, .idle]) :
    Log id (m.turn s .update Event.noPayload).1.status none
      (past ++ eventsIn (m.turn s .update Event.noPayload).2) := by
  subst group
  rcases turn_eq m s .update Event.noPayload with ⟨h, -⟩ | ⟨h, other⟩ <;> rw [h]
  · exact (List.append_nil past).symm ▸ log
  · exact log.update (next other) quiet

theorem status_turn (m : Monitor) (s : MonitorStatus) (t : EventType) (payload : Json) :
    (m.turn s t payload).1.status = s := by
  rcases turn_eq m s t payload with ⟨h, same⟩ | ⟨h, -⟩ <;> rw [h]
  · exact same
  · rfl

theorem warmed_turn (m : Monitor) (s : MonitorStatus) (t : EventType) (payload : Json) :
    (m.turn s t payload).1.warmed = m.warmed := by
  rcases turn_eq m s t payload with ⟨h, -⟩ | ⟨h, -⟩ <;> rw [h]
  rfl

theorem events_send (m : Monitor) (products : List Product) :
    eventsIn (m.send products).2 =
      [sending m.groupId (m.waveOf products), .product (m.waveOf products)] := by
  simp [send, announce, eventsIn, Effect.event?, sending, waveOf, Wave.targetIds]
  exact ⟨rfl, rfl⟩

/-- The next call of the source is told of only if the source has to be set up again. -/
theorem Log.round (log : Log id m.status none past) (group : m.groupId = id) (fits : Fits m)
    (on : m.phase ≠ .stopped) : Log id m.round.1.status none (past ++ eventsIn m.round.2) := by
  unfold Monitor.round
  split
  · exact (List.append_nil past).symm ▸ log
  · next cold =>
    have fault := fits.cold (by simpa using cold) on
    have told := log.turn (s := .settingUp) group (fun other => ?_) (by decide)
    · rw [eventsIn_append]
      exact (List.append_nil (eventsIn _)).symm ▸ told
    · rw [fault.resolve_left other]
      decide

/-- A check of a warm source adds to the log what it shows. -/
theorem Log.finishCheck (log : Log id m.status none past) (group : m.groupId = id)
    (fine : m.status ≠ .error) (on : m.status ≠ .idle) (c : StockCheck) :
    Log id (m.finishCheck c).1.status none (past ++ eventsIn (m.finishCheck c).2) := by
  subst group
  have error : .error ∈ m.status.successors :=
    mem_successors fine on (by decide) (.inr (Ne.symm fine))
  cases c with
  | reports r =>
    rw [Monitor.finishCheck]
    by_cases h : (Sighting.ofReports m.targets r).fresh m.reported = []
    · rw [sight_of_stale h]
      refine Log.turn (m := m.remember _) log rfl (fun other => ?_) ?_
      · refine mem_successors fine on ?_ (.inr (Ne.symm other))
        split <;> decide
      · split <;> decide
    · rw [sight_of_fresh h]
      have sends : .sendingToTasks ∈ m.status.successors :=
        mem_successors fine on (by decide) (.inl rfl)
      have sent := (log.announce (v := m.waveOf _) sends rfl h).send
      rw [events_send]
      rwa [List.append_assoc] at sent
  | failed | panicked | crashed =>
    rw [Monitor.finishCheck, Monitor.fail, Monitor.turn, if_neg fine]
    exact log.fail error _

theorem warmed_finishCheck (m : Monitor) (c : StockCheck) :
    (m.finishCheck c).1.warmed = (m.warmed && c.failure?.isNone) := by
  cases c with
  | reports r =>
    rw [finishCheck]
    by_cases h : (Sighting.ofReports m.targets r).fresh m.reported = []
    · rw [sight_of_stale h, warmed_turn]
      exact (Bool.and_true _).symm
    · rw [sight_of_fresh h]
      exact (Bool.and_true _).symm
  | failed | panicked | crashed =>
    rw [finishCheck, fail, warmed_turn]
    exact (Bool.and_false _).symm

/-- A failed check leaves an error behind, and no other does. -/
theorem status_finishCheck (m : Monitor) (c : StockCheck) :
    (m.finishCheck c).1.status ≠ .idle ∧
      ((m.finishCheck c).1.status = .error ↔ c.failure?.isSome = true) := by
  cases c with
  | reports r =>
    rw [finishCheck]
    by_cases h : (Sighting.ofReports m.targets r).fresh m.reported = []
    · rw [sight_of_stale h, status_turn]
      split <;> simp [StockCheck.failure?]
    · rw [sight_of_fresh h]
      simp [send, announce, StockCheck.failure?]
  | failed | panicked | crashed =>
    rw [finishCheck, fail, status_turn]
    simp [StockCheck.failure?]

/-! ### One step -/

theorem fits_begun (m : Monitor) (cold : m.warmed = false) :
    Fits ((m.announce .settingUp .start Event.noPayload).1.enter .deciding) := by
  refine ⟨by rintro ⟨⟩, fun _ _ => .inl rfl, fun warm => ?_, by rintro ⟨⟩, by rintro ⟨⟩, ?_⟩
  · exact absurd (warm.symm.trans cold) (by decide)
  · exact ⟨by rintro ⟨⟩, by rintro ⟨⟩⟩

theorem Fits.round (h : Fits m) (on : m.phase ≠ .stopped) : Fits m.round.1 := by
  cases warm : m.warmed with
  | true =>
    have same : m.round.1 = m.enter .checking := by simp [Monitor.round, warm]
    rw [same]
    refine ⟨by rintro ⟨⟩, fun cold => absurd (warm.symm.trans cold) (by decide),
      fun _ => h.warm warm, by rintro ⟨⟩, fun _ => warm, ?_⟩
    exact ⟨fun idle => absurd (h.idle.1 idle) on, by rintro ⟨⟩⟩
  | false =>
    have cold : m.round.1.warmed = false := (round_of_cold warm).2.1
    have status : m.round.1.status = .settingUp := by
      simp [Monitor.round, warm, enter, status_turn]
    have phase : m.round.1.phase = .warming := (round_of_cold warm).1
    refine ⟨by simp [phase], fun _ _ => .inl status, fun warm => ?_, fun _ => ⟨status, cold⟩, ?_, ?_⟩
    · exact absurd (warm.symm.trans cold) (by decide)
    · simp [phase]
    · simp [phase, status]

theorem Does.fits (h : Does m i n told) (fits : Fits m) : Fits n := by
  cases h with
  | begin phase => exact absurd phase fits.begun
  | stop =>
    exact ⟨by rintro ⟨⟩, fun _ on => absurd rfl on, fun _ => by rintro ⟨⟩, by rintro ⟨⟩, by rintro ⟨⟩,
        ⟨fun _ => rfl, fun _ => rfl⟩⟩
  | round phase | retry phase => exact fits.round (by simp [phase])
  | warm phase =>
    obtain ⟨status, -⟩ := fits.opens (by rw [phase]; rfl)
    refine ⟨by rintro ⟨⟩, by rintro ⟨⟩, fun _ => ?_, by rintro ⟨⟩, fun _ => rfl, ?_⟩
    · simp [enter, status]
    · simp [enter, status]
  | backOff phase =>
    obtain ⟨status, cold⟩ := fits.opens (by rw [phase]; rfl)
    refine ⟨by rintro ⟨⟩, fun _ _ => .inl status, fits.warm, fun _ => ⟨status, cold⟩,
      by rintro ⟨⟩, ?_⟩
    simp [enter, status]
  | crash phase =>
    obtain ⟨status, cold⟩ := fits.opens (by rw [phase]; rfl)
    refine ⟨by rintro ⟨⟩, fun _ _ => .inl status, fits.warm, by rintro ⟨⟩, by rintro ⟨⟩, ?_⟩
    simp [enter, status]
  | check phase c =>
    have warm := fits.checking phase
    obtain ⟨on, error⟩ := status_finishCheck m c
    have warmed := warmed_finishCheck m c
    rw [warm, Bool.true_and] at warmed
    have next : ∀ p : Phase, p ≠ .fresh → p.opens = false → p ≠ .checking → p ≠ .stopped →
        Fits ((m.finishCheck c).1.enter p) := by
      intro p begun shut quiet running
      refine ⟨begun, fun cold _ => .inr (error.2 ?_), fun warm failed => ?_, fun opens => ?_,
        fun checking => absurd checking quiet, fun idle => absurd idle on,
        fun stopped => absurd stopped running⟩
      · rw [← Option.isNone_eq_false_iff, ← warmed]
        exact cold
      · have sound : c.failure?.isNone = true := warmed ▸ warm
        rw [Option.isNone_iff_eq_none] at sound
        exact absurd (error.1 failed) (by simp [sound])
      · exact absurd (shut.symm.trans opens) (by decide)
    split <;> exact next _ (by decide) rfl (by decide) (by decide)
  | rest phase =>
    refine ⟨by rintro ⟨⟩, fun cold _ => fits.cold cold (by simp [phase]), fits.warm, by rintro ⟨⟩,
      by rintro ⟨⟩, ?_⟩
    rw [show (m.enter .deciding).status = m.status from rfl, fits.idle, phase]
    exact ⟨by rintro ⟨⟩, by rintro ⟨⟩⟩

/-- A step of a monitor that has begun goes on with its log. -/
theorem Does.logs (h : Does m i n told) (fits : Fits m) (group : m.groupId = id)
    (log : Log id m.status none past) : Log id n.status none (past ++ eventsIn told) := by
  cases h with
  | begin phase => exact absurd phase fits.begun
  | stop looks =>
    have on : m.status ≠ .idle := by
      intro idle
      rw [fits.idle.1 idle] at looks
      simp [Phase.looks] at looks
    subst group
    refine log.part ?_
    cases hs : m.status <;> first | exact absurd hs on | decide
  | round phase | retry phase => exact log.round group fits (by simp [phase])
  | warm | backOff | crash | rest => exact (List.append_nil past).symm ▸ log
  | check phase c =>
    refine log.finishCheck group (fits.warm (fits.checking phase)) (fun idle => ?_) c
    exact absurd (phase.symm.trans (fits.idle.1 idle)) (by decide)

/-- What tells of a failure is told for a check that failed. -/
theorem Does.fails (h : Does m i n told) (fits : m.phase ≠ .fresh → Fits m) :
    (eventsIn told).filter Event.isFail =
      ((checkOf? (.signal i)).bind StockCheck.failure?).toList.map (failed m.groupId) := by
  have turn : ∀ (m : Monitor) s, ((eventsIn (m.turn s .update Event.noPayload).2).filter
      Event.isFail) = [] := by
    intro m s
    rcases turn_eq m s .update Event.noPayload with ⟨h, -⟩ | ⟨h, -⟩ <;> rw [h] <;> rfl
  have round : (eventsIn m.round.2).filter Event.isFail = [] := by
    unfold Monitor.round
    split
    · rfl
    · rw [eventsIn_append, List.filter_append, turn]
      rfl
  cases h with
  | begin | stop | warm | backOff | crash | rest => rfl
  | round | retry => exact round
  | check phase c =>
    have fine := (fits (by simp [phase])).warm ((fits (by simp [phase])).checking phase)
    cases c with
    | reports r =>
      rw [finishCheck]
      by_cases h : (Sighting.ofReports m.targets r).fresh m.reported = []
      · rw [sight_of_stale h]
        exact turn _ _
      · rw [sight_of_fresh h, events_send]
        rfl
    | failed | panicked | crashed =>
      rw [finishCheck, Monitor.fail, Monitor.turn, if_neg fine]
      rfl

theorem warmed_round (m : Monitor) : m.round.1.warmed = m.warmed := by
  unfold Monitor.round
  split
  · rfl
  · exact warmed_turn m _ _ _

/-- A source is warm after a warm-up that succeeds, and stays so if no check fails. -/
theorem Does.warms (h : Does m i n told) (warm : n.warmed = true) : i = .warmed .ready ∨
    m.warmed = true ∧ (checkOf? (.signal i)).bind StockCheck.failure? = none := by
  cases h with
  | warm => exact .inl rfl
  | round | retry => exact .inr ⟨(warmed_round m).symm.trans warm, rfl⟩
  | begin | stop | backOff | crash | rest => exact .inr ⟨warm, rfl⟩
  | check _ c =>
    have both := (warmed_finishCheck m c).symm.trans warm
    rw [Bool.and_eq_true, Option.isNone_iff_eq_none] at both
    exact .inr both

/-- Only a warm source is asked about the stock. -/
theorem Does.asks (h : Does m i n told) (asks : .check ∈ told) : n.warmed = true := by
  have round : .check ∈ m.round.2 → m.round.1.warmed = true := by
    intro among
    rw [warmed_round]
    by_contra cold
    obtain ⟨-, -, es, plain, same⟩ := round_of_cold (by simpa using cold)
    rw [same, List.mem_append, List.mem_singleton] at among
    exact among.elim plain.no_check (by rintro ⟨⟩)
  cases h with
  | warm => rfl
  | round | retry => exact round asks
  | begin => exact absurd asks (plain_announce m _ _ (by decide)).no_check
  | stop => simp [announce] at asks
  | check _ c => exact absurd asks (plain_finishCheck m c).no_check
  | backOff | crash | rest => exact absurd asks List.not_mem_nil

theorem Does.waves (h : Does m i n told) :
    told.filterMap Effect.fed? = told.filterMap Effect.told? := by
  cases h with
  | begin | stop | warm | backOff | crash | rest => rfl
  | round | retry => exact (waves_round m).1.trans (waves_round m).2.symm
  | check _ c => exact (waves_finishCheck m c).1.trans (waves_finishCheck m c).2.symm

theorem Does.crashes (h : Does m i n told) (down : n.phase = .crashed) :
    i = .warmed .crashed ∨ i = .checked .crashed := by
  cases h with
  | crash => exact .inl rfl
  | check _ c =>
    by_cases crash : c = .crashed
    · exact .inr (congrArg Signal.checked crash)
    · simp [enter, crash] at down
  | round | retry =>
    rw [phase_round] at down
    split at down <;> contradiction
  | begin | stop | warm | backOff | rest => exact absurd down (by rintro ⟨⟩)

end

/-! ### Runs -/

/-- A call of the source took the monitor down. -/
def TakenDown (w : List (Leg Monitor (Stimulus Signal) Effect)) : Prop :=
  ∃ l ∈ w, l.input = .signal (.warmed .crashed) ∨ l.input = .signal (.checked .crashed)

/-- A warm-up succeeded, and no check has failed since. -/
def Warm (w : List (Leg Monitor (Stimulus Signal) Effect)) : Prop :=
  Since w (fun l => l.input = .signal (.warmed .ready))
    fun l => (checkOf? l.input).bind StockCheck.failure? = none

/-- What a monitor has told and asked on its way. -/
structure Keeps (id : GroupId) (w : List (Leg Monitor (Stimulus Signal) Effect)) (m : Monitor) :
    Prop where
  groupId : m.groupId = id
  log : m.phase = .fresh ∧ m.warmed = false ∧ published w = [] ∨
    Fits m ∧ Log id m.status none (published w)
  failures : (published w).filter Event.isFail =
    ((checksOf w).filterMap StockCheck.failure?).map (failed id)
  waves : (effectsOf w).filterMap Effect.fed? = (effectsOf w).filterMap Effect.told?
  warm : m.warmed = true → Warm w
  down : m.phase = .crashed → TakenDown w

section
variable {id : GroupId} {g : GroupConfig} {m n : Monitor} {i : Signal} {es : List Effect}
  {w : List (Leg Monitor (Stimulus Signal) Effect)} {l : Leg Monitor (Stimulus Signal) Effect}

theorem published_snoc : published (w ++ [l]) = published w ++ eventsIn l.effects := by
  rw [published, effectsOf_append, effectsOf_singleton, eventsIn_append, published]

/-- The first thing a monitor does is to tell its start. -/
theorem Does.opens (h : Does m i n es) (fresh : m.phase = .fresh) (cold : m.warmed = false)
    (group : m.groupId = id) (silent : published w = []) :
    Fits n ∧ Log id n.status none (published w ++ eventsIn es) := by
  subst group
  rw [silent]
  cases h with
  | begin => exact ⟨fits_begun m cold, .start⟩
  | stop looks => simp [fresh, Phase.looks] at looks
  | round phase | warm phase | backOff phase | crash phase | check phase | rest phase
  | retry phase => exact absurd (fresh.symm.trans phase) (by decide)

theorem Keeps.stop (h : Keeps id w m) : Keeps id (w ++ [⟨m, .stop, [], m.stop⟩]) m.stop := by
  have same : published (w ++ [⟨m, .stop, [], m.stop⟩]) = published w := by
    rw [published_snoc]
    exact List.append_nil _
  refine ⟨h.groupId, ?_, ?_, ?_, fun warm => ?_, fun down => ?_⟩
  · rw [same]
    refine h.log.imp (fun fresh => fresh) fun ⟨fits, log⟩ => ⟨?_, log⟩
    exact ⟨fits.begun, fits.cold, fits.warm, fits.opens, fits.checking, fits.idle⟩
  · rw [same, checksOf_snoc, h.failures]
    exact congrArg _ (congrArg _ (List.append_nil _).symm)
  · simpa using h.waves
  · exact since_snoc_iff.2 (.inr ⟨h.warm warm, rfl⟩)
  · obtain ⟨l, among, crash⟩ := h.down down
    exact ⟨l, List.mem_append_left _ among, crash⟩

theorem Keeps.step (h : Keeps id w m) (does : Does m i n es) :
    Keeps id (w ++ [⟨m, .signal i, es, n⟩]) n := by
  have fits : m.phase ≠ .fresh → Fits m := fun begun => (h.log.resolve_left fun ⟨fresh, _⟩ =>
    begun fresh).1
  refine ⟨does.alike.groupId.trans h.groupId, ?_, ?_, ?_, fun warm => ?_, fun down => ?_⟩
  · rw [published_snoc]
    rcases h.log with ⟨fresh, cold, silent⟩ | ⟨fits, log⟩
    · exact .inr (does.opens fresh cold h.groupId silent)
    · exact .inr ⟨does.fits fits, does.logs fits h.groupId log⟩
  · rw [published_snoc, List.filter_append, h.failures, does.fails fits, checksOf_snoc,
      List.filterMap_append, List.map_append, h.groupId]
    cases checkOf? (.signal i) with
    | none => rfl
    | some c => cases hc : c.failure? <;> simp [hc]
  · rw [effectsOf_append, effectsOf_singleton, List.filterMap_append, List.filterMap_append,
      h.waves, does.waves]
  · rw [Warm, since_snoc_iff]
    exact (does.warms warm).imp (congrArg Stimulus.signal) (And.imp_left h.warm)
  · exact ⟨_, List.mem_append_right _ (List.mem_singleton_self _),
      (does.crashes down).imp (congrArg Stimulus.signal) (congrArg Stimulus.signal)⟩

theorem keeps_of_trail (h : Trail take? (ofConfig id g) w m) : Keeps id w m := by
  induction h with
  | rest => exact ⟨rfl, .inl ⟨rfl, rfl, rfl⟩, rfl, rfl, by rintro ⟨⟩, by rintro ⟨⟩⟩
  | @step w m n i es past taken ih =>
    cases i with
    | stop =>
      obtain ⟨rfl, rfl⟩ := Prod.mk.inj (Option.some.inj taken)
      exact ih.stop
    | signal i => exact ih.step (does_of_signal taken)

/-- What a monitor tells, and when it asks. -/
structure Automaton (id : GroupId) (w : List (Leg Monitor (Stimulus Signal) Effect))
    (m : Monitor) : Prop where
  /-- The start comes first. -/
  start : published w = [] ∧ m.phase = .fresh ∨
    (published w).head? = some (.monitor id .settingUp .start Event.noPayload)
  /-- Every status follows one that it may come after. -/
  chain : (statusesOf w).IsChain fun s s' => s' ∈ s.successors
  /-- A failure is an error, and the stop a farewell. -/
  kinds : ∀ e ∈ published w, (∃ s t p, e = .monitor id s t p ∧ (t = .fail ↔ s = .error) ∧
    (t = .stop ↔ s = .idle)) ∨ ∃ v, e = .product v
  /-- The farewell is the last event, and tells that the run is over. -/
  last : ∀ past e later, published w = past ++ e :: later → e.status? = some .idle →
    later = [] ∧ e = .monitor id .idle .stop Event.noPayload ∧ m.phase = .stopped
  /-- A run is not over without it, unless a call of the source took the monitor down. -/
  gone : m.ended = true → TakenDown w ∨
    (published w).getLast? = some (.monitor id .idle .stop Event.noPayload)
  /-- Each failed check is told, and once. -/
  failures : (published w).filter Event.isFail =
    ((checksOf w).filterMap StockCheck.failure?).map (failed id)
  /-- The status that sends is followed by the wave whose ids it lists. -/
  sends : ∀ past g t p later, published w = past ++ .monitor g .sendingToTasks t p :: later →
    ∃ v rest, .monitor g .sendingToTasks t p = sending id v ∧ v.groupId = id ∧
      v.products ≠ [] ∧ later = .product v :: rest
  /-- No wave comes without it, so none follows another. -/
  announced : ∀ past v later, published w = past ++ .product v :: later →
    ∃ before, past = before ++ [sending id v]
  /-- The feed gets the waves that the observers are told of. -/
  waves : (effectsOf w).filterMap Effect.fed? = (effectsOf w).filterMap Effect.told?
  /-- Only a source that is warm is asked about the stock. -/
  warm : ∀ past l later, w = past ++ l :: later → .check ∈ l.effects → Warm (past ++ [l])

theorem Log.farewell_last {s : MonitorStatus} {due : Option Wave} {es : List Event}
    (h : Log id s due es) (idle : s = .idle) :
    es.getLast? = some (.monitor id .idle .stop Event.noPayload) := by
  cases h with
  | part => exact List.getLast?_concat
  | update _ _ quiet => simp [idle] at quiet
  | start | fail | announce | send => contradiction

/-- A monitor that has told nothing has nothing to account for. -/
theorem Keeps.unbegun (h : Keeps id w m) (fresh : m.phase = .fresh) (silent : published w = [])
    (warm : ∀ past l later, w = past ++ l :: later → .check ∈ l.effects → Warm (past ++ [l])) :
    Automaton id w m := by
  have none : ∀ {past e later}, published w ≠ past ++ e :: later := by simp [silent]
  refine ⟨.inl ⟨silent, fresh⟩, by simp [statusesOf, silent], by simp [silent],
    fun _ _ _ split => absurd split none, fun gone => ?_, h.failures,
    fun _ _ _ _ _ split => absurd split none, fun _ _ _ split => absurd split none, h.waves, warm⟩
  simp [ended, fresh] at gone

theorem Keeps.begun (h : Keeps id w m) (fits : Fits m) (log : Log id m.status none (published w))
    (warm : ∀ past l later, w = past ++ l :: later → .check ∈ l.effects → Warm (past ++ [l])) :
    Automaton id w m := by
  refine ⟨.inr log.head, log.statuses.1, fun e among => log.kinds among, ?_, fun gone => ?_,
    h.failures, ?_, ?_, h.waves, warm⟩
  · intro past e later split idle
    obtain ⟨rfl, status⟩ := log.idle_last split idle
    have last := log.farewell_last status
    rw [split, List.getLast?_concat] at last
    exact ⟨rfl, Option.some.inj last, fits.idle.1 status⟩
  · rw [ended, Bool.or_eq_true, beq_iff_eq, beq_iff_eq] at gone
    exact gone.symm.imp h.down fun stopped => log.farewell_last (fits.idle.2 stopped)
  · intro past g t p later split
    obtain ⟨v, told, group, full, ⟨rest, later⟩ | ⟨⟨⟩, -⟩⟩ := log.sends split
    exact ⟨v, rest, told, group, full, later⟩
  · intro past v later split
    obtain ⟨before, same, -⟩ := log.announced split
    exact ⟨before, same⟩

/-- **The statuses of a monitor form an automaton.** However its source behaves, and whenever
it is stopped, the events of a monitor and its checks are as `Automaton` says. -/
theorem statuses_form_an_automaton (h : Trail take? (ofConfig id g) w m) : Automaton id w m := by
  have keeps := keeps_of_trail h
  have warm : ∀ past l later, w = past ++ l :: later → .check ∈ l.effects → Warm (past ++ [l]) := by
    rintro past l later rfl asks
    rw [show past ++ l :: later = (past ++ [l]) ++ later by simp] at h
    obtain ⟨n, before, -⟩ := h.split
    obtain ⟨-, taken, rfl⟩ := before.last
    refine (keeps_of_trail before).warm ?_
    cases input : l.input with
    | stop =>
      rw [input] at taken
      rw [← (Prod.mk.inj (Option.some.inj taken)).2] at asks
      exact absurd asks List.not_mem_nil
    | signal i =>
      rw [input] at taken
      exact (does_of_signal taken).asks asks
  rcases keeps.log with ⟨fresh, -, silent⟩ | ⟨fits, log⟩
  · exact keeps.unbegun fresh silent warm
  · exact keeps.begun fits log warm

end

/-- A warm-up that takes two attempts, a wave, a check that fails, and the stop. -/
def faltering : List (Stimulus Signal) :=
  [.signal .begin, .signal .proceed, .signal (.warmed .notReady), .signal .rested,
    .signal (.warmed .ready), .signal (.checked inStock), .signal .rested, .signal .proceed,
    .signal (.checked .panicked), .stop, .signal .notice]

theorem automaton_of_a_failure :
    ∃ w m, Trail take? (ofConfig default twoCeilings) w m ∧ Automaton default w m ∧
      statusesOf w = [.settingUp, .sendingToTasks, .error, .idle] ∧ m.phase = .stopped := by
  have h := Trail.of_inputs take? (ofConfig default twoCeilings) faltering
  exact ⟨_, _, h, statuses_form_an_automaton h, by decide, by decide⟩

end Monitor

end Restock
