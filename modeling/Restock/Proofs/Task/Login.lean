import Restock.Proofs.Task.Attempts

/-! The login of a task.

A task is in its login from the first election for its account until it has a
session or its run is over. From a granted claim on it holds the claim, and it lets
go of it with the login, whatever comes of that (`Sound`). What a step of a task
means for its account is said by `Dealing`: most steps mean nothing; the others
claim the account, take a session over, share a session or give the claim up. -/
namespace Restock

/-- What an event says of an account. -/
structure Auth where
  account : AccountKey
  task : TaskId
  outcome : AuthOutcome
  deriving DecidableEq, Repr

namespace Event

def auth? : Event → Option Auth
  | .auth g t c o => some ⟨⟨g, c⟩, t, o⟩
  | _ => none

/-- A task tells that it failed. -/
def fails (t : TaskId) : Event → Bool
  | .task t' _ .fail _ => t' = t
  | _ => false

end Event

namespace Task

def Effect.event? : Effect → Option Event
  | .publish e => some e
  | _ => none

def Effect.finish? : Effect → Option (Guard × Option Session)
  | .finish g session => some (g, session)
  | _ => none

def eventsIn (es : List Effect) : List Event := es.filterMap Effect.event?

def authsIn (es : List Effect) : List Auth := (eventsIn es).filterMap Event.auth?

/-- The claims that are let go, and what for. -/
def finishesIn (es : List Effect) : List (Guard × Option Session) := es.filterMap Effect.finish?

namespace Phase

/-- The login is going on. -/
def inLogin : Phase → Bool
  | .electing | .awaitingLogin | .entering .login | .calling .login | .pausing .login _ => true
  | _ => false

/-- The task itself logs in. -/
def logsIn : Phase → Bool
  | .entering .login | .calling .login | .pausing .login _ => true
  | _ => false

/-- The login is not over. -/
def early (p : Phase) : Bool := p == .fresh || p.inLogin

theorem inLogin_of_logsIn {p : Phase} (h : p.logsIn = true) : p.inLogin = true := by
  cases p with
  | entering s | calling s | pausing s => cases s <;> first | rfl | contradiction
  | _ => contradiction

theorem early_of_inLogin {p : Phase} (h : p.inLogin = true) : p.early = true := by
  rw [early, h, Bool.or_true]

end Phase

/-- A task holds a claim just while it logs in, and only tasks with a credential do. -/
structure Sound (t : Task) : Prop where
  guard : t.guard.isSome = t.phase.logsIn
  member : t.phase.inLogin = true → t.context.credential.isSome = true

/-- What a task says of its account. -/
def auth (t : Task) (o : AuthOutcome) : Auth :=
  ⟨⟨t.context.groupId, t.identifier⟩, t.context.taskId, o⟩

inductive Dealing (t : Task) (i : Signal) (u : Task) (es : List Effect) : Prop
  | pass (unelected : ∀ g, i ≠ .elected (.claimed g)) (guard : u.guard = t.guard)
    (finishes : finishesIn es = []) (auths : authsIn es = [])
    (sessionless : ¬ (t.phase.inLogin = true ∧ u.phase = .awaitingWave))
    (onward : u.phase.inLogin = true → t.phase.inLogin = true ∨
      (t.phase = .fresh ∧ t.context.credential.isSome = true))
    (owner : u.phase.logsIn = t.phase.logsIn)
  | claim {g : Guard} (elected : i = .elected (.claimed g)) (phase : t.phase = .electing)
    (flag : t.stopping = false) (guard : u.guard = some g) (silent : es = [])
    (login : u.phase = .entering .login)
  | adopt {v : Session} (found : i = .elected (.materialized v) ∨ i = .looked (.ready v))
    (login : t.phase.inLogin = true) (owns : t.guard = none) (flag : t.stopping = false)
    (guard : u.guard = none) (finishes : finishesIn es = [])
    (auths : authsIn es = [t.auth .adopted])
    (phase : u.phase = .awaitingWave) (session : u.state.session = some v)
  | share {g : Guard} {v : Session} (unelected : ∀ g, i ≠ .elected (.claimed g))
    (login : t.phase.inLogin = true) (owns : t.guard = some g) (guard : u.guard = none)
    (finishes : finishesIn es = [(g, some v)]) (auths : authsIn es = [t.auth .loggedIn])
    (phase : u.phase = .awaitingWave) (session : u.state.session = some v)
  | giveUp {g : Guard} (failed : Bool) (unelected : ∀ g, i ≠ .elected (.claimed g))
    (owns : t.guard = some g) (guard : u.guard = none) (finishes : finishesIn es = [(g, none)])
    (auths : authsIn es = if failed then [t.auth .failed] else [])
    (fails : (eventsIn es).any (Event.fails t.context.taskId) = failed)
    (phase : u.phase = .ended ∨ (u.phase = .crashed ∧ failed = false))

section
variable {t u : Task} {i : Signal} {es : List Effect} {s : Step}

theorem guard_none (h : t.Sound) (phase : t.phase.logsIn = false) : t.guard = none := by
  rw [← Option.not_isSome_iff_eq_none, h.guard, phase]
  decide

theorem guard_some (h : t.Sound) (phase : t.phase.logsIn = true) : ∃ g, t.guard = some g :=
  Option.isSome_iff_exists.1 (h.guard.trans phase)

theorem auth_congr {c : Task} (context : c.context = t.context) (o : AuthOutcome) :
    c.auth o = t.auth o := by
  simp only [auth, identifier, context]

/-! ### What the steps deal in -/

/-- A run that ends gives a claim up; that is a failure unless the task was stopped. -/
theorem dealing_halt {c : Task} (h : Halt) (sound : t.Sound)
    (unelected : ∀ g, i ≠ .elected (.claimed g)) (guard : c.guard = t.guard) (context : c.context = t.context) :
    Dealing t i (c.halt h).1 (c.halt h).2 := by
  have ended := phase_halt c h
  cases hg : c.guard with
  | none =>
    have close : c.halt h = c.close h := by simp only [halt, hg]
    rw [close] at ended ⊢
    refine .pass unelected ?_ ?_ ?_ (by simp [ended]) (by simp [ended, Phase.inLogin]) ?_
    · rw [← guard]
      cases h <;> rfl
    · cases h <;> rfl
    · cases h <;> rfl
    · rw [ended, ← sound.guard, ← guard, hg]
      rfl
  | some g =>
    rw [hg] at guard
    have guard' : (c.halt h).1.guard = none := by
      cases h <;> simp [halt, hg, close, announce, enter]
    cases h with
    | stopped =>
      have told : (c.halt .stopped).2 = [.finish g none, c.tells .idle .stop Event.noPayload] := by
        simp only [halt, hg, close, announce]
        rfl
      rw [told]
      exact .giveUp false unelected guard.symm guard' rfl rfl rfl (.inl ended)
    | failed status reason =>
      have told : (c.halt (.failed status reason)).2 = [.finish g none, c.tellAuth .failed,
          c.tells status .fail (.ofMembers [("reason", .string reason)])] := by
        simp only [halt, hg, close, announce]
        rfl
      rw [told]
      refine .giveUp true unelected guard.symm guard' rfl ?_ ?_ (.inl ended)
      · rw [if_pos rfl, ← auth_congr context]
        rfl
      · simp [eventsIn, Effect.event?, tells, tellAuth, Event.fails, context]

theorem dealing_crash {c : Task} (sound : t.Sound) (unelected : ∀ g, i ≠ .elected (.claimed g))
    (guard : c.guard = t.guard) : Dealing t i c.crash.1 c.crash.2 := by
  cases hg : c.guard with
  | none =>
    refine .pass unelected (guard ▸ hg.symm) ?_ ?_ nofun nofun ?_
    · simp [crash, hg, finishesIn]
    · simp [crash, hg, authsIn, eventsIn]
    · rw [← sound.guard, ← guard, hg]
      rfl
  | some g =>
    refine .giveUp false unelected (guard ▸ hg) rfl ?_ ?_ ?_ (.inr ⟨rfl, rfl⟩)
    all_goals simp [crash, hg, finishesIn, authsIn, eventsIn, Effect.event?, Effect.finish?]

/-- Effects that concern no account. -/
def Mute (es : List Effect) : Prop := finishesIn es = [] ∧ authsIn es = []

theorem Mute.append {es fs : List Effect} (h : Mute es) (h' : Mute fs) : Mute (es ++ fs) := by
  obtain ⟨hf, ha⟩ := h
  obtain ⟨hf', ha'⟩ := h'
  constructor
  · rw [finishesIn, List.filterMap_append, ← finishesIn, ← finishesIn, hf, hf']
    rfl
  · rw [authsIn, eventsIn, List.filterMap_append, List.filterMap_append, ← eventsIn, ← eventsIn,
      ← authsIn, ← authsIn, ha, ha']
    rfl

theorem mute_announce (t : Task) (s : TaskStatus) (type : EventType) (payload : Json) :
    Mute (t.announce s type payload).2 := ⟨rfl, rfl⟩

theorem mute_turn (t : Task) (s : TaskStatus) (type : EventType) (payload : Json) :
    Mute (t.turn s type payload).2 := by
  unfold turn
  split
  · exact ⟨rfl, rfl⟩
  · exact mute_announce t s type payload

theorem mute_attempt (t : Task) (s : Step) : Mute (t.attempt s).2 :=
  (mute_turn t s.status .update Event.noPayload).append ⟨rfl, rfl⟩

/-- A session is told of; nothing else. -/
theorem tells_adopt (t : Task) (v : Session) (o : AuthOutcome) :
    finishesIn (t.adopt v o).2 = [] ∧ authsIn (t.adopt v o).2 = [t.auth o] := by
  obtain ⟨hf, ha⟩ := mute_turn { t with state := { t.state with session := some v } }
    .waitingForMonitor .update Event.noPayload
  constructor
  · exact hf
  · exact congrArg (t.auth o :: ·) ha

theorem guard_turn (t : Task) (s : TaskStatus) (type : EventType) (payload : Json) :
    (t.turn s type payload).1.guard = t.guard := by
  unfold turn
  split <;> rfl

theorem state_turn (t : Task) (s : TaskStatus) (type : EventType) (payload : Json) :
    (t.turn s type payload).1.state = t.state := by
  unfold turn
  split <;> rfl

theorem guard_called (t : Task) (s : Step) (state : CheckoutState) :
    (t.called s state).guard = t.guard := by
  cases s <;> rfl

theorem session_adopt (t : Task) (v : Session) (o : AuthOutcome) :
    (t.adopt v o).1.state.session = some v :=
  congrArg CheckoutState.session (state_turn ..)

theorem Does.dealing (h : Does t i u es) (sound : t.Sound) : Dealing t i u es := by
  cases h with
  | beginGuest phase =>
    exact .pass (by simp) rfl rfl rfl (by simp [phase, Phase.inLogin]) (by simp [Phase.inLogin])
      (by rw [phase]; rfl)
  | beginMember phase member =>
    exact .pass (by simp) rfl rfl rfl (by simp) (fun _ => .inr ⟨phase, member⟩) (by rw [phase]; rfl)
  | stop | giveUp => exact dealing_halt .stopped sound (by simp) rfl rfl
  | adopt phase flag v =>
    have owns := guard_none sound (by rw [phase]; rfl)
    obtain ⟨finishes, auths⟩ := tells_adopt t v .adopted
    exact .adopt (.inl rfl) (by rw [phase]; rfl) owns flag ((guard_turn ..).trans owns) finishes
      auths rfl (session_adopt ..)
  | adoptLater phase flag v =>
    have owns := guard_none sound (by rw [phase]; rfl)
    obtain ⟨finishes, auths⟩ := tells_adopt t v .adopted
    exact .adopt (.inr rfl) (by rw [phase]; rfl) owns flag ((guard_turn ..).trans owns) finishes
      auths rfl (session_adopt ..)
  | wait phase | elect phase =>
    exact .pass (by simp) rfl rfl rfl (by simp) (fun _ => .inl (by rw [phase]; rfl))
      (by rw [phase]; rfl)
  | stay phase =>
    exact .pass (by simp) rfl rfl rfl (by simp [phase]) (fun h => .inl h) rfl
  | ignore phase =>
    exact .pass (by simp) rfl rfl rfl (by simp [phase, Phase.inLogin]) (fun h => .inl h) rfl
  | claim phase flag g => exact .claim rfl phase flag rfl rfl rfl
  | @attempt s phase =>
    obtain ⟨finishes, auths⟩ := mute_attempt t s
    refine .pass (by simp) (guard_turn ..) finishes auths (by simp) (fun h => .inl ?_) ?_
    · rw [phase]
      cases s <;> first | rfl | contradiction
    · rw [phase]
      cases s <;> rfl
  | share phase state v =>
    obtain ⟨g, owns⟩ := guard_some sound (by rw [phase]; rfl)
    have told : (t.share v).2 =
        .finish g (some v) :: ({ t with guard := none }.adopt v .loggedIn).2 := by
      simp [Task.share, owns]
    obtain ⟨finishes, auths⟩ := tells_adopt { t with guard := none } v .loggedIn
    rw [told]
    exact .share (by simp) (by rw [phase]; rfl) owns (guard_turn ..)
      (congrArg ((g, some v) :: ·) finishes) auths rfl (session_adopt _ _ .loggedIn)
  | sessionless => exact dealing_halt _ sound (by simp) rfl rfl
  | @advance s n phase checkout onward =>
    have checkout' := Step.ne_login_of_next onward
    refine .pass (by simp) rfl rfl rfl (by simp) (fun h => ?_) ?_
    · simp [enter, Phase.inLogin, checkout'] at h
    · rw [phase]
      simp [enter, Phase.logsIn, checkout, checkout']
  | complete phase =>
    exact .pass (by simp) rfl rfl rfl (by simp) (by simp [Phase.inLogin]) (by rw [phase]; rfl)
  | undecided | crash => exact dealing_crash sound (by simp) (guard_called ..)
  | @yield s | @abort s =>
    exact dealing_halt _ sound (by simp) (guard_called ..) (steady_called t s _).context
  | @pause s phase =>
    refine .pass (by simp) (guard_called ..) rfl rfl (by simp) (fun h => .inl ?_) ?_
    · rw [phase]
      cases s <;> first | rfl | contradiction
    · rw [phase]
      cases s <;> rfl
  | @rest s delay phase =>
    refine .pass (by simp) rfl rfl rfl (by simp) (fun h => .inl ?_) ?_
    · rw [phase]
      cases s <;> first | rfl | contradiction
    · rw [phase]
      cases s <;> rfl
  | receive phase => exact .pass (by simp) rfl rfl rfl (by simp) (by simp [Phase.inLogin]) (by rw [phase]; rfl)

/-- A task that is sound stays so. -/
theorem Dealing.sound (h : Dealing t i u es) (sound : t.Sound) (context : u.context = t.context) :
    u.Sound := by
  cases h with
  | pass _ guard _ _ _ onward owner =>
    refine ⟨by rw [guard, owner, sound.guard], fun login => ?_⟩
    rw [context]
    rcases onward login with login | ⟨-, member⟩
    · exact sound.member login
    · exact member
  | claim elected phase _ guard _ login =>
    refine ⟨by rw [guard, login]; rfl, fun _ => ?_⟩
    rw [context]
    exact sound.member (by rw [phase]; rfl)
  | adopt _ _ _ _ guard _ _ phase | share _ _ _ guard _ _ phase =>
    exact ⟨by rw [guard, phase]; rfl, by simp [phase, Phase.inLogin]⟩
  | giveUp _ _ _ guard _ _ _ phase =>
    rcases phase with phase | ⟨phase, -⟩
    · exact ⟨by rw [guard, phase]; rfl, by simp [phase, Phase.inLogin]⟩
    · exact ⟨by rw [guard, phase]; rfl, by simp [phase, Phase.inLogin]⟩

/-! ### How a login ends -/

/-- The session that a login ends with. -/
def gained? (t u : Task) : Option Session :=
  if t.phase.inLogin = true ∧ u.phase = .awaitingWave then u.state.session else none

/-- What a login comes to in a step that tells the events. With a session it was the
task's own login or another's; only a run that fails while the task itself logs in is
a failed login. -/
def outcome? (t u : Task) (events : List Event) : Option AuthOutcome :=
  if (t.gained? u).isSome then some (if t.guard.isSome then .loggedIn else .adopted)
  else if t.guard.isSome ∧ u.phase = .ended ∧ events.any (Event.fails t.context.taskId) then
    some .failed
  else none

/-- The run is over before the login has come to anything, and not by a failure. -/
def quits (t u : Task) (events : List Event) : Bool :=
  t.phase.inLogin && u.ended && !events.any (Event.fails t.context.taskId)

theorem gained?_eq_none (h : t.phase.inLogin = true → u.phase ≠ .awaitingWave) :
    t.gained? u = none := if_neg fun ⟨login, phase⟩ => h login phase

theorem gained?_eq_some {v : Session} (login : t.phase.inLogin = true)
    (phase : u.phase = .awaitingWave) (session : u.state.session = some v) :
    t.gained? u = some v := (if_pos ⟨login, phase⟩).trans session

theorem gained?_rest (h : u.phase = t.phase) : t.gained? u = none := by
  refine gained?_eq_none fun login phase => ?_
  rw [← h, phase] at login
  contradiction

theorem inLogin_of_guard (sound : t.Sound) (h : t.guard.isSome = true) :
    t.phase.inLogin = true := Phase.inLogin_of_logsIn (sound.guard ▸ h)

/-- A login comes to something once. -/
theorem late_of_outcome? {events : List Event} {o : AuthOutcome} (sound : t.Sound)
    (h : t.outcome? u events = some o) : t.phase.inLogin = true ∧ u.phase.early = false := by
  unfold outcome? at h
  split at h
  · next gained =>
    by_cases gains : t.phase.inLogin = true ∧ u.phase = .awaitingWave
    · obtain ⟨login, phase⟩ := gains
      exact ⟨login, by rw [phase]; rfl⟩
    · rw [gained?, if_neg gains] at gained
      contradiction
  · split at h
    · next fails =>
      obtain ⟨owns, phase, -⟩ := fails
      exact ⟨inLogin_of_guard sound owns, by rw [phase]; rfl⟩
    · contradiction

theorem outcome?_rest {events : List Event} (sound : t.Sound) (h : u.phase = t.phase) :
    t.outcome? u events = none := by
  cases ho : t.outcome? u events with
  | none => rfl
  | some o =>
    obtain ⟨login, late⟩ := late_of_outcome? sound ho
    rw [h, Phase.early_of_inLogin login] at late
    contradiction

theorem late_of_ended (h : t.ended = true) : t.phase.early = false := by
  have last : t.phase = .ended ∨ t.phase = .crashed := by simpa [ended] using h
  rcases last with phase | phase <;> rw [phase] <;> rfl

theorem late_of_quits {events : List Event} (h : t.quits u events = true) :
    t.phase.early = true ∧ u.phase.early = false ∧ t.outcome? u events = none := by
  simp only [quits, Bool.and_eq_true, Bool.not_eq_true'] at h
  obtain ⟨⟨login, ended⟩, quiet⟩ := h
  have late := late_of_ended ended
  have gained : t.gained? u = none := by
    refine gained?_eq_none fun _ phase => ?_
    rw [Task.ended, phase] at ended
    contradiction
  refine ⟨Phase.early_of_inLogin login, late, ?_⟩
  simp [outcome?, gained, quiet]

end

end Task

end Restock
