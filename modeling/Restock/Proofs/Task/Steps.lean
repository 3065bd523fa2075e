import Restock.Proofs.Trail
import Restock.Task

/-! The steps of a task.

`Task.take?` is a task as a machine whose stop flag may be raised at any time. What
a task does with a signal is said once, by one constructor of `Task.Does` for each
thing it can do (`does_of_next?`). How an attempt came out is the reply of the
driver in the phase `calling`; a reply that is a failure goes to the decider. -/
namespace Restock

/-- The failure that a reply at a step stands for, and whether it is terminal. -/
def Reply.failure? (s : Step) : Reply → Option (StepFailure × Bool)
  | .outcome (.retry f) => some (f, false)
  | .outcome (.terminal f) => some (f, true)
  | .panicked => some (Task.panicFailure s, false)
  | _ => none

/-- No step comes before login. -/
theorem Step.ne_login_of_next {s n : Step} (h : s.next? = some n) : n ≠ .login := by
  intro same
  subst same
  cases s <;> simp [next?] at h

namespace Task

def take? (t : Task) : Stimulus Signal → Option (Task × List Effect)
  | .stop => some (t.stop, [])
  | .signal s => t.next? s

/-- A task looks at its flag in these phases. -/
def Phase.looks : Phase → Bool
  | .electing | .awaitingLogin | .entering _ | .pausing .. | .awaitingWave => true
  | _ => false

/-- The task after a call of the driver, which may have changed the state unless it
was a login. -/
def called (t : Task) (s : Step) (state : CheckoutState) : Task :=
  match s with
  | .login => t
  | _ => { t with state }

/-- An event about the task itself. -/
def tells (t : Task) (s : TaskStatus) (type : EventType) (payload : Json) : Effect :=
  .publish (.task t.context.taskId s type payload)

inductive Does (t : Task) : Signal → Task → List Effect → Prop
  | beginGuest (phase : t.phase = .fresh) (guest : t.context.credential = none) :
    Does t .begin { t with status := .waitingForMonitor, phase := .awaitingWave }
      [t.tells .settingUp .start Event.noPayload,
        t.tells .waitingForMonitor .update Event.noPayload]
  | beginMember (phase : t.phase = .fresh) (member : t.context.credential.isSome) :
    Does t .begin { t with status := .loggingIn, phase := .electing }
      [t.tells .settingUp .start Event.noPayload, t.tells .loggingIn .update Event.noPayload]
  | stop (looks : t.phase.looks) (flag : t.stopping = true) :
    Does t .notice (t.halt .stopped).1 (t.halt .stopped).2
  | adopt (phase : t.phase = .electing) (flag : t.stopping = false) (s : Session) :
    Does t (.elected (.materialized s)) (t.adopt s .adopted).1 (t.adopt s .adopted).2
  | wait (phase : t.phase = .electing) (flag : t.stopping = false) :
    Does t (.elected .inProgress) (t.enter .awaitingLogin) []
  | claim (phase : t.phase = .electing) (flag : t.stopping = false) (g : Guard) :
    Does t (.elected (.claimed g)) ({ t with guard := some g }.enter (.entering .login)) []
  | adoptLater (phase : t.phase = .awaitingLogin) (flag : t.stopping = false) (s : Session) :
    Does t (.looked (.ready s)) (t.adopt s .adopted).1 (t.adopt s .adopted).2
  | elect (phase : t.phase = .awaitingLogin) (flag : t.stopping = false) :
    Does t (.looked .vacant) (t.enter .electing) []
  | stay (phase : t.phase = .awaitingLogin) (flag : t.stopping = false) :
    Does t (.looked .busy) t []
  | attempt {s : Step} (phase : t.phase = .entering s) (flag : t.stopping = false) :
    Does t .proceed (t.attempt s).1 (t.attempt s).2
  | share (phase : t.phase = .calling .login) (state : CheckoutState) (session : Session) :
    Does t (.replied state (.outcome (.success (some session)))) (t.share session).1
      (t.share session).2
  | sessionless (phase : t.phase = .calling .login) (state : CheckoutState) :
    Does t (.replied state (.outcome (.success none)))
      (t.halt (.failed .checkoutFailed "login produced no session")).1
      (t.halt (.failed .checkoutFailed "login produced no session")).2
  | advance {s n : Step} (phase : t.phase = .calling s) (checkout : s ≠ .login)
    (onward : s.next? = some n) (state : CheckoutState) (v : Option Session) :
    Does t (.replied state (.outcome (.success v))) ({ t with state }.enter (.entering n)) []
  | complete (phase : t.phase = .calling .placeOrder) (state : CheckoutState)
    (v : Option Session) :
    Does t (.replied state (.outcome (.success v))) { t with state }.complete.1
      { t with state }.complete.2
  | undecided {s : Step} (phase : t.phase = .calling s) (state : CheckoutState)
    {r : Reply} {f : StepFailure} {terminal : Bool} (failed : r.failure? s = some (f, terminal))
    (decided : t.decider ⟨s, t.attemptsAt s, f, terminal⟩ = none) :
    Does t (.replied state r) (t.called s state).crash.1 (t.called s state).crash.2
  | yield {s : Step} (phase : t.phase = .calling s) (state : CheckoutState)
    {r : Reply} {f : StepFailure} {terminal : Bool} (failed : r.failure? s = some (f, terminal))
    (decided : t.decider ⟨s, t.attemptsAt s, f, terminal⟩ = some .stop) :
    Does t (.replied state r) ((t.called s state).halt .stopped).1
      ((t.called s state).halt .stopped).2
  | abort {s : Step} (phase : t.phase = .calling s) (state : CheckoutState)
    {r : Reply} {f : StepFailure} {terminal : Bool} (failed : r.failure? s = some (f, terminal))
    {status : TaskStatus} {reason : String}
    (decided : t.decider ⟨s, t.attemptsAt s, f, terminal⟩ = some (.abort status reason)) :
    Does t (.replied state r) ((t.called s state).halt (.failed status reason)).1
      ((t.called s state).halt (.failed status reason)).2
  | pause {s : Step} (phase : t.phase = .calling s) (state : CheckoutState)
    {r : Reply} {f : StepFailure} {terminal : Bool} (failed : r.failure? s = some (f, terminal))
    {delay : Duration} {reason : String}
    (decided : t.decider ⟨s, t.attemptsAt s, f, terminal⟩ = some (.retry delay reason)) :
    Does t (.replied state r) ((t.called s state).pause s delay reason).1
      ((t.called s state).pause s delay reason).2
  | crash {s : Step} (phase : t.phase = .calling s) (state : CheckoutState) :
    Does t (.replied state .crashed) (t.called s state).crash.1 (t.called s state).crash.2
  | rest {s : Step} {delay : Duration} (phase : t.phase = .pausing s delay) :
    Does t .rested (t.enter (.entering s)) []
  | receive (phase : t.phase = .awaitingWave) {w : Wave} {p : Product} {ps : List Product}
    (products : w.products = p :: ps) :
    Does t (.fed (.wave w))
      ({ t with state := { t.state with product := some p } }.enter (.entering .addToCart)) []
  | ignore (phase : t.phase = .awaitingWave) {w : Wave} (products : w.products = []) :
    Does t (.fed (.wave w)) t []
  | giveUp (phase : t.phase = .awaitingWave) :
    Does t (.fed .closed) (t.halt .stopped).1 (t.halt .stopped).2

section
variable {t u : Task} {s : Step} {es : List Effect}

@[simp] theorem phase_halt (t : Task) (h : Halt) : (t.halt h).1.phase = .ended := by
  unfold halt
  split <;> cases h <;> rfl

@[simp] theorem phase_crash (t : Task) : t.crash.1.phase = .crashed := rfl

@[simp] theorem phase_adopt (t : Task) (v : Session) (o : AuthOutcome) :
    (t.adopt v o).1.phase = .awaitingWave := rfl

@[simp] theorem phase_share (t : Task) (v : Session) : (t.share v).1.phase = .awaitingWave := rfl

@[simp] theorem phase_complete (t : Task) : t.complete.1.phase = .ended := rfl

@[simp] theorem phase_attempt (t : Task) (s : Step) : (t.attempt s).1.phase = .calling s := rfl

@[simp] theorem phase_pause (t : Task) (s : Step) (delay : Duration) (reason : String) :
    (t.pause s delay reason).1.phase = .pausing s delay := rfl

@[simp] theorem phase_enter (t : Task) (p : Phase) : (t.enter p).phase = p := rfl

theorem attemptsAt_called (t : Task) (s s' : Step) (state : CheckoutState) :
    (t.called s state).attemptsAt s' = t.attemptsAt s' := by
  cases s <;> rfl

theorem decider_called (t : Task) (s : Step) (state : CheckoutState) :
    (t.called s state).decider = t.decider := by
  cases s <;> rfl

/-- What becomes of a failure is the decider's choice. -/
theorem does_of_failure {state : CheckoutState} {r : Reply} {f : StepFailure} {terminal : Bool}
    (phase : t.phase = .calling s) (failed : r.failure? s = some (f, terminal))
    (h : (t.called s state).failAttempt s f terminal = (u, es)) :
    Does t (.replied state r) u es := by
  unfold failAttempt at h
  rw [decider_called, attemptsAt_called] at h
  split at h <;> obtain ⟨rfl, rfl⟩ := Prod.ext_iff.1 h
  · next decided => exact .undecided phase state failed decided
  · next decided => exact .yield phase state failed decided
  · next decided => exact .abort phase state failed decided
  · next decided => exact .pause phase state failed decided

theorem does_of_reply {state : CheckoutState} {r : Reply} (phase : t.phase = .calling s)
    (h : (t.called s state).finishAttempt s r = (u, es)) : Does t (.replied state r) u es := by
  cases r with
  | panicked => exact does_of_failure phase rfl h
  | crashed =>
    obtain ⟨rfl, rfl⟩ := Prod.ext_iff.1 h
    exact .crash phase state
  | outcome o =>
    cases o with
    | retry f => exact does_of_failure phase rfl h
    | terminal f => exact does_of_failure phase rfl h
    | success v =>
      cases s with
      | login =>
        cases v <;> obtain ⟨rfl, rfl⟩ := Prod.ext_iff.1 h
        · exact .sessionless phase state
        · exact .share phase state _
      | placeOrder =>
        obtain ⟨rfl, rfl⟩ := Prod.ext_iff.1 h
        exact .complete phase state v
      | _ =>
        obtain ⟨rfl, rfl⟩ := Prod.ext_iff.1 h
        exact .advance phase (by decide) rfl state v

theorem does_of_next? {i : Signal} (h : t.next? i = some (u, es)) : Does t i u es := by
  cases i with
  | begin =>
    cases hp : t.phase <;> simp only [next?, hp, reduceCtorEq, Option.some.injEq] at h
    cases hc : t.context.credential with
    | none =>
      simp only [announce, hc] at h
      obtain ⟨rfl, rfl⟩ := Prod.ext_iff.1 h
      exact .beginGuest hp hc
    | some c =>
      simp only [announce, hc] at h
      obtain ⟨rfl, rfl⟩ := Prod.ext_iff.1 h
      exact .beginMember hp (by simp [hc])
  | notice =>
    cases hp : t.phase <;> cases hs : t.stopping <;>
      simp only [next?, hp, hs, reduceCtorEq, Option.some.injEq] at h
    all_goals
      obtain ⟨rfl, rfl⟩ := Prod.ext_iff.1 h
      exact .stop (by rw [hp]; rfl) hs
  | elected claim =>
    cases hp : t.phase <;> cases hs : t.stopping <;> cases claim <;>
      simp only [next?, hp, hs, reduceCtorEq, Option.some.injEq] at h
    all_goals obtain ⟨rfl, rfl⟩ := Prod.ext_iff.1 h
    · exact .adopt hp hs _
    · exact .wait hp hs
    · next g => simpa only [hp, hs, enter] using Does.claim hp hs g
  | looked look =>
    cases hp : t.phase <;> cases hs : t.stopping <;> cases look <;>
      simp only [next?, hp, hs, reduceCtorEq, Option.some.injEq] at h
    all_goals obtain ⟨rfl, rfl⟩ := Prod.ext_iff.1 h
    · exact .adoptLater hp hs _
    · exact .elect hp hs
    · exact .stay hp hs
  | proceed =>
    cases hp : t.phase <;> cases hs : t.stopping <;>
      simp only [next?, hp, hs, reduceCtorEq, Option.some.injEq] at h
    obtain ⟨rfl, rfl⟩ := Prod.ext_iff.1 h
    exact .attempt hp hs
  | replied state reply =>
    cases hp : t.phase <;> simp only [next?, hp, reduceCtorEq] at h
    case calling s => cases s <;> exact does_of_reply hp (Option.some.inj h)
  | rested =>
    cases hp : t.phase <;> simp only [next?, hp, reduceCtorEq, Option.some.injEq] at h
    obtain ⟨rfl, rfl⟩ := Prod.ext_iff.1 h
    exact .rest hp
  | fed next =>
    cases hp : t.phase <;> cases next <;>
      simp only [next?, hp, reduceCtorEq, Option.some.injEq] at h
    · split at h <;> obtain ⟨rfl, rfl⟩ := Prod.ext_iff.1 (Option.some.inj h)
      · next products => exact .ignore hp products
      · next products => exact .receive hp products
    · obtain ⟨rfl, rfl⟩ := Prod.ext_iff.1 h
      exact .giveUp hp

/-- A task begins once. -/
theorem Does.begun {i : Signal} (h : Does t i u es) : u.phase ≠ .fresh := by
  cases h with
  | stay phase | ignore phase => simp [phase]
  | _ => simp

theorem does_of_signal {i : Signal} (h : t.take? (.signal i) = some (u, es)) : Does t i u es :=
  does_of_next? h

end

end Task

end Restock
