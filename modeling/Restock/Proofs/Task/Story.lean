import Restock.Proofs.Task.Attempts

/-! The story that a task tells.

A task tells its observers where it is by events of its own. They come in chapters:
the login of a task with a credential, the wait for a wave, and the checkout steps.
Each chapter opens with one update and goes on with the retries of its step, of
which the k-th tells of the k-th attempt and of what the decider made of it.
`Story` says which events tell which chapters; it is the grammar that the events of
a task keep to. A run that ends closes its story with one more event and is silent
from then on (`Narrative`). -/
namespace Restock.Task

/-! ### What a trail shows -/

/-- An event about a task itself. -/
def Effect.told? : Effect → Option Event
  | .publish (.task t s type payload) => some (.task t s type payload)
  | _ => none

/-- The events about the task itself, in their order. -/
def toldOf (w : Legs) : List Event := (effectsOf w).filterMap Effect.told?

/-- How the k-th attempt at a step failed, if it did. -/
def failureAt (w : Legs) (s : Step) (k : Nat) : Option (StepFailure × Bool) :=
  ((repliesTo w s)[k - 1]?).bind (Reply.failure? s)

/-! ### Stories -/

inductive Chapter
  | step (s : Step)
  /-- The wait for a wave. -/
  | wave
  deriving DecidableEq

def Chapter.status : Chapter → TaskStatus
  | .step s => s.status
  | .wave => .waitingForMonitor

/-- The chapters before the wait for a wave. -/
def lead (c : TaskContext) : List Chapter := if c.credential.isSome then [.step .login] else []

/-- All chapters of a checkout. -/
def plan (c : TaskContext) : List Chapter := lead c ++ .wave :: Step.checkout.map .step

def opening (c : TaskContext) : Event := .task c.taskId .settingUp .start Event.noPayload

def update (c : TaskContext) (ch : Chapter) : Event :=
  .task c.taskId ch.status .update Event.noPayload

/-- The event that announces another attempt after the k-th. -/
def retrial (c : TaskContext) (s : Step) (delay : Duration) (reason : String) (k : Nat) : Event :=
  .task c.taskId s.status .update
    (.ofMembers [("retry_in_ms", .ofNat (UInt64.ofNat delay.millis).toNat),
      ("reason", .string reason), ("attempt", .ofNat k)])

/-- The events tell these chapters, the last of them with so many retries. -/
inductive Story (c : TaskContext) (d : Decider)
    (failed : Step → Nat → Option (StepFailure × Bool)) : List Chapter → Nat → List Event → Prop
  | opening : Story c d failed [] 0 [opening c]
  | turn {cs : List Chapter} {k : Nat} {es : List Event} (past : Story c d failed cs k es)
    (ch : Chapter) : Story c d failed (cs ++ [ch]) 0 (es ++ [update c ch])
  | retry {cs : List Chapter} {s : Step} {k : Nat} {es : List Event} {f : StepFailure}
    {terminal : Bool} {delay : Duration} {reason : String}
    (past : Story c d failed (cs ++ [.step s]) k es)
    (failure : failed s (k + 1) = some (f, terminal))
    (decided : d ⟨s, .ofNat (k + 1), f, terminal⟩ = some (.retry delay reason)) :
    Story c d failed (cs ++ [.step s]) (k + 1) (es ++ [retrial c s delay reason (k + 1)])

/-- The last event of a run that ends short of an order. -/
def lastWord (c : TaskContext) : Halt → Event
  | .failed s reason => .task c.taskId s .fail (.ofMembers [("reason", .string reason)])
  | .stopped => .task c.taskId .idle .stop Event.noPayload

def ordered (c : TaskContext) (number : Option String) : Event :=
  .task c.taskId .checkedOut .complete (.ofMembers [("order_number", .ofOption .string number)])

/-- The event that closes a story of these chapters. A run fails on the decider's
word about the last attempt of its last chapter, or for want of a session; it is
complete once every chapter was told and the order was placed. -/
inductive Closing (c : TaskContext) (d : Decider) (w : Legs) (cs : List Chapter)
    (number : Option String) : Event → Prop
  | stopped : Closing c d w cs number (lastWord c .stopped)
  | aborted {s : Step} {f : StepFailure} {terminal : Bool} {status : TaskStatus} {reason : String}
    (last : cs.getLast? = some (.step s))
    (failure : failureAt w s (repliesTo w s).length = some (f, terminal))
    (decided : d ⟨s, .ofNat (repliesTo w s).length, f, terminal⟩ = some (.abort status reason)) :
    Closing c d w cs number (lastWord c (.failed status reason))
  | sessionless (login : (repliesTo w .login).getLast? = some (.outcome (.success none))) :
    Closing c d w cs number (lastWord c (.failed .checkoutFailed "login produced no session"))
  | complete (all : cs = plan c) {v : Option Session}
    (placed : (repliesTo w .placeOrder).getLast? = some (.outcome (.success v))) :
    Closing c d w cs number (ordered c number)

/-- How a task that went through a trail has told its story: not at all, up to a
chapter of the plan with more to come, or to its last event. -/
inductive Narrative (c : TaskContext) (d : Decider) (w : Legs) (t : Task) : Prop
  | unbegun (phase : t.phase = .fresh) (silent : toldOf w = [])
  | underWay {cs : List Chapter} {k : Nat} (part : cs <+: plan c)
    (story : Story c d (failureAt w) cs k (toldOf w)) (live : ∃ i, (t.next? i).isSome = true)
  | closed {cs : List Chapter} {k : Nat} {es : List Event} {e : Event} (part : cs <+: plan c)
    (story : Story c d (failureAt w) cs k es) (told : toldOf w = es ++ [e])
    (closing : Closing c d w cs t.state.orderNumber e) (phase : t.phase = .ended)
    (deaf : ∀ i, t.next? i = none)

/-! ### One more leg -/

section
variable {c : TaskContext} {d : Decider} {w : Legs} {l : Leg Task (Stimulus Signal) Effect}
  {t u : Task} {cs : List Chapter} {k : Nat}

theorem toldOf_snoc (w : Legs) (l : Leg Task (Stimulus Signal) Effect) :
    toldOf (w ++ [l]) = toldOf w ++ l.effects.filterMap Effect.told? := by
  simp [toldOf, List.filterMap_append]

/-- What is known of a failure does not change. -/
theorem failureAt_snoc {s : Step} {k : Nat} {x : StepFailure × Bool}
    (h : failureAt w s k = some x) : failureAt (w ++ [l]) s k = some x := by
  obtain ⟨r, hr, hf⟩ := Option.bind_eq_some_iff.1 h
  have hlt := (List.getElem?_eq_some_iff.1 hr).1
  rw [failureAt, repliesTo_snoc, List.getElem?_append_left hlt, hr]
  exact hf

theorem Story.snoc {es : List Event} (h : Story c d (failureAt w) cs k es) :
    Story c d (failureAt (w ++ [l])) cs k es := by
  induction h with
  | opening => exact .opening
  | turn _ ch ih => exact ih.turn ch
  | retry _ failure decided ih => exact ih.retry (failureAt_snoc failure) decided

/-- The status that a task shows after these chapters. -/
def shown (cs : List Chapter) : TaskStatus := (cs.getLast?.map Chapter.status).getD .settingUp

@[simp] theorem shown_snoc (cs : List Chapter) (ch : Chapter) : shown (cs ++ [ch]) = ch.status := by
  simp [shown]

/-- A trail has told these chapters, and the task shows the last of them. -/
structure Telling (c : TaskContext) (d : Decider) (w : Legs) (t : Task) (cs : List Chapter)
    (k : Nat) : Prop where
  told : Story c d (failureAt w) cs k (toldOf w)
  status : t.status = shown cs
  unmet : ∀ s, .step s ∉ cs → repliesTo w s = []

theorem Telling.first (ch : Chapter) (told : toldOf w = [opening c, update c ch])
    (status : t.status = ch.status) (unmet : ∀ s, repliesTo w s = []) :
    Telling c d w t [ch] 0 := by
  refine ⟨?_, status, fun s _ => unmet s⟩
  rw [told]
  exact Story.opening.turn ch

/-- A leg that tells nothing leaves the story where it is; a reply is one to a step
that was told of. -/
theorem Telling.silent (h : Telling c d w t cs k) (told : l.effects.filterMap Effect.told? = [])
    (status : u.status = t.status) (met : ∀ s, .step s ∉ cs → replyTo? s l = none) :
    Telling c d (w ++ [l]) u cs k := by
  refine ⟨?_, status.trans h.status, fun s hs => ?_⟩
  · rw [toldOf_snoc, told, List.append_nil]
    exact h.told.snoc
  · rw [repliesTo_snoc, h.unmet s hs, met s hs]
    rfl

/-- A leg that opens the next chapter. -/
theorem Telling.turn (h : Telling c d w t cs k) (ch : Chapter)
    (told : l.effects.filterMap Effect.told? = [update c ch]) (status : u.status = ch.status)
    (met : ∀ s, .step s ∉ cs → replyTo? s l = none) : Telling c d (w ++ [l]) u (cs ++ [ch]) 0 := by
  refine ⟨?_, by rw [status, shown_snoc], fun s hs => ?_⟩
  · rw [toldOf_snoc, told]
    exact h.told.snoc.turn ch
  · have hs : .step s ∉ cs := fun hm => hs (List.mem_append_left _ hm)
    rw [repliesTo_snoc, h.unmet s hs, met s hs]
    rfl

/-- A leg with a failure that the decider answers by another attempt. -/
theorem Telling.retry {s : Step} (h : Telling c d w t (cs ++ [.step s]) k) {r : Reply}
    {f : StepFailure} {terminal : Bool} {delay : Duration} {reason : String}
    (count : k = (repliesTo w s).length) (reply : replyTo? s l = some r)
    (others : ∀ s', s' ≠ s → replyTo? s' l = none) (failed : r.failure? s = some (f, terminal))
    (decided : d ⟨s, .ofNat (k + 1), f, terminal⟩ = some (.retry delay reason))
    (told : l.effects.filterMap Effect.told? = [retrial c s delay reason (k + 1)])
    (status : u.status = s.status) : Telling c d (w ++ [l]) u (cs ++ [.step s]) (k + 1) := by
  refine ⟨?_, by rw [status, shown_snoc]; rfl, fun s' hs => ?_⟩
  · rw [toldOf_snoc, told]
    refine h.told.snoc.retry ?_ decided
    rw [failureAt, repliesTo_snoc, reply, count]
    simp [failed]
  · have hne : s' ≠ s := by
      intro same
      subst same
      exact hs (List.mem_append_right _ (List.mem_singleton_self _))
    rw [repliesTo_snoc, h.unmet s' hs, others s' hne]
    rfl

end

end Restock.Task
