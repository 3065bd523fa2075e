import Mathlib.Algebra.Group.Nat.Defs
import Restock.Proofs.Task.Story

/-! A task tells its story.

Each phase of a task has its place in the story (`Place`), and `Chronicle` is what a
trail has told when the task is in a phase. Every step of a task keeps it, so the
events of every run are a story of the first chapters of the plan, and a run that
has ended closed it with one event (`story_of_a_run`). -/
namespace Restock.Task

/-- The chapters that come before the one of a step. -/
def before (c : TaskContext) : Step → List Chapter
  | .login => []
  | s => lead c ++ .wave :: (Step.checkout.takeWhile (· ≠ s)).map .step

/-- The chapter of the step is the last one, and every attempt but the one that is
going on was told to be tried again. -/
structure Within (c : TaskContext) (w : Legs) (s : Step) (cs : List Chapter) (k : Nat) : Prop where
  chapters : cs = before c s ++ [.step s]
  retries : k = (repliesTo w s).length
  member : s = .login → c.credential.isSome

/-- Where in its story a task in a phase is. -/
def Place (c : TaskContext) (w : Legs) (cs : List Chapter) (k : Nat) : Phase → Prop
  | .electing | .awaitingLogin => Within c w .login cs k
  | .entering s => (s ≠ .login ∧ cs = before c s) ∨ Within c w s cs k
  | .calling s | .pausing s _ => Within c w s cs k
  | .awaitingWave => cs = before c .addToCart
  | .fresh | .ended | .crashed => False

/-- What a trail has told. -/
inductive Chronicle (c : TaskContext) (d : Decider) (w : Legs) (t : Task) : Prop
  | unwritten (phase : t.phase = .fresh) (told : toldOf w = []) (unmet : ∀ s, repliesTo w s = [])
  | underWay {cs : List Chapter} {k : Nat} (place : Place c w cs k t.phase)
    (telling : Telling c d w t cs k)
  | closed {cs : List Chapter} {k : Nat} {es : List Event} {e : Event} (phase : t.phase = .ended)
    (part : cs <+: plan c) (story : Story c d (failureAt w) cs k es) (told : toldOf w = es ++ [e])
    (closing : Closing c d w cs t.state.orderNumber e)

section
variable {c : TaskContext} {d : Decider} {w : Legs} {l : Leg Task (Stimulus Signal) Effect}
  {t u : Task} {s n : Step} {cs : List Chapter} {k : Nat} {i : Signal} {es : List Effect}

/-! ### Places -/

theorem before_next (checkout : s ≠ .login) (onward : s.next? = some n) :
    before c n = before c s ++ [.step s] := by
  cases s <;> cases n <;> simp_all [before, Step.next?, Step.checkout]

theorem before_placeOrder (c : TaskContext) :
    before c .placeOrder ++ [.step .placeOrder] = plan c := by
  simp [before, plan, Step.checkout]

theorem Within.prefix (h : Within c w s cs k) : cs <+: plan c := by
  obtain ⟨rfl, -, member⟩ := h
  cases s with
  | login => simp [before, plan, lead, member rfl]
  | _ => simp [before, plan, Step.checkout]

theorem Place.prefix {p : Phase} (h : Place c w cs k p) : cs <+: plan c := by
  cases p with
  | electing | awaitingLogin | calling | pausing => exact Within.prefix h
  | entering s =>
    rcases h with ⟨checkout, rfl⟩ | h
    · cases s <;> simp_all [before, plan, Step.checkout]
    · exact Within.prefix h
  | awaitingWave =>
    obtain rfl : cs = _ := h
    simp [before, plan, Step.checkout]
  | fresh | ended | crashed => exact h.elim

/-- Before its first attempt at a step a task shows another status. -/
theorem shown_before (s : Step) : shown (before c s) ≠ s.status := by
  cases s <;> simp [before, shown, Step.checkout, Chapter.status, Step.status]

theorem not_mem_before (checkout : s ≠ .login) : .step s ∉ before c s := by
  cases s <;> simp_all [before, Step.checkout, lead]

/-! ### What the steps tell -/

theorem told_turn (t : Task) (s : TaskStatus) (type : EventType) (payload : Json) :
    (t.turn s type payload).2.filterMap Effect.told? =
      if t.status = s then [] else [.task t.context.taskId s type payload] := by
  unfold turn
  split
  · rfl
  · simp [announce, Effect.told?]

theorem told_close (t : Task) (h : Halt) :
    (t.close h).2.filterMap Effect.told? = [lastWord t.context h] := by
  cases h <;> rfl

theorem told_halt (t : Task) (h : Halt) :
    (t.halt h).2.filterMap Effect.told? = [lastWord t.context h] := by
  unfold halt
  split
  · exact told_close t h
  · cases h <;> rfl

theorem told_adopt (t : Task) (v : Session) (o : AuthOutcome) :
    (t.adopt v o).2.filterMap Effect.told? =
      if t.status = .waitingForMonitor then [] else [update t.context .wave] := by
  simp only [adopt, awaitWave]
  rw [List.filterMap_cons_none rfl, told_turn]
  rfl

theorem told_share (t : Task) (v : Session) :
    (t.share v).2.filterMap Effect.told? =
      if t.status = .waitingForMonitor then [] else [update t.context .wave] := by
  rw [share, List.filterMap_append, told_adopt]
  cases t.guard <;> rfl

theorem told_attempt (t : Task) (s : Step) :
    (t.attempt s).2.filterMap Effect.told? =
      if t.status = s.status then [] else [update t.context (.step s)] := by
  rw [attempt, List.filterMap_append, told_turn]
  exact List.append_nil _

theorem told_pause (t : Task) (s : Step) (delay : Duration) (reason : String) :
    (t.pause s delay reason).2.filterMap Effect.told? =
      [retrial t.context s delay reason (t.attemptsAt s).toNat] := rfl

theorem status_turn (t : Task) (s : TaskStatus) (type : EventType) (payload : Json) :
    (t.turn s type payload).1.status = s := by
  unfold turn
  split
  · assumption
  · rfl

/-! ### One more step -/

theorem replyTo?_replied (phase : t.phase = .calling s) (state : CheckoutState) (r : Reply) :
    replyTo? s ⟨t, .signal (.replied state r), es, u⟩ = some r := by
  simp [replyTo?, phase]

theorem Does.unanswered (h : Does t i u es) (phase : t.phase ≠ .calling s) :
    replyTo? s ⟨t, .signal i, es, u⟩ = none := by
  rw [← Option.not_isSome_iff_eq_none, h.replied]
  exact phase

/-- The driver answers one call at a time. -/
theorem unanswered_other {s' : Step} {i : Stimulus Signal} (phase : t.phase = .calling s)
    (hs : s' ≠ s) : replyTo? s' ⟨t, i, es, u⟩ = none := by
  unfold replyTo?
  split
  · exact if_neg fun h => hs (Phase.calling.inj (h.symm.trans phase))
  · rfl

theorem getLast?_replies {r : Reply} (reply : replyTo? s l = some r) :
    (repliesTo (w ++ [l]) s).getLast? = some r := by
  simp [repliesTo_snoc, reply]

theorem failureAt_last {r : Reply} {f : StepFailure} {terminal : Bool}
    (reply : replyTo? s l = some r) (failed : r.failure? s = some (f, terminal)) :
    failureAt (w ++ [l]) s (repliesTo (w ++ [l]) s).length = some (f, terminal) := by
  rw [failureAt, ← List.getLast?_eq_getElem?, getLast?_replies reply]
  exact failed

/-- The attempt that is answered is the last of those that were. -/
theorem Counted.answered {r : Reply} (h : Counted c d w t) (phase : t.phase = .calling s)
    (reply : replyTo? s l = some r) : t.attemptsAt s = .ofNat (repliesTo (w ++ [l]) s).length := by
  rw [h.attempts, h.calls, if_pos phase, repliesTo_snoc, reply]
  simp

/-- Replies come only to steps that were told of. -/
theorem Place.met (h : Place c w cs k t.phase) (does : Does t i u es) (hs : .step s ∉ cs) :
    replyTo? s ⟨t, .signal i, es, u⟩ = none := by
  refine does.unanswered fun phase => hs ?_
  rw [phase] at h
  rw [Within.chapters h]
  simp

theorem Within.silent (h : Within c w s cs k) (unanswered : replyTo? s l = none) :
    Within c (w ++ [l]) s cs k := by
  refine ⟨h.chapters, ?_, h.member⟩
  rw [repliesTo_snoc, unanswered, h.retries]
  simp

theorem Within.shown (h : Within c w s cs k) (telling : Telling c d w t cs k) :
    t.status = s.status := by
  rw [telling.status, h.chapters, shown_snoc]
  rfl

theorem Chronicle.close {e : Event} (place : Place c w cs k t.phase)
    (telling : Telling c d w t cs k) (phase : u.phase = .ended) (told : l.effects.filterMap Effect.told? = [e])
    (closing : Closing c d (w ++ [l]) cs u.state.orderNumber e) : Chronicle c d (w ++ [l]) u :=
  .closed phase place.prefix telling.told.snoc (by rw [toldOf_snoc, told]) closing

/-- With a session the wait for a wave begins. -/
theorem Chronicle.awaitWave (within : Within c w .login cs k) (telling : Telling c d w t cs k)
    (told : l.effects.filterMap Effect.told? =
      if t.status = .waitingForMonitor then [] else [update c .wave])
    (status : u.status = .waitingForMonitor) (phase : u.phase = .awaitingWave)
    (met : ∀ s, .step s ∉ cs → replyTo? s l = none) : Chronicle c d (w ++ [l]) u := by
  have told : l.effects.filterMap Effect.told? = [update c .wave] := by
    rw [told, within.shown telling]
    rfl
  refine .underWay ?_ (telling.turn .wave told status met)
  rw [phase, within.chapters]
  simp [Place, before, lead, within.member, Step.checkout]

theorem Chronicle.abort {r : Reply} {f : StepFailure} {terminal : Bool} {status : TaskStatus}
    {reason : String} (within : Within c w s cs k) (telling : Telling c d w t cs k)
    (counted : Counted c d w t) (phase : t.phase = .calling s) (reply : replyTo? s l = some r)
    (failed : r.failure? s = some (f, terminal))
    (decided : d ⟨s, t.attemptsAt s, f, terminal⟩ = some (.abort status reason))
    (told : l.effects.filterMap Effect.told? = [lastWord c (.failed status reason)])
    (ended : u.phase = .ended) : Chronicle c d (w ++ [l]) u := by
  have place : Place c w cs k t.phase := by rw [phase]; exact within
  refine .close place telling ended told (.aborted ?_ (failureAt_last reply failed) ?_)
  · rw [within.chapters, List.getLast?_concat]
  · rw [← counted.answered phase reply]
    exact decided

/-- After a failed attempt that is to be tried again the story tells of it. -/
theorem Chronicle.retry {r : Reply} {f : StepFailure} {terminal : Bool} {delay : Duration}
    {reason : String} (within : Within c w s cs k) (telling : Telling c d w t cs k)
    (counted : Counted c d w t) (few : callsOf w s < 2 ^ 32) (phase : t.phase = .calling s)
    (reply : replyTo? s l = some r) (others : ∀ s', s' ≠ s → replyTo? s' l = none)
    (failed : r.failure? s = some (f, terminal))
    (decided : d ⟨s, t.attemptsAt s, f, terminal⟩ = some (.retry delay reason))
    (told : l.effects.filterMap Effect.told? = [retrial c s delay reason (t.attemptsAt s).toNat])
    (status : u.status = s.status) (paused : u.phase = .pausing s delay) :
    Chronicle c d (w ++ [l]) u := by
  obtain ⟨rfl, retries, member⟩ := within
  have length : (repliesTo (w ++ [l]) s).length = k + 1 := by
    rw [repliesTo_snoc, reply, retries]
    simp
  have attempts : t.attemptsAt s = .ofNat (k + 1) := length ▸ counted.answered phase reply
  have small : k + 1 < 2 ^ 32 := by
    rw [counted.calls, if_pos phase, ← retries] at few
    exact few
  rw [attempts] at decided told
  rw [UInt32.toNat_ofNat_of_lt' small] at told
  refine .underWay ?_ (telling.retry retries reply others failed decided told status)
  rw [paused]
  exact ⟨rfl, length.symm, member⟩

theorem Chronicle.begin (phase : t.phase = .fresh) (told : toldOf w = [])
    (unmet : ∀ s, repliesTo w s = []) (does : Does t i u es) :
    Chronicle t.context d (w ++ [⟨t, .signal i, es, u⟩]) u := by
  have unmet : ∀ s, repliesTo (w ++ [⟨t, .signal i, es, u⟩]) s = [] := by
    intro s
    rw [repliesTo_snoc, unmet, does.unanswered (by simp [phase])]
    rfl
  cases does with
  | beginGuest _ guest =>
    refine .underWay ?_ (.first .wave (by rw [toldOf_snoc, told]; rfl) rfl unmet)
    simp [Place, before, lead, guest, Step.checkout]
  | beginMember _ member =>
    refine .underWay ⟨rfl, ?_, fun _ => member⟩
      (.first (.step .login) (by rw [toldOf_snoc, told]; rfl) rfl unmet)
    rw [unmet]
    rfl
  | stop looks => simp [phase, Phase.looks] at looks
  | _ => simp_all

/-- A step of a task that is under way goes on with the story or closes it. -/
theorem Chronicle.goOn (place : Place t.context w cs k t.phase)
    (telling : Telling t.context t.decider w t cs k) (counted : Counted t.context t.decider w t)
    (does : Does t i u es) (answers : ∀ a, t.decider a ≠ none)
    (caught : ∀ s, .crashed ∉ repliesTo (w ++ [⟨t, .signal i, es, u⟩]) s)
    (few : ∀ s, callsOf w s < 2 ^ 32) :
    Chronicle t.context t.decider (w ++ [⟨t, .signal i, es, u⟩]) u := by
  have met : ∀ s, .step s ∉ cs → replyTo? s ⟨t, .signal i, es, u⟩ = none :=
    fun s hs => place.met does hs
  cases does with
  | beginGuest phase | beginMember phase =>
    rw [phase] at place
    exact place.elim
  | stop looks flag => exact .close place telling (phase_halt ..) (told_halt ..) .stopped
  | adopt phase flag v | adoptLater phase flag v =>
    have within : Within t.context w .login cs k := by rwa [phase] at place
    exact .awaitWave within telling (told_adopt ..) (status_turn ..) rfl met
  | wait phase | elect phase =>
    have within : Within t.context w .login cs k := by rwa [phase] at place
    refine .underWay (within.silent ?_) (telling.silent rfl rfl met)
    simp [replyTo?]
  | claim phase =>
    have within : Within t.context w .login cs k := by rwa [phase] at place
    refine .underWay (.inr (within.silent ?_)) (telling.silent rfl rfl met)
    simp [replyTo?]
  | stay phase =>
    have within : Within t.context w .login cs k := by rwa [phase] at place
    refine .underWay ?_ (telling.silent rfl rfl met)
    rw [phase]
    exact within.silent (by simp [replyTo?])
  | @attempt s phase flag =>
    rw [phase] at place
    rcases place with ⟨checkout, rfl⟩ | within
    · have told : (t.attempt s).2.filterMap Effect.told? = [update t.context (.step s)] := by
        rw [told_attempt, telling.status, if_neg (shown_before s)]
      refine .underWay ⟨rfl, ?_, fun login => absurd login checkout⟩
        (telling.turn (.step s) told (status_turn ..) met)
      have hs := not_mem_before (c := t.context) checkout
      rw [repliesTo_snoc, telling.unmet s hs, met s hs]
      rfl
    · have told : (t.attempt s).2.filterMap Effect.told? = [] := by
        rw [told_attempt, if_pos (within.shown telling)]
      have status : (t.attempt s).1.status = t.status :=
        (status_turn ..).trans (within.shown telling).symm
      exact .underWay (within.silent (by simp [replyTo?])) (telling.silent told status met)
  | share phase state v =>
    have within : Within t.context w .login cs k := by rwa [phase] at place
    exact .awaitWave within telling (told_share ..) (status_turn ..) rfl met
  | sessionless phase state =>
    exact .close place telling (phase_halt ..) (told_halt ..)
      (.sessionless (getLast?_replies (replyTo?_replied phase state _)))
  | advance phase checkout onward state v =>
    rw [phase] at place
    refine .underWay (.inl ⟨Step.ne_login_of_next onward, ?_⟩) (telling.silent rfl rfl met)
    rw [before_next checkout onward, Within.chapters place]
  | complete phase state v =>
    have within : Within t.context w .placeOrder cs k := by rwa [phase] at place
    exact .close place telling rfl rfl (.complete (within.chapters.trans (before_placeOrder _))
      (getLast?_replies (replyTo?_replied phase state _)))
  | undecided phase state failed decided => exact absurd decided (answers _)
  | @yield s phase state r f terminal failed decided =>
    have told := told_halt (t.called s state) .stopped
    rw [(steady_called t s state).context] at told
    exact .close place telling (phase_halt ..) told .stopped
  | @abort s phase state r f terminal failed status reason decided =>
    have told := told_halt (t.called s state) (.failed status reason)
    rw [(steady_called t s state).context] at told
    rw [phase] at place
    exact .abort place telling counted phase (replyTo?_replied phase state r) failed decided told
      (phase_halt ..)
  | @pause s phase state r f terminal failed delay reason decided =>
    have told := told_pause (t.called s state) s delay reason
    rw [(steady_called t s state).context, attemptsAt_called] at told
    rw [phase] at place
    exact .retry place telling counted (few s) phase (replyTo?_replied phase state r)
      (fun s' hs => unanswered_other phase hs) failed decided told rfl rfl
  | @crash s phase state =>
    exact absurd (List.mem_of_getLast? (getLast?_replies (replyTo?_replied phase state _)))
      (caught s)
  | rest phase =>
    rw [phase] at place
    refine .underWay (.inr (Within.silent place ?_)) (telling.silent rfl rfl met)
    simp [replyTo?]
  | receive phase products =>
    rw [phase] at place
    exact .underWay (.inl ⟨by decide, place⟩) (telling.silent rfl rfl met)
  | ignore phase products =>
    refine .underWay ?_ (telling.silent rfl rfl met)
    rw [phase] at place ⊢
    exact place
  | giveUp phase => exact .close place telling (phase_halt ..) (told_halt ..) .stopped

theorem Place.silent {p : Phase} (h : Place c w cs k p) (unanswered : ∀ s, replyTo? s l = none) :
    Place c (w ++ [l]) cs k p := by
  cases p with
  | electing | awaitingLogin | calling | pausing => exact Within.silent h (unanswered _)
  | entering s => exact h.imp_right fun h => h.silent (unanswered s)
  | awaitingWave | fresh | ended | crashed => exact h

theorem Closing.silent {number : Option String} {e : Event} (h : Closing c d w cs number e)
    (unanswered : ∀ s, replyTo? s l = none) : Closing c d (w ++ [l]) cs number e := by
  have replies : ∀ s, repliesTo (w ++ [l]) s = repliesTo w s := by
    intro s
    rw [repliesTo_snoc, unanswered]
    exact List.append_nil _
  cases h with
  | stopped => exact .stopped
  | aborted last failure decided =>
    have failure := failureAt_snoc (l := l) failure
    rw [← replies] at failure decided
    exact .aborted last failure decided
  | sessionless login => exact .sessionless (by rw [replies]; exact login)
  | complete all placed => exact .complete all (by rw [replies]; exact placed)

/-- The flag may be raised at any time; that alone tells nothing. -/
theorem Chronicle.stop (h : Chronicle c d w t) :
    Chronicle c d (w ++ [⟨t, .stop, [], t.stop⟩]) t.stop := by
  have told : toldOf (w ++ [⟨t, .stop, [], t.stop⟩]) = toldOf w := by
    rw [toldOf_snoc]
    exact List.append_nil _
  cases h with
  | unwritten phase unsaid unmet =>
    refine .unwritten phase (told.trans unsaid) fun s => ?_
    rw [repliesTo_snoc, unmet]
    rfl
  | underWay place telling =>
    exact .underWay (place.silent fun _ => rfl) (telling.silent rfl rfl fun _ _ => rfl)
  | closed phase part story said closing =>
    exact .closed phase part story.snoc (told.trans said) (closing.silent fun _ => rfl)

/-- No signal is for a task that has ended. -/
theorem Does.live (h : Does t i u es) : t.phase ≠ .ended ∧ t.phase ≠ .crashed := by
  cases h with
  | stop looks => constructor <;> intro hp <;> simp [hp, Phase.looks] at looks
  | _ => simp_all

theorem callsOf_le_snoc (w : Legs) (l : Leg Task (Stimulus Signal) Effect) (s : Step) :
    callsOf w s ≤ callsOf (w ++ [l]) s := by
  rw [callsOf_snoc]
  exact Nat.le_add_right ..

theorem chronicle_of_trail (h : Trail take? (Task.new c d) w t) (answers : ∀ a, d a ≠ none)
    (caught : ∀ s, .crashed ∉ repliesTo w s) (few : ∀ s, callsOf w s < 2 ^ 32) :
    Chronicle c d w t := by
  induction h with
  | rest => exact .unwritten rfl rfl fun _ => rfl
  | @step w t u i es past taken ih =>
    have fewer : ∀ s, callsOf w s < 2 ^ 32 :=
      fun s => Nat.lt_of_le_of_lt (callsOf_le_snoc w _ s) (few s)
    have caught' : ∀ s, .crashed ∉ repliesTo w s := by
      intro s hs
      refine caught s ?_
      rw [repliesTo_snoc]
      exact List.mem_append_left _ hs
    have ih := ih caught' fewer
    have counted := counted_of_trail past
    cases i with
    | stop =>
      obtain ⟨rfl, rfl⟩ := Prod.ext_iff.1 (Option.some.inj taken)
      exact ih.stop
    | signal i =>
      have does := does_of_signal taken
      obtain rfl := counted.context
      obtain rfl := counted.decider
      cases ih with
      | unwritten phase told unmet => exact .begin phase told unmet does
      | underWay place telling => exact .goOn place telling counted does answers caught fewer
      | closed phase => exact absurd phase does.live.1

/-! ### Runs -/

/-- A task that has not ended waits for something. -/
theorem waits (h : t.ended = false) : ∃ i, (t.next? i).isSome = true := by
  cases hp : t.phase with
  | fresh => exact ⟨.begin, by simp [next?, hp]⟩
  | electing =>
    cases hs : t.stopping
    · exact ⟨.elected .inProgress, by simp [next?, hp, hs]⟩
    · exact ⟨.notice, by simp [next?, hp, hs]⟩
  | awaitingLogin =>
    cases hs : t.stopping
    · exact ⟨.looked .vacant, by simp [next?, hp, hs]⟩
    · exact ⟨.notice, by simp [next?, hp, hs]⟩
  | entering s =>
    cases hs : t.stopping
    · exact ⟨.proceed, by simp [next?, hp, hs]⟩
    · exact ⟨.notice, by simp [next?, hp, hs]⟩
  | calling s => exact ⟨.replied t.state .panicked, by cases s <;> simp [next?, hp]⟩
  | pausing => exact ⟨.rested, by simp [next?, hp]⟩
  | awaitingWave => exact ⟨.fed .closed, by simp [next?, hp]⟩
  | ended | crashed => simp [Task.ended, hp] at h

/-- Every run of a task tells the chapters of its plan in their order, the attempts
of each step in theirs, and closes with one event. -/
theorem story_of_a_run (h : Trail take? (Task.new c d) w t) (answers : ∀ a, d a ≠ none)
    (caught : ∀ s, .crashed ∉ repliesTo w s) (few : ∀ s, callsOf w s < 2 ^ 32) :
    Narrative c d w t := by
  cases chronicle_of_trail h answers caught few with
  | unwritten phase told => exact .unbegun phase told
  | underWay place telling =>
    refine .underWay place.prefix telling.told (waits ?_)
    cases hp : t.phase <;> simp_all [Task.ended, Place]
  | closed phase part story told closing =>
    refine .closed part story told closing phase fun i => ?_
    cases hi : t.next? i with
    | none => rfl
    | some => exact absurd phase (does_of_next? hi).live.1

end

def member : TaskContext := { (default : TaskContext) with credential := some ⟨"a@b.c", "hunter2"⟩ }

/-- Tries again, but for terminal failures. -/
def patient : Decider := fun a =>
  if a.terminal then some (.abort a.ending a.failure.reason)
  else some (.retry (.ofMillis 250) "again")

/-- A login that takes two attempts, a product, and a cart that the retailer refuses
for good after a panic of the driver. -/
def refused : List (Stimulus Signal) :=
  [.signal .begin, .signal (.elected (.claimed ⟨⟨default, "a@b.c"⟩, 0⟩)), .signal .proceed,
    .signal (.replied .empty (.outcome (.retry ⟨.transient, "busy", none⟩))), .signal .rested,
    .signal .proceed, .signal (.replied .empty (.outcome (.success (some ⟨"a@b.c", .null⟩)))),
    .signal (.fed (.wave ⟨"demo", default, [default]⟩)), .signal .proceed,
    .signal (.replied .empty .panicked), .signal .rested, .signal .proceed,
    .signal (.replied .empty (.outcome (.terminal ⟨.authoritativeRejection, "sold", none⟩)))]

theorem story_of_a_refusal :
    ∃ w t, Trail take? (Task.new member patient) w t ∧ Narrative member patient w t ∧
      (toldOf w).length = 7 ∧ (repliesTo w .login).length = 2 ∧
      (repliesTo w .addToCart).length = 2 ∧ t.phase = .ended := by
  have h := Trail.of_inputs take? (Task.new member patient) refused
  have answers : ∀ a, patient a ≠ none := by
    intro a
    unfold patient
    split <;> simp
  refine ⟨_, _, h, story_of_a_run h answers ?_ ?_, by decide, by decide, by decide, by decide⟩
  · intro s
    cases s <;> decide
  · intro s
    cases s <;> decide

end Restock.Task
