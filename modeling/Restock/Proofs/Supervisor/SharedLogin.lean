import Restock.Proofs.Supervisor.Accounts

/-! Shared logins.

The tasks of a supervisor that share an account log in to it once. Along every trail
each account stands as it may (`Standing`), and what a task has told of its account
is what its login came to, which is once at most (`Told`). From this follows what is
promised to the tasks that share an account (`logins_are_shared`). -/
namespace Restock

namespace Supervisor

/-- What the login of the task at a place came to. -/
def outcomesAt (n : Nat) (w : Legs) : List AuthOutcome :=
  w.filterMap fun l => (tasksAt? n l).bind fun (t, u) => t.outcome? u (eventsAmong l.effects)

/-- The task at a place was stopped, or crashed, in its login. -/
def QuitsAt (n : Nat) (l : Leg Supervisor Occasion Happening) : Prop :=
  ∃ t u, tasksAt? n l = some (t, u) ∧ t.quits u (eventsAmong l.effects) = true

/-- What a task has told of its account. -/
def authsBy (w : Legs) (t : TaskId) : List Auth := (authsOf w).filter fun a => a.task = t

/-- The login of the task at a place is not over. -/
def Undecided (w : Legs) (n : Nat) : Prop := outcomesAt n w = [] ∧ ∀ l ∈ w, ¬ QuitsAt n l

structure Told (w : Legs) (n : Nat) (t : Task) : Prop where
  tally : authsBy w t.context.taskId = (outcomesAt n w).map t.auth
  once : (outcomesAt n w).length ≤ 1
  early : t.phase.early = true → Undecided w n
  quiet : ∀ l ∈ w, QuitsAt n l → outcomesAt n w = []

section
variable {w : Legs} {l : Leg Supervisor Occasion Happening} {n : Nat} {t u : Task}

theorem authsBy_snoc (w : Legs) (l : Leg Supervisor Occasion Happening) (t : TaskId) :
    authsBy (w ++ [l]) t = authsBy w t ++ (authsAmong l.effects).filter fun a => a.task = t := by
  rw [authsBy, authsOf_snoc, List.filter_append, ← authsBy]

theorem outcomesAt_snoc (n : Nat) (w : Legs) (l : Leg Supervisor Occasion Happening) :
    outcomesAt n (w ++ [l]) = outcomesAt n w ++ outcomesAt n [l] := List.filterMap_append

theorem outcomesAt_single (tasks : tasksAt? n l = some (t, u)) :
    outcomesAt n [l] = (t.outcome? u (eventsAmong l.effects)).toList := by
  cases told : t.outcome? u (eventsAmong l.effects) <;> simp [outcomesAt, tasks, told]

theorem quitsAt_iff (tasks : tasksAt? n l = some (t, u)) :
    QuitsAt n l ↔ t.quits u (eventsAmong l.effects) = true := by
  constructor
  · intro quits
    obtain ⟨t', u', tasks', quits⟩ := quits
    obtain ⟨rfl, rfl⟩ := Prod.ext_iff.1 (Option.some.inj (tasks'.symm.trans tasks))
    exact quits
  · exact fun quits => ⟨t, u, tasks, quits⟩

theorem Undecided.snoc (h : Undecided w n) (leg : outcomesAt n [l] = []) (stays : ¬ QuitsAt n l) :
    Undecided (w ++ [l]) n := by
  obtain ⟨none, remains⟩ := h
  refine ⟨?_, fun m hm => ?_⟩
  · rw [outcomesAt_snoc, none, leg]
    rfl
  · rcases List.mem_append.1 hm with hm | hm
    · exact remains m hm
    · rwa [List.mem_singleton.1 hm]

theorem Undecided.absent (h : Undecided w n) (absent : tasksAt? n l = none) :
    Undecided (w ++ [l]) n := by
  refine h.snoc (by simp [outcomesAt, absent]) ?_
  intro quits
  obtain ⟨t, u, tasks, -⟩ := quits
  rw [absent] at tasks
  contradiction

/-- A login that is over stays over, and what it comes to is told. -/
theorem Told.step (h : Told w n t) (sound : t.Sound) (tasks : tasksAt? n l = some (t, u))
    (context : u.context = t.context) (early : u.phase.early = true → t.phase.early = true)
    (told : ((authsAmong l.effects).filter fun a => a.task = t.context.taskId) =
      (t.outcome? u (eventsAmong l.effects)).toList.map t.auth) : Told (w ++ [l]) n u := by
  have outcomes : outcomesAt n (w ++ [l]) =
      outcomesAt n w ++ (t.outcome? u (eventsAmong l.effects)).toList := by
    rw [outcomesAt_snoc, outcomesAt_single tasks]
  have ended : t.phase.early = false → outcomesAt n (w ++ [l]) = outcomesAt n w := by
    intro late
    cases ho : t.outcome? u (eventsAmong l.effects) with
    | none => rw [outcomes, ho]; exact List.append_nil _
    | some o =>
      obtain ⟨login, -⟩ := Task.late_of_outcome? sound ho
      rw [Task.Phase.early_of_inLogin login] at late
      contradiction
  refine ⟨?_, ?_, fun begun => ?_, fun m hm quits => ?_⟩
  · have same : u.auth = t.auth := funext (Task.auth_congr context)
    rw [context, same, authsBy_snoc, h.tally, told, outcomes, List.map_append]
  · cases hp : t.phase.early with
    | true =>
      obtain ⟨none, -⟩ := h.early hp
      rw [outcomes, none]
      cases t.outcome? u (eventsAmong l.effects) <;> simp
    | false =>
      rw [ended hp]
      exact h.once
  · refine (h.early (early begun)).snoc ?_ fun quits => ?_
    · rw [outcomesAt_single tasks]
      cases ho : t.outcome? u (eventsAmong l.effects) with
      | none => rfl
      | some o =>
        obtain ⟨-, late⟩ := Task.late_of_outcome? sound ho
        rw [begun] at late
        contradiction
    · obtain ⟨-, late, -⟩ := Task.late_of_quits ((quitsAt_iff tasks).1 quits)
      rw [begun] at late
      contradiction
  · rcases List.mem_append.1 hm with hm | hm
    · have late : t.phase.early = false := by
        rw [Bool.eq_false_iff]
        exact fun begun => (h.early begun).2 m hm quits
      rw [ended late]
      exact h.quiet m hm quits
    · obtain rfl := List.mem_singleton.1 hm
      obtain ⟨begun, -, none⟩ := Task.late_of_quits ((quitsAt_iff tasks).1 quits)
      rw [outcomes, (h.early begun).1, none]
      rfl

end

/-- What tasks have told of their accounts is on record, each under its own id. -/
structure Records (w : Legs) (s : Supervisor) : Prop where
  known : ∀ a ∈ authsOf w, ∃ n t, s.world.task? n = some t ∧ t.context.taskId = a.task
  told : ∀ {n : Nat} {t : Task}, s.world.task? n = some t → Told w n t
  absent : ∀ {n : Nat}, s.world.task? n = none → Undecided w n

section
variable {s s' : Supervisor} {w : Legs} {o : Occasion} {seen : List Happening} {n m : Nat}
  {t u : Task} {i : Task.Signal} {es : List Task.Effect} {p : Pool}

/-- No two tasks have the same id. -/
theorem Staffed.alone (staffed : s.Staffed) (fresh : s.Fresh) (ht : s.world.task? m = some t)
    (hu : s.world.task? n = some u) (same : t.context.taskId = u.context.taskId) : m = n := by
  have crew := staffed.crew
  have hm := crew.placed.lt ht
  have hn := crew.placed.lt hu
  rw [crew.count] at hm hn
  rw [crew.named ht, crew.named hu] at same
  rcases Nat.lt_trichotomy m n with lt | rfl | lt
  · exact absurd same (fresh.tasks m n lt hn)
  · rfl
  · exact absurd same.symm (fresh.tasks n m lt hm)

theorem Rests.after {b : Option Task} (h : Rests (some t) b) :
    ∃ u, b = some u ∧ u.context = t.context := by
  cases h with
  | same => exact ⟨t, rfl, rfl⟩
  | stopped => exact ⟨t.stop, rfl, rfl⟩

theorem Records.calm (h : Records w s) (orderly : s.world.Orderly) (staffed : s'.Staffed)
    (fresh : s'.Fresh) (rests : ∀ n, Rests (s.world.task? n) (s'.world.task? n))
    (quiet : authsAmong seen = []) : Records (w ++ [⟨s, o, seen, s'⟩]) s' := by
  have auths : authsOf (w ++ [⟨s, o, seen, s'⟩]) = authsOf w := by
    rw [authsOf_snoc, quiet, List.append_nil]
  have known : ∀ a ∈ authsOf w, ∃ n t u, s.world.task? n = some t ∧ s'.world.task? n = some u ∧
      u.context.taskId = a.task := by
    intro a ha
    obtain ⟨n, t, ht, same⟩ := h.known a ha
    have rest := rests n
    rw [ht] at rest
    obtain ⟨u, hu, context⟩ := rest.after
    exact ⟨n, t, u, ht, hu, context ▸ same⟩
  refine ⟨fun a ha => ?_, fun {n u} hu => ?_, fun {n} gone => ?_⟩
  · rw [auths] at ha
    obtain ⟨n, -, u, -, hu, same⟩ := known a ha
    exact ⟨n, u, hu, same⟩
  · rcases (rests n).before hu with ⟨t, ht, rest⟩ | ⟨absent, phase, -⟩
    · obtain ⟨phase, context, -⟩ := rest.eq
      have sound := (orderly ht).1
      refine (h.told ht).step sound (tasksAt?_eq_some_iff.2 ⟨ht, hu⟩) context (phase ▸ id) ?_
      rw [quiet, Task.outcome?_rest sound phase]
      rfl
    · have tasks : tasksAt? n ⟨s, o, seen, s'⟩ = none := by simp [tasksAt?, absent]
      obtain ⟨none, remains⟩ := (h.absent absent).absent tasks
      refine ⟨?_, by rw [none]; exact Nat.zero_le _, fun _ => ⟨none, remains⟩, fun _ _ _ => none⟩
      -- The id of a new task is in nobody's record.
      have unused : ∀ a ∈ authsOf w, a.task ≠ u.context.taskId := by
        intro a ha same
        obtain ⟨m, t, v, ht, hv, named⟩ := known a ha
        obtain rfl := staffed.alone fresh hv hu (named.trans same)
        rw [absent] at ht
        contradiction
      rw [none, authsBy, auths, List.filter_eq_nil_iff.2 (by simpa using unused)]
      rfl
  · refine (h.absent ?_).absent ?_
    · have rest := rests n
      rw [gone] at rest
      generalize s.world.task? n = a at rest
      cases rest
      rfl
    · simp [tasksAt?, gone]

theorem Records.turn (h : Records w s) (orderly : s.world.Orderly) (staffed : s.Staffed)
    (fresh : s.Fresh) (turn : World.Turn s.world n s'.world seen t u i es p) :
    Records (w ++ [⟨s, o, seen, s'⟩]) s' := by
  have sound := (orderly turn.task).1
  have trade := turn.trade sound
  have context := (Task.does_of_next? turn.acts).same.1
  have told : authsAmong seen = (t.outcome? u (eventsAmong seen)).toList.map t.auth :=
    trade.told sound
  have own : ∀ a ∈ authsAmong seen, a.task = t.context.taskId := by
    intro a ha
    rw [told] at ha
    obtain ⟨o, -, rfl⟩ := List.mem_map.1 ha
    rfl
  have acting : s'.world.task? n = some u := (turn.tasks n).trans (if_pos rfl)
  refine ⟨fun a ha => ?_, fun {m v} hv => ?_, fun {m} gone => ?_⟩
  · rw [authsOf_snoc] at ha
    rcases List.mem_append.1 ha with ha | ha
    · obtain ⟨m, v, hv, same⟩ := h.known a ha
      by_cases hm : n = m
      · subst hm
        obtain rfl := Option.some.inj (turn.task.symm.trans hv)
        exact ⟨n, u, acting, context ▸ same⟩
      · exact ⟨m, v, (turn.tasks m).trans ((if_neg hm).trans hv), same⟩
    · exact ⟨n, u, acting, context ▸ (own a ha).symm⟩
  · by_cases hm : n = m
    · subst hm
      obtain rfl := Option.some.inj (acting.symm.trans hv)
      refine (h.told turn.task).step sound (tasksAt?_eq_some_iff.2 ⟨turn.task, hv⟩) context
        trade.early ?_
      rw [List.filter_eq_self.2 (by simpa using own)]
      exact told
    · have before : s.world.task? m = some v := ((turn.tasks m).trans (if_neg hm)).symm.trans hv
      have sound' := (orderly before).1
      refine (h.told before).step sound' (tasksAt?_eq_some_iff.2 ⟨before, hv⟩) rfl id ?_
      rw [Task.outcome?_rest sound' rfl, List.filter_eq_nil_iff.2]
      · rfl
      · intro a ha same
        have same := (own a ha).symm.trans (of_decide_eq_true same)
        exact hm (staffed.alone fresh turn.task before same)
  · have hm : n ≠ m := by
      intro same
      subst same
      rw [acting] at gone
      contradiction
    have before : s.world.task? m = none := ((turn.tasks m).trans (if_neg hm)).symm.trans gone
    exact (h.absent before).absent (by simp [tasksAt?, before])

end

/-! ### Along a trail -/

structure Books (w : Legs) (s : Supervisor) : Prop where
  staffed : s.Staffed
  orderly : s.world.Orderly
  standing : ∀ k, Standing w s k
  records : Records w s

section
variable {s s' : Supervisor} {w : Legs} {o : Occasion} {seen : List Happening}
  {registry : Registry Unit} {settings : Settings} {taskId : Nat → TaskId} {groupId : Nat → GroupId}

theorem books_new (registry : Registry Unit) (settings : Settings) (taskId : Nat → TaskId)
    (groupId : Nat → GroupId) : Books [] (.new registry settings ⟨taskId, groupId, 0, 0⟩) := by
  have absent : ∀ {n t}, (Supervisor.new registry settings
      ⟨taskId, groupId, 0, 0⟩).world.task? n ≠ some t := by
    intro n t ht
    contradiction
  refine ⟨staffed_new .., fun ht => absurd ht absent, fun k => ?_,
    fun a ha => absurd ha List.not_mem_nil, fun ht => absurd ht absent,
    fun _ => ⟨rfl, fun l hl => absurd hl List.not_mem_nil⟩⟩
  exact .untouched rfl (fun ⟨t, ht, _⟩ => absurd ht absent)
    (fun v ⟨l, hl, _⟩ => absurd hl List.not_mem_nil) rfl

theorem Books.step (h : Books w s) (fresh : s.Fresh) (fresh' : s'.Fresh)
    (taken : s.take? o = some (s', seen)) : Books (w ++ [⟨s, o, seen, s'⟩]) s' := by
  obtain ⟨staffed, orderly, standing, records⟩ := h
  have advance := advance_of_take? staffed fresh' taken
  refine ⟨advance.staffed, orderly_step orderly advance.shift,
    fun k => standing_step (standing k) staffed orderly advance, ?_⟩
  rcases advance.shift.turn_or_rest with ⟨n, t, u, i, es, p, turn⟩ | ⟨rests, quiet, -⟩
  · exact records.turn orderly staffed fresh turn
  · exact records.calm orderly advance.staffed fresh' rests quiet

theorem books_of_trail
    (h : Trail take? (.new registry settings ⟨taskId, groupId, 0, 0⟩) w s) (fresh : s.Fresh) :
    Books w s := by
  induction h with
  | rest => exact books_new ..
  | step past taken ih => exact (ih (fresh.earlier taken)).step (fresh.earlier taken) fresh taken

/-- What is promised to tasks that share an account. -/
structure Shares (w : Legs) (s : Supervisor) : Prop where
  /-- No two calls of the driver log in to one account at a time. -/
  calls : ∀ {k m n t u}, s.world.task? m = some t → s.world.task? n = some u →
    t.account? = some k → u.account? = some k → t.phase = .calling .login →
    u.phase = .calling .login → m = n
  logins : ∀ k, (loginsOf w k).length ≤ 1
  /-- All who ever got a session of an account got the same. -/
  sessions : ∀ {k v v'}, Gained w k v → Gained w k v' → v = v'
  /-- A claim in the pool is that of the one task that logs in to the account. -/
  claims : ∀ {k ticket}, s.world.pool.entryAt? k = some (.inProgress ticket) →
    ∃ n t, s.world.task? n = some t ∧ t.account? = some k ∧ t.phase.logsIn = true ∧
      t.guard = some ⟨k, ticket⟩ ∧ ∀ {m u}, s.world.task? m = some u → u.account? = some k →
        u.phase.logsIn = true → m = n
  released : ∀ {n t}, s.world.task? n = some t → t.ended = true → t.guard = none
  /-- A task tells what its login came to, and that is one thing at most. -/
  outcomes : ∀ {n t}, s.world.task? n = some t →
    authsBy w t.context.taskId = (outcomesAt n w).map t.auth ∧ (outcomesAt n w).length ≤ 1
  /-- A task that was stopped, or crashed, in its login tells nothing of its account. -/
  silence : ∀ {n t l}, s.world.task? n = some t → l ∈ w → QuitsAt n l →
    authsBy w t.context.taskId = []

/-- Of the tasks that log in to an account each holds the account's only claim. -/
theorem Books.alone (h : Books w s) {k : AccountKey} {m n : Nat} {t u : Task}
    (ht : s.world.task? m = some t) (hu : s.world.task? n = some u) (account : t.account? = some k)
    (account' : u.account? = some k) (login : t.phase.logsIn = true)
    (login' : u.phase.logsIn = true) : m = n := by
  obtain ⟨sound, keyed⟩ := h.orderly ht
  obtain ⟨sound', keyed'⟩ := h.orderly hu
  obtain ⟨g, owns⟩ := Task.guard_some sound login
  obtain ⟨g', owns'⟩ := Task.guard_some sound' login'
  have key := Option.some.inj ((keyed g owns).symm.trans account)
  have key' := Option.some.inj ((keyed' g' owns').symm.trans account')
  exact (((h.standing k).owner ⟨u, hu, owns'⟩ key').2.1 ⟨t, ht, owns⟩ key).1

/-- Tasks that share an account log in once, whatever their drivers do and however
they are started, stopped and wound down meanwhile. -/
theorem logins_are_shared
    (h : Trail take? (.new registry settings ⟨taskId, groupId, 0, 0⟩) w s) (fresh : s.Fresh) :
    Shares w s := by
  have books := books_of_trail h fresh
  refine ⟨fun ht hu account account' calls calls' => ?_, fun k => ?_, fun {k v v'} hv hv' => ?_,
    fun {k ticket} entry => ?_, fun {n t} ht ended => ?_, fun {n t} ht => ?_,
    fun {n t l} ht hl quits => ?_⟩
  · exact books.alone ht hu account account' (by rw [calls]; rfl) (by rw [calls']; rfl)
  · cases books.standing k with
    | untouched _ _ _ none | claimed _ _ _ _ _ none =>
      rw [none]
      exact Nat.zero_le _
    | shared _ _ _ once => exact once
  · cases books.standing k with
    | untouched _ _ gains | claimed _ _ _ _ gains => exact absurd hv (gains v)
    | shared _ _ same => exact (same hv).trans (same hv').symm
  · cases books.standing k with
    | untouched vacant => simp [entry] at vacant
    | shared keeps => simp [Keeps, entry] at keeps
    | @claimed n g key keeps owns =>
      obtain ⟨t, ht, owns⟩ := owns
      obtain ⟨sound, keyed⟩ := books.orderly ht
      obtain rfl : ticket = g.ticket := by simpa [Keeps, entry] using keeps
      have account : t.account? = some k := key ▸ keyed g owns
      have login : t.phase.logsIn = true := by rw [← sound.guard, owns]; rfl
      refine ⟨n, t, ht, account, login, ?_, fun hu account' login' => ?_⟩
      · rw [owns, ← key]
      · exact books.alone hu ht account' account login' login
  · cases owns : t.guard with
    | none => rfl
    | some g =>
      have login := Task.inLogin_of_guard (books.orderly ht).1 (by rw [owns]; rfl)
      have late := Task.late_of_ended ended
      rw [Task.Phase.early_of_inLogin login] at late
      contradiction
  · obtain ⟨tally, once, -⟩ := books.records.told ht
    exact ⟨tally, once⟩
  · obtain ⟨tally, -, -, quiet⟩ := books.records.told ht
    rw [tally, quiet l hl quits]
    rfl

end

def member : TaskConfig := { TaskConfig.guest with credential := some ⟨"a@b.c", "secret"⟩ }

def pair : GroupConfig :=
  { GroupConfig.standard with
    name := "demo", retailer := "shop", targets := [⟨"sku", none, default⟩]
    tasks := [member, member] }

def store : Supervisor :=
  .new ⟨[("shop", ())]⟩ .standard ⟨fun n => .ofNat n, fun n => .ofNat n, 0, 0⟩

def session : Session := ⟨"a@b.c", .null⟩

/-- The task that logs in is stopped in its call, and the other one logs in instead. -/
def handover : List Occasion :=
  [.startGroup pair, .act (.task 0 .begin), .act (.task 1 .begin), .act (.task 0 .elect),
    .act (.task 1 .elect), .act (.task 0 .proceed), .stopTask (.ofNat 0), .act (.task 1 .look),
    .act (.task 0 (.reply .empty .panicked)), .act (.task 0 .notice), .act (.task 1 .look),
    .act (.task 1 .elect), .act (.task 1 .proceed),
    .act (.task 1 (.reply .empty (.outcome (.success (some session)))))]

theorem logins_of_a_stopped_pair :
    ∃ w s, Trail take? store w s ∧ s.Fresh ∧ Shares w s ∧
      authsOf w = [⟨⟨.ofNat 0, "a@b.c"⟩, .ofNat 1, .loggedIn⟩] ∧
      s.world.pool.entryAt? ⟨.ofNat 0, "a@b.c"⟩ = some (.ready session) := by
  have h := Trail.of_inputs take? store handover
  have tasks : (Trail.follow take? store handover).2.ids.tasks = 2 := by decide
  have groups : (Trail.follow take? store handover).2.ids.groups = 1 := by decide
  have fresh : (Trail.follow take? store handover).2.Fresh := by
    refine ⟨fun i j hij hj => ?_, fun i j hij hj => ?_⟩
    · obtain ⟨rfl, rfl⟩ : i = 0 ∧ j = 1 := by omega
      decide
    · omega
  exact ⟨_, _, h, fresh, logins_are_shared h fresh, by decide, by decide⟩

end Supervisor

end Restock
