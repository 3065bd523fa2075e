import Restock.Proofs.Supervisor.Staff

/-! The accounts of a supervisor.

An account is untouched until a task claims it. Then that task, and no other, owns
the claim, and it either gives it up or leaves a session to the account, which is
the session of all who come later (`Standing`). When a group has wound down the pool
forgets its accounts, but a task that was stopped by itself may still log in then.
Its claim is stale, and nobody can claim the account again: the group is closed. -/
namespace Restock

/-- A task of the world holds the claim. -/
def World.Holds (w : World) (n : Nat) (g : Guard) : Prop :=
  ∃ t, w.task? n = some t ∧ t.guard = some g

/-- The claim of a task is one for its account. -/
def Task.Keyed (t : Task) : Prop := ∀ g, t.guard = some g → t.account? = some g.key

/-- The tasks of a world and their claims are in order. -/
def World.Orderly (w : World) : Prop :=
  ∀ {n : Nat} {t : Task}, w.task? n = some t → t.Sound ∧ t.Keyed

/-- Tasks claim for their accounts only. -/
theorem World.Trade.keyed {p p' : Pool} {t u : Task} {events : List Event}
    (h : Trade p t p' u events) (account : u.account? = t.account?) (keyed : t.Keyed) :
    u.Keyed := by
  intro g held
  rw [account]
  cases h with
  | pass guard => exact keyed g (guard ▸ held)
  | claim account _ _ _ guard =>
    obtain rfl := Option.some.inj (guard.symm.trans held)
    exact account
  | adopt _ _ _ _ _ guard | share _ _ guard | giveUp _ _ guard =>
    rw [guard] at held
    contradiction

/-- Other accounts are not concerned. -/
theorem World.Trade.elsewhere {p p' : Pool} {t u : Task} {events : List Event} {k : AccountKey}
    (h : Trade p t p' u events) (keyed : t.Keyed) (other : t.account? ≠ some k) :
    p'.entryAt? k = p.entryAt? k := by
  cases h with
  | pass | adopt => rfl
  | claim account =>
    rw [Pool.entryAt?_claim, if_neg]
    intro own
    obtain ⟨rfl, -⟩ := own
    exact other account
  | share _ owns | giveUp _ owns =>
    rw [Pool.entryAt?_finish, if_neg]
    intro own
    obtain ⟨rfl, -⟩ := own
    exact other (keyed _ owns)

theorem Task.account_auth {t : Task} (member : t.context.credential.isSome = true)
    (o : AuthOutcome) : t.account? = some (t.auth o).account := by
  obtain ⟨c, hc⟩ := Option.isSome_iff_exists.1 member
  simp [account?, auth, identifier, hc]

namespace Supervisor

abbrev Legs := List (Leg Supervisor Occasion Happening)

/-- The task at a place before and after a leg. -/
def tasksAt? (n : Nat) (l : Leg Supervisor Occasion Happening) : Option (Task × Task) :=
  (l.before.world.task? n).bind fun t => (l.after.world.task? n).map fun u => (t, u)

/-- A task with the account gets the session from its login. -/
def Gains (l : Leg Supervisor Occasion Happening) (k : AccountKey) (v : Session) : Prop :=
  ∃ n t u, tasksAt? n l = some (t, u) ∧ t.account? = some k ∧ t.gained? u = some v

def Gained (w : Legs) (k : AccountKey) (v : Session) : Prop := ∃ l ∈ w, Gains l k v

def authsOf (w : Legs) : List Auth := authsAmong (effectsOf w)

def isLogin (k : AccountKey) (a : Auth) : Bool := a.account = k && a.outcome = .loggedIn

/-- The logins that were told of an account. -/
def loginsOf (w : Legs) (k : AccountKey) : List Auth := (authsOf w).filter (isLogin k)

/-- The account holds the entry unless its group was forgotten. -/
def Keeps (s : Supervisor) (k : AccountKey) (e : Pool.Entry) : Prop :=
  s.world.pool.entryAt? k = some e ∨ (s.world.pool.entryAt? k = none ∧ s.Closed k.groupId)

inductive Standing (w : Legs) (s : Supervisor) (k : AccountKey) : Prop
  | untouched (entry : s.world.pool.entryAt? k = none)
    (unowned : ∀ {n g}, s.world.Holds n g → g.key ≠ k) (gains : ∀ v, ¬ Gained w k v)
    (logins : loginsOf w k = [])
  | claimed {n : Nat} {g : Guard} (key : g.key = k) (keeps : s.Keeps k (.inProgress g.ticket))
    (owns : s.world.Holds n g) (alone : ∀ {m g'}, s.world.Holds m g' → g'.key = k → m = n ∧ g' = g)
    (gains : ∀ v, ¬ Gained w k v) (logins : loginsOf w k = [])
  | shared {v : Session} (keeps : s.Keeps k (.ready v))
    (unowned : ∀ {n g}, s.world.Holds n g → g.key ≠ k) (gains : ∀ {v'}, Gained w k v' → v' = v)
    (logins : (loginsOf w k).length ≤ 1)

section
variable {w : Legs} {l : Leg Supervisor Occasion Happening} {k : AccountKey} {v : Session}

theorem gained_snoc_iff : Gained (w ++ [l]) k v ↔ Gained w k v ∨ Gains l k v := by
  constructor
  · intro gained
    obtain ⟨m, hm, gains⟩ := gained
    rcases List.mem_append.1 hm with hm | hm
    · exact .inl ⟨m, hm, gains⟩
    · rw [List.mem_singleton.1 hm] at gains
      exact .inr gains
  · intro gained
    rcases gained with ⟨m, hm, gains⟩ | gains
    · exact ⟨m, List.mem_append_left _ hm, gains⟩
    · exact ⟨l, List.mem_append_right _ (List.mem_singleton_self _), gains⟩

theorem authsOf_snoc (w : Legs) (l : Leg Supervisor Occasion Happening) :
    authsOf (w ++ [l]) = authsOf w ++ authsAmong l.effects := by
  rw [authsOf, effectsOf_append, effectsOf_singleton, authsAmong_append, ← authsOf]

theorem loginsOf_snoc (w : Legs) (l : Leg Supervisor Occasion Happening) (k : AccountKey) :
    loginsOf (w ++ [l]) k = loginsOf w k ++ (authsAmong l.effects).filter (isLogin k) := by
  rw [loginsOf, authsOf_snoc, List.filter_append, ← loginsOf]

theorem tasksAt?_eq_some_iff {n : Nat} {t u : Task} :
    tasksAt? n l = some (t, u) ↔
      l.before.world.task? n = some t ∧ l.after.world.task? n = some u := by
  simp only [tasksAt?, Option.bind_eq_some_iff, Option.map_eq_some_iff, Prod.mk.injEq]
  constructor
  · intro tasks
    obtain ⟨t', ht, u', hu, rfl, rfl⟩ := tasks
    exact ⟨ht, hu⟩
  · intro tasks
    obtain ⟨ht, hu⟩ := tasks
    exact ⟨t, ht, u, hu, rfl, rfl⟩

end

/-! ### Tasks at rest -/

section
variable {w w' : World} {n : Nat} {t u : Task}

theorem Rests.held {a b : Option Task} (h : Rests a b) {g : Guard} :
    (∃ t, b = some t ∧ t.guard = some g) ↔ ∃ t, a = some t ∧ t.guard = some g := by
  cases h with
  | same => rfl
  | stopped t =>
    constructor
    · intro present
      obtain ⟨u, hu, held⟩ := present
      obtain rfl := Option.some.inj hu
      exact ⟨t, rfl, held⟩
    · intro present
      obtain ⟨u, hu, held⟩ := present
      obtain rfl := Option.some.inj hu
      exact ⟨t.stop, rfl, held⟩
  | new phase guard =>
    constructor
    · intro present
      obtain ⟨u, hu, held⟩ := present
      obtain rfl := Option.some.inj hu
      rw [guard] at held
      contradiction
    · intro present
      obtain ⟨u, hu, -⟩ := present
      contradiction

/-- A task at rest is as it was, save for its flag. -/
theorem Rests.eq (h : Rests (some t) (some u)) :
    u.phase = t.phase ∧ u.context = t.context ∧ u.guard = t.guard := by
  generalize hb : some u = b at h
  cases h with
  | same =>
    obtain rfl := Option.some.inj hb
    exact ⟨rfl, rfl, rfl⟩
  | stopped =>
    obtain rfl := Option.some.inj hb
    exact ⟨rfl, rfl, rfl⟩

theorem Rests.before (h : Rests (w.task? n) (w'.task? n)) (hu : w'.task? n = some u) :
    (∃ t, w.task? n = some t ∧ Rests (some t) (some u)) ∨
      (w.task? n = none ∧ u.phase = .fresh ∧ u.guard = none) := by
  rw [hu] at h
  generalize w.task? n = a at h
  cases h with
  | same => exact .inl ⟨u, rfl, .same _⟩
  | stopped t => exact .inl ⟨t, rfl, .stopped t⟩
  | new phase guard => exact .inr ⟨rfl, phase, guard⟩

end

section
variable {s s' : Supervisor} {w : Legs} {o : Occasion} {seen : List Happening} {k : AccountKey}
  {v : Session} {n m : Nat} {t u : Task} {i : Task.Signal} {es : List Task.Effect} {p : Pool}
  {g : Guard}

theorem not_gains_of_rests (rests : ∀ n, Rests (s.world.task? n) (s'.world.task? n)) :
    ¬ Gains ⟨s, o, seen, s'⟩ k v := by
  intro gains
  obtain ⟨n, t, u, tasks, -, gained⟩ := gains
  obtain ⟨ht, hu⟩ := tasksAt?_eq_some_iff.1 tasks
  have rest := rests n
  dsimp only at ht hu
  rw [ht, hu] at rest
  rw [Task.gained?_rest rest.eq.1] at gained
  contradiction

/-! ### One task acts -/

theorem holds_turn_iff (turn : World.Turn s.world n s'.world seen t u i es p) :
    s'.world.Holds m g ↔ if n = m then u.guard = some g else s.world.Holds m g := by
  unfold World.Holds
  rw [turn.tasks]
  split
  · constructor
    · intro present
      obtain ⟨u', hu, held⟩ := present
      obtain rfl := Option.some.inj hu
      exact held
    · intro held
      exact ⟨u, rfl, held⟩
  · rfl

theorem holds_of_guard (turn : World.Turn s.world n s'.world seen t u i es p)
    (guard : u.guard = t.guard) : s'.world.Holds m g ↔ s.world.Holds m g := by
  rw [holds_turn_iff turn, guard]
  split
  · next hm =>
    subst hm
    constructor
    · exact fun held => ⟨t, turn.task, held⟩
    · intro present
      obtain ⟨t', ht, held⟩ := present
      obtain rfl := Option.some.inj (turn.task.symm.trans ht)
      exact held
  · rfl

theorem gains_turn_iff (turn : World.Turn s.world n s'.world seen t u i es p) :
    Gains ⟨s, o, seen, s'⟩ k v ↔ t.account? = some k ∧ t.gained? u = some v := by
  constructor
  · intro gains
    obtain ⟨m, t', u', tasks, account, gained⟩ := gains
    obtain ⟨ht, hu⟩ := tasksAt?_eq_some_iff.1 tasks
    dsimp only at ht hu
    rw [turn.tasks] at hu
    split at hu
    · next hm =>
      subst hm
      obtain rfl := Option.some.inj hu
      obtain rfl := Option.some.inj (turn.task.symm.trans ht)
      exact ⟨account, gained⟩
    · obtain rfl := Option.some.inj (ht.symm.trans hu)
      rw [Task.gained?_rest rfl] at gained
      contradiction
  · intro gains
    obtain ⟨account, gained⟩ := gains
    refine ⟨n, t, u, tasksAt?_eq_some_iff.2 ⟨turn.task, ?_⟩, account, gained⟩
    exact (turn.tasks n).trans (if_pos rfl)

theorem account_turn (turn : World.Turn s.world n s'.world seen t u i es p) :
    u.account? = t.account? := by
  rw [Task.account?, (Task.does_of_next? turn.acts).same.1]
  rfl

theorem orderly_of_rests (orderly : s.world.Orderly)
    (rests : ∀ n, Rests (s.world.task? n) (s'.world.task? n)) : s'.world.Orderly := by
  intro n u hu
  rcases (rests n).before hu with ⟨t, ht, rest⟩ | ⟨-, phase, guard⟩
  · obtain ⟨sound, keyed⟩ := orderly ht
    obtain ⟨phase, context, guard⟩ := rest.eq
    refine ⟨⟨?_, fun login => ?_⟩, fun g held => ?_⟩
    · rw [guard, phase, sound.guard]
    · rw [context]
      exact sound.member (phase ▸ login)
    · rw [Task.account?, context]
      exact keyed g (guard ▸ held)
  · refine ⟨⟨by rw [guard, phase]; rfl, by simp [phase, Task.Phase.inLogin]⟩, fun g held => ?_⟩
    rw [guard] at held
    contradiction

theorem orderly_of_turn (orderly : s.world.Orderly)
    (turn : World.Turn s.world n s'.world seen t u i es p) : s'.world.Orderly := by
  intro m v hv
  rw [turn.tasks] at hv
  split at hv
  · obtain rfl := Option.some.inj hv
    obtain ⟨sound, keyed⟩ := orderly turn.task
    have does := Task.does_of_next? turn.acts
    exact ⟨(does.dealing sound).sound sound does.same.1,
      (turn.trade sound).keyed (account_turn turn) keyed⟩
  · exact orderly hv

/-! ### How an account stands after a step -/

theorem Keeps.rest {e : Pool.Entry} (h : s.Keeps k e)
    (closed : s.Closed k.groupId → s'.Closed k.groupId)
    (entry : s'.world.pool.entryAt? k = s.world.pool.entryAt? k ∨
      (s'.world.pool.entryAt? k = none ∧ s'.Closed k.groupId)) : s'.Keeps k e := by
  rcases entry with same | forgotten
  · rw [Keeps, same]
    exact h.imp_right fun ⟨vacant, gone⟩ => ⟨vacant, closed gone⟩
  · exact .inr forgotten

/-- A step that does not concern an account leaves it as it is, or forgets it. -/
theorem Standing.rest (h : Standing w s k) (closed : s.Closed k.groupId → s'.Closed k.groupId)
    (entry : s'.world.pool.entryAt? k = s.world.pool.entryAt? k ∨
      (s'.world.pool.entryAt? k = none ∧ s'.Closed k.groupId))
    (holds : ∀ m g, g.key = k → (s'.world.Holds m g ↔ s.world.Holds m g))
    (idle : ∀ v, ¬ Gains ⟨s, o, seen, s'⟩ k v) (quiet : (authsAmong seen).filter (isLogin k) = []) :
    Standing (w ++ [⟨s, o, seen, s'⟩]) s' k := by
  have gained : ∀ v, Gained (w ++ [⟨s, o, seen, s'⟩]) k v ↔ Gained w k v :=
    fun v => gained_snoc_iff.trans (or_iff_left (idle v))
  have logins : loginsOf (w ++ [⟨s, o, seen, s'⟩]) k = loginsOf w k := by
    rw [loginsOf_snoc, quiet, List.append_nil]
  cases h with
  | untouched vacant unowned gains none =>
    refine .untouched ?_ (fun held key => ?_) (fun v => ?_) (logins.trans none)
    · rcases entry with same | ⟨gone, -⟩
      · exact same.trans vacant
      · exact gone
    · exact unowned ((holds _ _ key).1 held) key
    · rw [gained]
      exact gains v
  | claimed key keeps owns alone gains none =>
    refine .claimed key (keeps.rest closed entry) ((holds _ _ key).2 owns) (fun held key' => ?_)
      (fun v => ?_) (logins.trans none)
    · exact alone ((holds _ _ key').1 held) key'
    · rw [gained]
      exact gains v
  | shared keeps unowned gains once =>
    refine .shared (keeps.rest closed entry) (fun held key => ?_) (fun hv => ?_) (logins ▸ once)
    · exact unowned ((holds _ _ key).1 held) key
    · exact gains ((gained _).1 hv)

theorem Standing.calm (h : Standing w s k) (closed : s.Closed k.groupId → s'.Closed k.groupId)
    (entry : s'.world.pool.entryAt? k = s.world.pool.entryAt? k ∨
      (s'.world.pool.entryAt? k = none ∧ s'.Closed k.groupId))
    (rests : ∀ n, Rests (s.world.task? n) (s'.world.task? n)) (quiet : authsAmong seen = []) :
    Standing (w ++ [⟨s, o, seen, s'⟩]) s' k := by
  refine h.rest closed entry (fun m g _ => (rests m).held) (fun v => not_gains_of_rests rests) ?_
  rw [quiet]
  rfl

/-- The account of a running group that has no entry was never logged in to. -/
theorem Standing.fresh (h : Standing w s k) (running : ¬ s.Closed k.groupId)
    (vacant : s.world.pool.entryAt? k = none) :
    (∀ {n g}, s.world.Holds n g → g.key ≠ k) ∧ (∀ v, ¬ Gained w k v) ∧ loginsOf w k = [] := by
  cases h with
  | untouched _ unowned gains logins => exact ⟨unowned, gains, logins⟩
  | claimed _ keeps | shared keeps =>
    rcases keeps with entry | ⟨-, closed⟩
    · rw [vacant] at entry
      contradiction
    · exact absurd closed running

/-- Whoever holds a claim is the only one, and nobody has logged in yet. -/
theorem Standing.owner (h : Standing w s k) (held : s.world.Holds n g) (key : g.key = k) :
    s.Keeps k (.inProgress g.ticket) ∧
      (∀ {m g'}, s.world.Holds m g' → g'.key = k → m = n ∧ g' = g) ∧
      (∀ v, ¬ Gained w k v) ∧ loginsOf w k = [] := by
  cases h with
  | untouched _ unowned | shared _ unowned => exact absurd key (unowned held)
  | claimed _ keeps _ alone gains logins =>
    obtain ⟨rfl, rfl⟩ := alone held key
    exact ⟨keeps, alone, gains, logins⟩

theorem Standing.found (h : Standing w s k) (ready : s.world.pool.entryAt? k = some (.ready v)) :
    (∀ {n g}, s.world.Holds n g → g.key ≠ k) ∧ (∀ {v'}, Gained w k v' → v' = v) ∧
      (loginsOf w k).length ≤ 1 := by
  cases h with
  | untouched vacant =>
    rw [ready] at vacant
    contradiction
  | claimed _ keeps =>
    rcases keeps with entry | ⟨vacant, -⟩
    · simp [ready] at entry
    · simp [ready] at vacant
  | shared keeps unowned gains logins =>
    rcases keeps with entry | ⟨vacant, -⟩
    · obtain rfl : v = _ := by simpa [ready] using entry
      exact ⟨unowned, gains, logins⟩
    · simp [ready] at vacant

/-! ### How an account stands after a step of one of its tasks -/

theorem not_gains_of_turn (turn : World.Turn s.world n s'.world seen t u i es p)
    (phase : u.phase ≠ .awaitingWave) : ¬ Gains ⟨s, o, seen, s'⟩ k v := by
  rw [gains_turn_iff turn, Task.gained?_eq_none fun _ => phase]
  intro gains
  obtain ⟨-, gained⟩ := gains
  contradiction

/-- Nobody but the task that acts could hold a claim, and it has let go. -/
theorem unowned_of_turn (turn : World.Turn s.world n s'.world seen t u i es p)
    (guard : u.guard = none) (others : ∀ {m g}, s.world.Holds m g → g.key = k → m = n) :
    ∀ {m g}, s'.world.Holds m g → g.key ≠ k := by
  intro m g held key
  rw [holds_turn_iff turn, guard] at held
  split at held
  · contradiction
  · next other => exact other (others held key).symm

theorem Standing.claim (h : Standing w s k) (turn : World.Turn s.world n s'.world seen t u i es p)
    (running : ¬ s.Closed k.groupId) (vacant : s.world.pool.entryAt? k = none)
    (pool : s'.world.pool = (s.world.pool.claim k).2)
    (guard : u.guard = some ⟨k, s.world.pool.nextTicket⟩) (login : u.phase = .entering .login)
    (quiet : authsAmong seen = []) : Standing (w ++ [⟨s, o, seen, s'⟩]) s' k := by
  obtain ⟨unowned, gains, logins⟩ := h.fresh running vacant
  have idle : ∀ v, ¬ Gains ⟨s, o, seen, s'⟩ k v :=
    fun v => not_gains_of_turn turn (by rw [login]; nofun)
  have owns : s'.world.Holds n ⟨k, s.world.pool.nextTicket⟩ := by
    rw [holds_turn_iff turn, if_pos rfl]
    exact guard
  have entry : s'.world.pool.entryAt? k = some (.inProgress s.world.pool.nextTicket) := by
    rw [pool, Pool.entryAt?_claim, if_pos ⟨rfl, vacant⟩]
  refine .claimed (g := ⟨k, s.world.pool.nextTicket⟩) rfl (.inl entry) owns
    (fun {m g} held key => ?_) (fun v => ?_) ?_
  · rw [holds_turn_iff turn] at held
    split at held
    · next hm => exact ⟨hm.symm, Option.some.inj (held.symm.trans guard)⟩
    · exact absurd key (unowned held)
  · rw [gained_snoc_iff, or_iff_left (idle v)]
    exact gains v
  · rw [loginsOf_snoc, logins, quiet]
    rfl

theorem Standing.adopt (h : Standing w s k) (turn : World.Turn s.world n s'.world seen t u i es p)
    (ready : s.world.pool.entryAt? k = some (.ready v)) (pool : s'.world.pool = s.world.pool)
    (guard : u.guard = none) (gains : t.gained? u = some v)
    (told : authsAmong seen = [t.auth .adopted]) : Standing (w ++ [⟨s, o, seen, s'⟩]) s' k := by
  obtain ⟨unowned, same, logins⟩ := h.found ready
  refine .shared (.inl (pool ▸ ready)) ?_ (fun {v'} gained => ?_) ?_
  · exact unowned_of_turn turn guard fun held key => absurd key (unowned held)
  · rcases gained_snoc_iff.1 gained with before | now
    · exact same before
    · obtain ⟨-, now⟩ := (gains_turn_iff turn).1 now
      exact Option.some.inj (now.symm.trans gains)
  · have quiet : [t.auth .adopted].filter (isLogin k) = [] := by simp [isLogin, Task.auth]
    rw [loginsOf_snoc, told, quiet, List.append_nil]
    exact logins

/-- The pool keeps the session of a login unless the group was forgotten meanwhile. -/
theorem Keeps.finish (h : s.Keeps g.key (.inProgress g.ticket))
    (closed : s.Closed g.key.groupId → s'.Closed g.key.groupId)
    (pool : s'.world.pool = (s.world.pool.finish g (some v)).1) : s'.Keeps g.key (.ready v) := by
  rcases h with entry | ⟨vacant, gone⟩
  · refine .inl ?_
    rw [pool, Pool.entryAt?_finish, if_pos ⟨rfl, Pool.holds_iff.2 entry⟩]
    rfl
  · refine .inr ⟨?_, closed gone⟩
    rw [pool, Pool.finish_stale (by rw [vacant]; nofun)]
    exact vacant

theorem Standing.share (h : Standing w s k) (turn : World.Turn s.world n s'.world seen t u i es p)
    (closed : s.Closed k.groupId → s'.Closed k.groupId) (owns : t.guard = some g) (key : g.key = k)
    (pool : s'.world.pool = (s.world.pool.finish g (some v)).1) (guard : u.guard = none)
    (gains : t.gained? u = some v) (told : authsAmong seen = [t.auth .loggedIn]) :
    Standing (w ++ [⟨s, o, seen, s'⟩]) s' k := by
  obtain ⟨keeps, alone, none, logins⟩ := h.owner ⟨t, turn.task, owns⟩ key
  subst key
  refine .shared (keeps.finish closed pool) ?_ (fun {v'} gained => ?_) ?_
  · exact unowned_of_turn turn guard fun held key => (alone held key).1
  · rcases gained_snoc_iff.1 gained with before | now
    · exact absurd before (none v')
    · obtain ⟨-, now⟩ := (gains_turn_iff turn).1 now
      exact Option.some.inj (now.symm.trans gains)
  · rw [loginsOf_snoc, logins, told, List.nil_append]
    exact List.length_filter_le ..

theorem Standing.giveUp (h : Standing w s k) (turn : World.Turn s.world n s'.world seen t u i es p)
    (owns : t.guard = some g) (key : g.key = k)
    (pool : s'.world.pool = (s.world.pool.finish g none).1) (guard : u.guard = none)
    (phase : u.phase ≠ .awaitingWave) (quiet : (authsAmong seen).filter (isLogin k) = []) :
    Standing (w ++ [⟨s, o, seen, s'⟩]) s' k := by
  obtain ⟨keeps, alone, none, logins⟩ := h.owner ⟨t, turn.task, owns⟩ key
  refine .untouched ?_ ?_ (fun v => ?_) (by rw [loginsOf_snoc, logins, quiet]; rfl)
  · rw [pool, Pool.entryAt?_finish]
    split
    · rfl
    · next stale =>
      subst key
      rcases keeps with entry | ⟨vacant, -⟩
      · exact absurd ⟨rfl, Pool.holds_iff.2 entry⟩ stale
      · exact vacant
  · exact unowned_of_turn turn guard fun held key => (alone held key).1
  · rw [gained_snoc_iff, or_iff_left (not_gains_of_turn turn phase)]
    exact none v

/-- A task whose flag is not raised belongs to a running group. -/
theorem Staffed.running (staffed : s.Staffed) (ht : s.world.task? n = some t)
    (flag : t.stopping = false) : ¬ s.Closed t.context.groupId := by
  intro closed
  obtain ⟨-, gone⟩ := closed
  have listed := staffed.crew.listed ht flag
  rw [listed?, gone] at listed
  contradiction

theorem Standing.own (h : Standing w s k) (turn : World.Turn s.world n s'.world seen t u i es p)
    (staffed : s.Staffed) (sound : t.Sound) (keyed : t.Keyed)
    (closed : s.Closed k.groupId → s'.Closed k.groupId) (account : t.account? = some k) :
    Standing (w ++ [⟨s, o, seen, s'⟩]) s' k := by
  have running : t.stopping = false → ¬ s.Closed k.groupId := by
    obtain ⟨c, -, rfl⟩ := Option.map_eq_some_iff.1 account
    exact staffed.running turn.task
  have same : ∀ {l}, t.account? = some l → l = k :=
    fun hl => Option.some.inj (hl.symm.trans account)
  have trade := turn.trade sound
  have told : authsAmong seen = (eventsAmong seen).filterMap Event.auth? := rfl
  generalize hp : s'.world.pool = p' at trade
  generalize eventsAmong seen = events at trade told
  cases trade with
  | pass guard auths sessionless =>
    refine h.rest closed (.inl (by rw [hp])) (fun m g _ => holds_of_guard turn guard)
      (fun v gains => ?_) ?_
    · obtain ⟨-, gained⟩ := (gains_turn_iff turn).1 gains
      rw [Task.gained?_eq_none fun login phase => sessionless ⟨login, phase⟩] at gained
      contradiction
    · rw [told, auths]
      rfl
  | claim account' vacant flag phase guard login =>
    obtain rfl := same account'
    exact h.claim turn (running flag) vacant hp guard login told
  | adopt account' found flag login owns guard auths phase session =>
    obtain rfl := same account'
    exact h.adopt turn found hp guard (Task.gained?_eq_some login phase session) (told.trans auths)
  | share login owns guard auths phase session =>
    exact h.share turn closed owns (same (keyed _ owns)) hp guard
      (Task.gained?_eq_some login phase session) (told.trans auths)
  | giveUp failed owns guard auths fails phase =>
    refine h.giveUp turn owns (same (keyed _ owns)) hp guard (fun wave => ?_) ?_
    · simp [wave] at phase
    · rw [told, auths]
      cases failed <;> simp [isLogin, Task.auth]

theorem Standing.other (h : Standing w s k) (turn : World.Turn s.world n s'.world seen t u i es p)
    (sound : t.Sound) (keyed : t.Keyed) (closed : s.Closed k.groupId → s'.Closed k.groupId)
    (other : t.account? ≠ some k) : Standing (w ++ [⟨s, o, seen, s'⟩]) s' k := by
  have trade := turn.trade sound
  have keyed' := trade.keyed (account_turn turn) keyed
  refine h.rest closed (.inl (trade.elsewhere keyed other)) (fun m g key => ?_)
    (fun v gains => other ((gains_turn_iff turn).1 gains).1) ?_
  · rw [holds_turn_iff turn]
    split
    · next hm =>
      subst hm
      constructor
      · intro held
        rw [← account_turn turn, keyed' g held, key] at other
        contradiction
      · intro present
        obtain ⟨t', ht, held⟩ := present
        obtain rfl := Option.some.inj (turn.task.symm.trans ht)
        rw [keyed g held, key] at other
        contradiction
    · rfl
  · rw [authsAmong, trade.told sound]
    cases told : t.outcome? u (eventsAmong seen) with
    | none => rfl
    | some outcome =>
      obtain ⟨login, -⟩ := Task.late_of_outcome? sound told
      rw [Task.account_auth (sound.member login) outcome] at other
      have apart : (t.auth outcome).account ≠ k := fun same => other (congrArg some same)
      simp [isLogin, apart]

/-- In a step a task acts, or all tasks rest and no account is told of; an entry that
then goes away is one of a closed group. -/
theorem Shift.turn_or_rest (h : Shift s s' seen) :
    (∃ n t u i es p, World.Turn s.world n s'.world seen t u i es p) ∨
      ((∀ n, Rests (s.world.task? n) (s'.world.task? n)) ∧ authsAmong seen = [] ∧
        ∀ k, s'.world.pool.entryAt? k = s.world.pool.entryAt? k ∨
          (s'.world.pool.entryAt? k = none ∧ s.Closed k.groupId)) := by
  cases h with
  | trade turn => exact .inl ⟨_, _, _, _, _, _, turn⟩
  | calm calm quiet => exact .inr ⟨calm.tasks, quiet, fun k => .inl (by rw [calm.pool])⟩
  | forget closed pool buyers quiet =>
    refine .inr ⟨rests_of_buyers buyers, quiet, fun k => ?_⟩
    rw [pool, Pool.entryAt?_removeGroup]
    split
    · next own => exact .inr ⟨rfl, own ▸ closed⟩
    · exact .inl rfl

theorem standing_step (h : Standing w s k) (staffed : s.Staffed) (orderly : s.world.Orderly)
    (advance : Advance s s' seen) : Standing (w ++ [⟨s, o, seen, s'⟩]) s' k := by
  have closed := advance.closed k.groupId
  rcases advance.shift.turn_or_rest with ⟨n, t, u, i, es, p, turn⟩ | ⟨rests, quiet, entries⟩
  · obtain ⟨sound, keyed⟩ := orderly turn.task
    by_cases account : t.account? = some k
    · exact h.own turn staffed sound keyed closed account
    · exact h.other turn sound keyed closed account
  · exact h.calm closed ((entries k).imp_right fun ⟨vacant, gone⟩ => ⟨vacant, closed gone⟩) rests quiet

theorem orderly_step (orderly : s.world.Orderly) (shift : Shift s s' seen) : s'.world.Orderly := by
  rcases shift.turn_or_rest with ⟨n, t, u, i, es, p, turn⟩ | ⟨rests, -⟩
  · exact orderly_of_turn orderly turn
  · exact orderly_of_rests orderly rests

end

end Supervisor

end Restock
