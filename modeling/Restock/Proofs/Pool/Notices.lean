import Restock.Proofs.Trail
import Restock.Lobby

/-! Notices of changes.

An operation on the pool first changes an entry and tells of it later, and anything may
happen in between. In a `Hall` every change has a number, so that it can be said which
operation has still to tell. A waiter that rests and has heard of nothing since it
listens rests rightly: its account is busy, or whoever changed the entry last has still
to tell (`Owes`), and then the waiter will hear it. The pause is never what a waiter
depends on (`no_notice_is_lost`). -/
namespace Restock

namespace Lobby

/-- What an operation on the pool is to a lobby: it makes one change at most, and without
a change no entry is another, unless it became a claim. -/
structure Alters (l l' : Lobby) : Prop where
  waiters : l'.waiters = l.waiters
  untold : l'.untold = l.untold ∨ l'.untold = l.untold + 1
  entries : ∀ k, l'.pool.entryAt? k = l.pool.entryAt? k ∨ l'.pool.look k = .busy ∨
    l'.untold = l.untold + 1

theorem alters_put (l : Lobby) (p : Pool) (changed : Bool)
    (entries : ∀ k, p.entryAt? k = l.pool.entryAt? k ∨ p.look k = .busy ∨ changed = true) :
    l.Alters (l.put p changed) := by
  cases changed with
  | true => exact ⟨rfl, .inr rfl, fun _ => .inr (.inr rfl)⟩
  | false =>
    exact ⟨rfl, .inl rfl, fun k => (entries k).imp_right fun h => .inl (h.resolve_right nofun)⟩

theorem alters_claim (l : Lobby) (k : AccountKey) : l.Alters (l.claim k).2 := by
  refine l.alters_put (l.pool.claim k).2 false fun i => ?_
  rw [Pool.look, Pool.entryAt?_claim]
  split
  · exact .inr (.inl rfl)
  · exact .inl rfl

theorem alters_finish (l : Lobby) (g : Guard) (session : Option Session) :
    l.Alters (l.finish g session) := by
  refine l.alters_put (l.pool.finish g session).1 (l.pool.finish g session).2 fun i => ?_
  rw [Pool.changed_finish, Pool.entryAt?_finish]
  split
  · next own => exact .inr (.inr own.2)
  · exact .inl rfl

theorem alters_release (l : Lobby) (k : AccountKey) : l.Alters (l.release k) := by
  refine l.alters_put (l.pool.release k).1 (l.pool.release k).2 fun i => ?_
  rw [Pool.changed_release, Pool.entryAt?_release]
  split
  · next same =>
    subst same
    cases l.pool.entryAt? k with
    | none => exact .inl rfl
    | some e => exact .inr (.inr rfl)
  · exact .inl rfl

theorem alters_removeGroup (l : Lobby) (g : GroupId) : l.Alters (l.removeGroup g).2 := by
  refine l.alters_put (l.pool.removeGroup g).1 ((l.pool.removeGroup g).2 != 0) fun i => ?_
  rw [Pool.entryAt?_removeGroup]
  split
  · next member =>
    cases entry : l.pool.entryAt? i with
    | none => exact .inl rfl
    | some e =>
      -- The entry is among those that are counted.
      have counted : (i, e) ∈ l.pool.entries.filterKeys fun k => k.groupId = g :=
        List.mem_filter.2 ⟨Table.mem_of_get? entry, by simpa using member⟩
      exact .inr (.inr (by simpa [Pool.removeGroup] using List.ne_nil_of_mem counted))
  · exact .inl rfl

end Lobby

namespace Waiter

/-- A waiter moves on from a look by what it saw. By any other move it begins anew, or it
listens, or it gives up. -/
theorem next?_cases {v v' : Waiter} {p : Pool} {i : Move} (next : v.next? p i = some v') :
    v'.account = v.account ∧
      ((i = .look ∧ ∃ heard, v'.phase = afterLook heard (p.look v.account)) ∨
        v'.phase = .starting ∨ v'.phase = .listening false ∨ v'.phase = .ended .stopped) := by
  cases i with
  | look =>
    simp only [next?] at next
    split at next
    · next heard _ =>
      obtain rfl := Option.some.inj next
      exact ⟨rfl, .inl ⟨rfl, heard, rfl⟩⟩
    · contradiction
  | listen | notice | wake | timeout =>
    simp only [next?] at next
    split at next <;> simp only [reduceCtorEq, Option.some.injEq] at next <;> subst next <;>
      simp [enter]

theorem account_hear (v : Waiter) : v.hear.account = v.account := by
  unfold hear
  split <;> rfl

theorem not_asleep_hear (v : Waiter) : v.hear.phase ≠ .resting false := by
  unfold hear
  split
  · nofun
  · nofun
  · next other => exact other false

theorem ended_hear {v : Waiter} {e : WaitEnd} (h : v.hear.phase = .ended e) :
    v.phase = .ended e := by
  unfold hear at h
  split at h
  · contradiction
  · contradiction
  · exact h

end Waiter

/-- The entry that a wait has ended at. -/
def WaitEnd.entry? : WaitEnd → Option (Option Pool.Entry)
  | .ready s => some (some (.ready s))
  | .vacant => some none
  | .stopped => none

/-- A lobby whose changes are numbered. -/
structure Hall where
  lobby : Lobby
  /-- The number of the next change. -/
  nextChange : Nat
  /-- The changes whose operations have still to tell. -/
  owed : List Nat

namespace Hall

inductive Move
  | claim (k : AccountKey)
  /-- A claim is replaced by a session, or it is given up or dropped. -/
  | finish (g : Guard) (session : Option Session)
  | release (k : AccountKey)
  | removeGroup (g : GroupId)
  /-- The operation that made a change tells. -/
  | tell (change : Nat)
  /-- Somebody begins to wait. -/
  | enter (name : String) (k : AccountKey)
  | stop (name : String)
  | wait (name : String) (m : Waiter.Move)
  deriving DecidableEq

/-- The operation made a change and has to tell. -/
inductive Notice
  | changed (change : Nat)
  deriving DecidableEq, Repr

def start : Hall := ⟨.empty, 0, []⟩

/-- An operation on the pool is done, but for telling if it changed anything. -/
def record (h : Hall) (l : Lobby) : Hall × List Notice :=
  if h.lobby.untold < l.untold then
    (⟨l, h.nextChange + 1, h.owed ++ [h.nextChange]⟩, [.changed h.nextChange])
  else ({ h with lobby := l }, [])

def next? (h : Hall) : Move → Option (Hall × List Notice)
  | .claim k => some (h.record (h.lobby.claim k).2)
  | .finish g session => some (h.record (h.lobby.finish g session))
  | .release k => some (h.record (h.lobby.release k))
  | .removeGroup g => some (h.record (h.lobby.removeGroup g).2)
  | .tell n =>
    if n ∈ h.owed then h.lobby.tell?.map fun l => ({ h with lobby := l, owed := h.owed.erase n }, [])
    else none
  | .enter name k => some ({ h with lobby := h.lobby.enter name k }, [])
  | .stop name => some ({ h with lobby := h.lobby.stop name }, [])
  | .wait name m => (h.lobby.move? name m).map fun l => ({ h with lobby := l }, [])

def entryAt? (h : Hall) (k : AccountKey) : Option Pool.Entry := h.lobby.pool.entryAt? k

def waiter? (h : Hall) (name : String) : Option Waiter := h.lobby.waiters.get? name

abbrev Legs := List (Leg Hall Move Notice)

/-- The entry of the key is another after the leg. -/
def Changes (k : AccountKey) (l : Leg Hall Move Notice) : Prop :=
  l.after.entryAt? k ≠ l.before.entryAt? k

/-- The operation that changed the entry of the key last made the change of this number,
and has not told of it. -/
def Owes (w : Legs) (k : AccountKey) (n : Nat) : Prop :=
  Since w (fun l => Changes k l ∧ l.effects = [.changed n])
    fun l => ¬ Changes k l ∧ l.input ≠ .tell n

/-- When the waiter looked last, its account had the entry. -/
def Saw (w : Legs) (name : String) (k : AccountKey) (entry : Option Pool.Entry) : Prop :=
  Since w (fun l => l.input = .wait name .look ∧ l.before.entryAt? k = entry ∧
      (l.before.waiter? name).map Waiter.account = some k)
    fun l => l.input ≠ .wait name .look ∧ ∀ k, l.input ≠ .enter name k

/-- Every change that is owed can be told. -/
structure Counted (h : Hall) : Prop where
  untold : h.lobby.untold = h.owed.length
  numbered : ∀ n ∈ h.owed, n < h.nextChange
  apart : h.owed.Nodup

section
variable {h h' : Hall} {m : Move} {as : List Notice} {k : AccountKey} {name : String}
  {v v' : Waiter} {w : Legs} {n : Nat} {l : Lobby}

/-! ### What a step does -/

/-- What becomes of a waiter in a step. -/
inductive Fares (h : Hall) (m : Move) (name : String) (v' : Waiter) : Prop
  | enters {k : AccountKey} (enters : m = .enter name k) (new : v' = .new k)
  | rests (before : h.waiter? name = some v') (untold : ∀ n, m ≠ .tell n)
    (looks : m ≠ .wait name .look) (stays : ∀ k, m ≠ .enter name k)
  | hears {n : Nat} (told : m = .tell n) {v : Waiter} (before : h.waiter? name = some v)
    (heard : v' = v.hear)
  | stops (stopped : m = .stop name) {v : Waiter} (before : h.waiter? name = some v)
    (flagged : v' = v.stop)
  | moves {i : Waiter.Move} (moved : m = .wait name i) {v : Waiter}
    (before : h.waiter? name = some v) (next : v.next? h.lobby.pool i = some v')

inductive Does (h : Hall) (m : Move) : Hall → List Notice → Prop
  | operate {l : Lobby} (alters : h.lobby.Alters l) (untold : ∀ n, m ≠ .tell n)
    (apart : ∀ name, (∀ i, m ≠ .wait name i) ∧ ∀ k, m ≠ .enter name k) :
    Does h m (h.record l).1 (h.record l).2
  | tell {n : Nat} (tells : m = .tell n) (owed : n ∈ h.owed) {l : Lobby}
    (told : h.lobby.tell? = some l) : Does h m { h with lobby := l, owed := h.owed.erase n } []
  | enter {name : String} {k : AccountKey} (enters : m = .enter name k) :
    Does h m { h with lobby := h.lobby.enter name k } []
  | stop {name : String} (stops : m = .stop name) :
    Does h m { h with lobby := h.lobby.stop name } []
  | move {name : String} {i : Waiter.Move} (moves : m = .wait name i) {v v' : Waiter}
    (there : h.waiter? name = some v) (next : v.next? h.lobby.pool i = some v') :
    Does h m
      { h with lobby := { h.lobby with waiters := h.lobby.waiters.put name v' } } []

theorem does_of_next? (taken : h.next? m = some (h', as)) : Does h m h' as := by
  cases m with
  | claim k =>
    obtain ⟨rfl, rfl⟩ := Prod.ext_iff.1 (Option.some.inj taken)
    exact .operate (h.lobby.alters_claim k) nofun fun _ => ⟨nofun, nofun⟩
  | finish g session =>
    obtain ⟨rfl, rfl⟩ := Prod.ext_iff.1 (Option.some.inj taken)
    exact .operate (h.lobby.alters_finish g session) nofun fun _ => ⟨nofun, nofun⟩
  | release k =>
    obtain ⟨rfl, rfl⟩ := Prod.ext_iff.1 (Option.some.inj taken)
    exact .operate (h.lobby.alters_release k) nofun fun _ => ⟨nofun, nofun⟩
  | removeGroup g =>
    obtain ⟨rfl, rfl⟩ := Prod.ext_iff.1 (Option.some.inj taken)
    exact .operate (h.lobby.alters_removeGroup g) nofun fun _ => ⟨nofun, nofun⟩
  | tell n =>
    rw [next?, Option.ite_none_right_eq_some] at taken
    obtain ⟨l, told, step⟩ := Option.map_eq_some_iff.1 taken.2
    obtain ⟨rfl, rfl⟩ := Prod.mk.inj step
    exact .tell rfl taken.1 told
  | enter name k =>
    obtain ⟨rfl, rfl⟩ := Prod.ext_iff.1 (Option.some.inj taken)
    exact .enter rfl
  | stop name =>
    obtain ⟨rfl, rfl⟩ := Prod.ext_iff.1 (Option.some.inj taken)
    exact .stop rfl
  | wait name i =>
    obtain ⟨l, moved, step⟩ := Option.map_eq_some_iff.1 taken
    obtain ⟨rfl, rfl⟩ := Prod.mk.inj step
    obtain ⟨v, there, moved⟩ := Option.bind_eq_some_iff.1 moved
    obtain ⟨v', next, moved⟩ := Option.bind_eq_some_iff.1 moved
    obtain rfl := Option.some.inj moved
    exact .move rfl there next

theorem record_cases (h : Hall) (l : Lobby) :
    (h.lobby.untold < l.untold ∧
      h.record l = (⟨l, h.nextChange + 1, h.owed ++ [h.nextChange]⟩, [.changed h.nextChange])) ∨
    (l.untold ≤ h.lobby.untold ∧ h.record l = ({ h with lobby := l }, [])) := by
  unfold record
  split
  · next more => exact .inl ⟨more, rfl⟩
  · next same => exact .inr ⟨Nat.le_of_not_lt same, rfl⟩

theorem lobby_record (h : Hall) (l : Lobby) : (h.record l).1.lobby = l := by
  rcases record_cases h l with ⟨-, same⟩ | ⟨-, same⟩ <;> rw [same]

theorem tell_eq {l l' : Lobby} (told : l.tell? = some l') :
    l'.pool = l.pool ∧ l'.waiters = l.waiters.mapValues Waiter.hear ∧ l.untold = l'.untold + 1 := by
  unfold Lobby.tell? at told
  split at told
  · contradiction
  · next more =>
    obtain rfl := Option.some.inj told
    exact ⟨rfl, rfl, more⟩

theorem Does.fares (does : Does h m h' as) (there : h'.waiter? name = some v') :
    Fares h m name v' := by
  cases does with
  | operate alters untold apart =>
    rw [waiter?, lobby_record, alters.waiters] at there
    exact .rests there untold ((apart name).1 _) (apart name).2
  | tell tells owed told =>
    rw [waiter?, (tell_eq told).2.1, Table.get?_mapValues] at there
    obtain ⟨v, before, rfl⟩ := Option.map_eq_some_iff.1 there
    exact .hears tells before rfl
  | @enter i k enters =>
    subst enters
    rcases Table.get?_of_put there with ⟨rfl, rfl⟩ | ⟨other, before⟩
    · exact .enters rfl rfl
    · refine .rests before (by simp) (by simp) fun k same => other ?_
      exact (Move.enter.inj same).1
  | @stop i stops =>
    subst stops
    rw [waiter?, Lobby.stop, Table.get?_modify] at there
    split at there
    · next same =>
      obtain ⟨v, before, rfl⟩ := Option.map_eq_some_iff.1 there
      exact .stops (same ▸ rfl) before rfl
    · exact .rests there (by simp) (by simp) (by simp)
  | @move i m moves v u before next =>
    subst moves
    rcases Table.get?_of_put there with ⟨rfl, rfl⟩ | ⟨other, there⟩
    · exact .moves rfl before next
    · refine .rests there (by simp) (fun same => other ?_) (by simp)
      exact (Move.wait.inj same).1

/-- An entry stays, or becomes a claim, or its change is owed. -/
theorem Does.entries (does : Does h m h' as) (k : AccountKey) :
    h'.entryAt? k = h.entryAt? k ∨ h'.lobby.pool.look k = .busy ∨
      ∃ n ∈ h'.owed, as = [.changed n] := by
  cases does with
  | @operate l alters =>
    rw [entryAt?, lobby_record]
    rcases record_cases h l with ⟨-, more⟩ | ⟨few, -⟩
    · rw [more]
      exact .inr (.inr ⟨h.nextChange, by simp, rfl⟩)
    · rcases alters.entries k with same | busy | more
      · exact .inl same
      · exact .inr (.inl busy)
      · omega
  | tell _ _ told => exact .inl (by rw [entryAt?, (tell_eq told).1]; rfl)
  | enter | stop | move => exact .inl rfl

/-- What is owed stays owed until it is told. -/
theorem Does.owed (does : Does h m h' as) (owed : n ∈ h.owed) (untold : m ≠ .tell n) :
    n ∈ h'.owed := by
  cases does with
  | @operate l =>
    rcases record_cases h l with ⟨-, more⟩ | ⟨-, same⟩
    · rw [more]
      exact List.mem_append_left _ owed
    · rw [same]
      exact owed
  | tell tells =>
    subst tells
    exact (List.mem_erase_of_ne fun same => untold (by rw [same])).2 owed
  | enter | stop | move => exact owed

theorem counted_start : start.Counted := ⟨rfl, by simp [start], List.nodup_nil⟩

theorem Counted.step (counted : h.Counted) (does : Does h m h' as) : h'.Counted := by
  obtain ⟨untold, numbered, apart⟩ := counted
  cases does with
  | @operate l alters =>
    rcases record_cases h l with ⟨more, record⟩ | ⟨few, record⟩ <;> rw [record]
    · have new : h.nextChange ∉ h.owed := fun there => Nat.lt_irrefl _ (numbered _ there)
      refine ⟨?_, fun n hn => ?_, ?_⟩
      · have := alters.untold
        simp only [List.length_append, List.length_singleton]
        omega
      · rcases List.mem_append.1 hn with hn | hn
        · exact Nat.lt_succ_of_lt (numbered n hn)
        · exact List.mem_singleton.1 hn ▸ Nat.lt_succ_self _
      · rw [List.nodup_append]
        refine ⟨apart, by simp, fun a ha b hb same => ?_⟩
        exact new (List.mem_singleton.1 hb ▸ same ▸ ha)
    · refine ⟨?_, numbered, apart⟩
      have := alters.untold
      show l.untold = h.owed.length
      omega
  | @tell n _ owed l told =>
    refine ⟨?_, fun i hi => numbered i (List.mem_of_mem_erase hi), apart.erase n⟩
    have one := (tell_eq told).2.2
    show l.untold = (h.owed.erase n).length
    rw [List.length_erase_of_mem owed]
    omega
  | enter | stop | move => exact ⟨untold, numbered, apart⟩

/-! ### Waiters -/

/-- A waiter that rests and has heard of nothing rests rightly, and one that has ended has
seen why. -/
structure Attentive (w : Legs) (h : Hall) (name : String) (v : Waiter) : Prop where
  asleep : v.phase = .resting false →
    h.lobby.pool.look v.account = .busy ∨ ∃ n ∈ h.owed, Owes w v.account n
  saw : ∀ {e entry}, v.phase = .ended e → e.entry? = some entry → Saw w name v.account entry

/-- Nothing but a notice can make a rest wrong. -/
theorem Does.rest (does : Does h m h' as) (untold : ∀ n, m ≠ .tell n)
    (rests : h.lobby.pool.look k = .busy ∨ ∃ n ∈ h.owed, Owes w k n) :
    h'.lobby.pool.look k = .busy ∨ ∃ n ∈ h'.owed, Owes (w ++ [⟨h, m, as, h'⟩]) k n := by
  by_cases same : h'.entryAt? k = h.entryAt? k
  · rcases rests with busy | ⟨n, owed, owes⟩
    · refine .inl (Eq.trans ?_ busy)
      rw [Pool.look, Pool.look, ← entryAt?, same, entryAt?]
    · exact .inr ⟨n, does.owed owed (untold n),
        since_snoc_iff.2 (.inr ⟨owes, fun changes => changes same, untold n⟩)⟩
  · rcases does.entries k with same' | busy | ⟨n, owed, changed⟩
    · exact absurd same' same
    · exact .inl busy
    · exact .inr ⟨n, owed, since_snoc_iff.2 (.inl ⟨same, changed⟩)⟩

theorem Does.pool_of_wait {i : Waiter.Move} (does : Does h m h' as) (moves : m = .wait name i) :
    h'.lobby.pool = h.lobby.pool := by
  cases does with
  | operate _ _ apart => exact absurd moves ((apart name).1 i)
  | tell tells => simp [moves] at tells
  | enter enters => simp [moves] at enters
  | stop | move => rfl

theorem look_vacant {p : Pool} (h : p.look k = .vacant) : p.entryAt? k = none := by
  cases entry : p.entryAt? k with
  | none => rfl
  | some e => cases e <;> simp [Pool.look, entry] at h

/-- A wait that ends otherwise than by its stop ends with a look. -/
theorem ended_of_next? {i : Waiter.Move} (next : v.next? h.lobby.pool i = some v')
    {e : WaitEnd} {entry : Option Pool.Entry} (ended : v'.phase = .ended e)
    (found : e.entry? = some entry) :
    i = .look ∧ v'.account = v.account ∧ h.entryAt? v.account = entry := by
  obtain ⟨account, ⟨looks, heard, after⟩ | other⟩ := Waiter.next?_cases next
  · refine ⟨looks, account, ?_⟩
    rw [after] at ended
    cases seen : h.lobby.pool.look v.account with
    | ready s =>
      obtain rfl : WaitEnd.ready s = e := by simpa [Waiter.afterLook, seen] using ended
      exact (Pool.look_ready seen).trans (Option.some.inj found)
    | vacant =>
      obtain rfl : WaitEnd.vacant = e := by simpa [Waiter.afterLook, seen] using ended
      exact (look_vacant seen).trans (Option.some.inj found)
    | busy => simp [Waiter.afterLook, seen] at ended
  · rw [ended] at other
    obtain rfl : e = .stopped := by simpa using other
    contradiction

theorem Does.attentive (does : Does h m h' as)
    (kept : ∀ v, h.waiter? name = some v → Attentive w h name v)
    (there : h'.waiter? name = some v') : Attentive (w ++ [⟨h, m, as, h'⟩]) h' name v' := by
  cases does.fares there with
  | enters _ new =>
    subst new
    exact ⟨nofun, nofun⟩
  | rests before untold looks stays =>
    refine ⟨fun resting => does.rest untold ((kept v' before).asleep resting), fun ended found => ?_⟩
    exact since_snoc_iff.2 (.inr ⟨(kept v' before).saw ended found, looks, stays⟩)
  | @hears n told v before heard =>
    subst heard
    refine ⟨fun resting => absurd resting v.not_asleep_hear, fun ended found => ?_⟩
    rw [v.account_hear]
    exact since_snoc_iff.2 (.inr ⟨(kept v before).saw (Waiter.ended_hear ended) found,
      by simp [told], by simp [told]⟩)
  | @stops stopped v before flagged =>
    subst flagged
    refine ⟨fun resting => does.rest (by simp [stopped]) ((kept v before).asleep resting),
      fun ended found => ?_⟩
    exact since_snoc_iff.2 (.inr ⟨(kept v before).saw ended found, by simp [stopped],
      by simp [stopped]⟩)
  | @moves i moved v before next =>
    refine ⟨fun resting => .inl ?_, fun ended found => ?_⟩
    · rw [does.pool_of_wait moved]
      obtain ⟨account, ⟨-, heard, after⟩ | other⟩ := Waiter.next?_cases next
      · rw [account]
        rw [after] at resting
        cases seen : h.lobby.pool.look v.account <;> simp [Waiter.afterLook, seen] at resting ⊢
      · simp [resting] at other
    · obtain ⟨rfl, account, entry⟩ := ended_of_next? next ended found
      rw [account]
      exact since_snoc_iff.2 (.inl ⟨moved, entry, by rw [before]; rfl⟩)

theorem kept_of_trail (trail : Trail next? start w h) :
    h.Counted ∧ ∀ name v, h.waiter? name = some v → Attentive w h name v := by
  induction trail with
  | rest => exact ⟨counted_start, fun name v there => by cases there⟩
  | step past taken ih =>
    have does := does_of_next? taken
    exact ⟨ih.1.step does, fun name v => does.attentive (ih.2 name)⟩

/-! ### Getting up -/

/-- What is owed can be told, and whoever rests hears it. -/
theorem Counted.tell (counted : h.Counted) (owed : n ∈ h.owed) (there : h.waiter? name = some v) :
    ∃ h', h.next? (.tell n) = some (h', []) ∧ h'.lobby.pool = h.lobby.pool ∧
      h'.waiter? name = some v.hear := by
  have more : h.lobby.untold ≠ 0 := by
    rw [counted.untold]
    exact Nat.ne_of_gt (List.length_pos_of_mem owed)
  obtain ⟨rest, count⟩ := Nat.exists_eq_succ_of_ne_zero more
  let told : Lobby :=
    { h.lobby with untold := rest, waiters := h.lobby.waiters.mapValues Waiter.hear }
  have tells : h.lobby.tell? = some told := by rw [Lobby.tell?, count]
  refine ⟨{ h with lobby := told, owed := h.owed.erase n }, ?_, rfl, ?_⟩
  · rw [next?, if_pos owed, tells]
    rfl
  · exact (Table.get?_mapValues ..).trans (congrArg (Option.map Waiter.hear) there)

/-- A waiter moves on its own. -/
theorem trail_wait {i : Waiter.Move} {u : Waiter} (there : h.waiter? name = some v)
    (next : v.next? h.lobby.pool i = some u) :
    ∃ h', Trail Hall.next? h [⟨h, .wait name i, [], h'⟩] h' ∧ h'.lobby.pool = h.lobby.pool ∧
      h'.waiter? name = some u := by
  let moved : Lobby := { h.lobby with waiters := h.lobby.waiters.put name u }
  have moves : h.lobby.move? name i = some moved :=
    Option.bind_eq_some_iff.2 ⟨v, there, Option.bind_eq_some_iff.2 ⟨u, next, rfl⟩⟩
  refine ⟨{ h with lobby := moved }, .single ?_, rfl, Table.get?_put_self ..⟩
  rw [Hall.next?, moves]
  rfl

/-- Whoever has heard of a change gets up and looks again. -/
theorem gets_up (there : h.waiter? name = some v) (heard : v.phase = .resting true)
    (going : v.stopping = false) :
    ∃ w' h', Trail next? h w' h' ∧
      w'.map Leg.input = [.wait name .wake, .wait name .listen, .wait name .look] ∧
      h'.waiter? name = some (v.enter (Waiter.afterLook false (h.lobby.pool.look v.account))) := by
  obtain ⟨h₁, wake, pool₁, there₁⟩ := trail_wait (i := .wake) (u := v.enter .starting) there
    (by rw [Waiter.next?, heard])
  obtain ⟨h₂, listen, pool₂, there₂⟩ := trail_wait (i := .listen)
    (u := v.enter (.listening false)) there₁ (by simp [Waiter.next?, Waiter.enter, going])
  obtain ⟨h₃, look, -, there₃⟩ := trail_wait (i := .look)
    (u := v.enter (Waiter.afterLook false (h₂.lobby.pool.look v.account))) there₂ rfl
  refine ⟨_, h₃, (wake.append listen).append look, rfl, ?_⟩
  rw [there₃, pool₂, pool₁]

/-- No notice is lost. A waiter that rests and has heard of nothing since it listens rests at
a busy account, or whoever changed the account last has still to tell, and then it hears
that. So a waiter whose account is not busy any more needs no pause to get up, and a wait
ends with what was there when it looked last. -/
theorem no_notice_is_lost (trail : Trail next? start w h) (there : h.waiter? name = some v) :
    (v.phase = .resting false →
      h.lobby.pool.look v.account = .busy ∨
        ∃ n, Owes w v.account n ∧ ∃ h', h.next? (.tell n) = some (h', []) ∧
          h'.waiter? name = some (v.enter (.resting true))) ∧
    (∀ heard, v.phase = .resting heard → v.stopping = false →
      h.lobby.pool.look v.account ≠ .busy → ∃ (notices : List Nat) (w' : Legs) (h' : Hall),
        Trail next? h w' h' ∧
        w'.map Leg.input =
          notices.map .tell ++ [.wait name .wake, .wait name .listen, .wait name .look] ∧
        h'.waiter? name =
          some (v.enter (Waiter.afterLook false (h.lobby.pool.look v.account)))) ∧
    (∀ s, v.phase = .ended (.ready s) → Saw w name v.account (some (.ready s))) ∧
    (v.phase = .ended .vacant → Saw w name v.account none) := by
  obtain ⟨counted, kept⟩ := kept_of_trail trail
  obtain ⟨asleep, saw⟩ := kept name v there
  have told : v.phase = .resting false → ∀ n ∈ h.owed, ∃ h', h.next? (.tell n) = some (h', []) ∧
      h'.lobby.pool = h.lobby.pool ∧ h'.waiter? name = some (v.enter (.resting true)) := by
    intro resting n owed
    obtain ⟨h', tells, pool, hears⟩ := counted.tell owed there
    refine ⟨h', tells, pool, hears.trans ?_⟩
    rw [Waiter.hear, resting]
  refine ⟨fun resting => ?_, fun heard resting going free => ?_,
    fun s ended => saw ended rfl, fun ended => saw ended rfl⟩
  · refine (asleep resting).imp_right fun ⟨n, owed, owes⟩ => ?_
    obtain ⟨h', tells, -, hears⟩ := told resting n owed
    exact ⟨n, owes, h', tells, hears⟩
  · cases heard with
    | true =>
      obtain ⟨w', h', up, inputs, ends⟩ := gets_up there resting going
      exact ⟨[], w', h', up, inputs, ends⟩
    | false =>
      obtain ⟨n, owed, -⟩ := (asleep resting).resolve_left free
      obtain ⟨h₁, tells, pool, hears⟩ := told resting n owed
      obtain ⟨w', h', up, inputs, ends⟩ := gets_up hears rfl going
      refine ⟨[n], _, h', (Trail.single tells).append up, ?_, ?_⟩
      · rw [List.map_append, inputs]
        rfl
      · rw [ends, pool]
        rfl

end

def account : AccountKey := ⟨default, "a@b.c"⟩

/-- Two listen while a task logs in, but only one looks before the session is there. The
session is released, and a second claim is given up; nobody has told of any of it yet. -/
def untoldLogin : List Move :=
  [.claim account, .enter "x" account, .wait "x" .listen, .enter "y" account, .wait "y" .listen,
    .wait "x" .look, .finish ⟨account, 0⟩ (some ⟨"a@b.c", .null⟩), .release account,
    .wait "y" .look, .claim account, .finish ⟨account, 1⟩ none]

theorem notices_of_an_untold_login :
    ∃ w h, Trail next? start w h ∧ h.owed = [0, 1, 2] ∧
      h.waiter? "x" = some ⟨account, false, .resting false⟩ ∧ (∃ n, Owes w account n) ∧
      h.waiter? "y" = some ⟨account, false, .ended .vacant⟩ ∧ Saw w "y" account none := by
  have trail := Trail.of_inputs next? start untoldLogin
  have rests : (Trail.follow next? start untoldLogin).2.waiter? "x" =
      some ⟨account, false, .resting false⟩ := by decide
  have ended : (Trail.follow next? start untoldLogin).2.waiter? "y" =
      some ⟨account, false, .ended .vacant⟩ := by decide
  obtain ⟨asleep, -⟩ := no_notice_is_lost trail rests
  obtain ⟨-, -, -, vacant⟩ := no_notice_is_lost trail ended
  obtain ⟨n, owes, -⟩ := (asleep rfl).resolve_left (by decide)
  exact ⟨_, _, trail, by decide, rests, ⟨n, owes⟩, ended, vacant rfl⟩

end Hall

end Restock
