import Restock.Proofs.Trail
import Restock.Pool

/-! Accounts apart.

All keys of a pool share one table and one counter of tickets, and the removal of a
group goes through the whole table. What an operation on a key gives is nevertheless a
matter of that key. An `Account` is a key on its own: what a waiting task sees there,
and for everybody who holds a claim of it whether the claim still stands. It has no
tickets. The operations on the key and the removals of its group do to the account of
a pool what they do to an account alone (`account_next?`); all others do nothing to it
(`account_of_other`). So whatever else happens to the pool can be left out
(`keys_do_not_interfere`). -/
namespace Restock

/-- A pool and those who hold its claims. A claim goes by its key and the name of its
holder, who makes another under that name only when it is finished. -/
structure Holders where
  pool : Pool
  claims : Table (AccountKey × String) Guard

namespace Holders

inductive Move
  | claim (k : AccountKey) (holder : String)
  | get (k : AccountKey)
  /-- A waiting task looks at its key. -/
  | look (k : AccountKey)
  /-- A claim is replaced by a session, or it is given up or dropped. -/
  | finish (k : AccountKey) (holder : String) (session : Option Session)
  | release (k : AccountKey)
  | removeGroup (g : GroupId)

/-- What a claim comes to. -/
inductive Reply
  | shared (s : Session)
  | taken
  | granted
  deriving DecidableEq, Repr

inductive Answer
  | claim (r : Reply)
  | session (s : Option Session)
  | look (l : Look)
  /-- Whether the pool changed, so that those who wait are told. -/
  | changed (b : Bool)
  | removed (n : Nat)
  deriving DecidableEq, Repr

def start : Holders := ⟨.empty, []⟩

def next? (h : Holders) : Move → Option (Holders × List Answer)
  | .claim k n =>
    if h.claims.has (k, n) then none
    else match h.pool.claim k with
      | (.claimed g, p) => some (⟨p, h.claims.put (k, n) g⟩, [.claim .granted])
      | (.materialized s, p) => some ({ h with pool := p }, [.claim (.shared s)])
      | (.inProgress, p) => some ({ h with pool := p }, [.claim .taken])
  | .get k => some (h, [.session (h.pool.get? k)])
  | .look k => some (h, [.look (h.pool.look k)])
  | .finish k n session =>
    (h.claims.get? (k, n)).map fun g =>
      (⟨(h.pool.finish g session).1, h.claims.erase (k, n)⟩, [.changed (h.pool.finish g session).2])
  | .release k => some ({ h with pool := (h.pool.release k).1 }, [.changed (h.pool.release k).2])
  | .removeGroup g =>
    some ({ h with pool := (h.pool.removeGroup g).1 }, [.removed (h.pool.removeGroup g).2])

/-- The key of an operation; a removal has none. -/
def Move.key? : Move → Option AccountKey
  | .claim k _ | .get k | .look k | .finish k _ _ | .release k => some k
  | .removeGroup _ => none

/-- The operations on a key, and the removals of its group. -/
def Move.concerns (k : AccountKey) : Move → Bool
  | .removeGroup g => k.groupId = g
  | m => m.key? = some k

/-- What the operations on a key are answered. A removal counts keys, so its answer is
not a matter of one of them. -/
def answersTo (k : AccountKey) (m : Move) (as : List Answer) : List Answer :=
  if m.key? = some k then as else []

abbrev Legs := List (Leg Holders Move Answer)

def answersOn (k : AccountKey) (w : Legs) : List Answer :=
  w.flatMap fun l => answersTo k l.input l.effects

/-- The operations of a trail that concern a key. -/
def movesOn (k : AccountKey) (w : Legs) : List Move :=
  (w.map Leg.input).filter (Move.concerns k)

end Holders

/-- A key on its own. -/
@[ext] structure Account where
  look : Look
  /-- Whether the claim of a holder stands, if he has one. -/
  standing : String → Option Bool

namespace Account

open Holders (Move Answer)

/-- The entry of the key is replaced: all its claims lapse. -/
def turn (a : Account) (l : Look) : Account :=
  ⟨l, fun n => (a.standing n).map fun _ => false⟩

def hold (a : Account) (n : String) (stands : Option Bool) : Account :=
  { a with standing := fun m => if n = m then stands else a.standing m }

@[simp] theorem look_turn (a : Account) (l : Look) : (a.turn l).look = l := rfl

@[simp] theorem look_hold (a : Account) (n : String) (stands : Option Bool) :
    (a.hold n stands).look = a.look := rfl

@[simp] theorem standing_hold_self (a : Account) (n : String) (stands : Option Bool) :
    (a.hold n stands).standing n = stands := if_pos rfl

theorem standing_hold_other (a : Account) {n m : String} (other : n ≠ m) (stands : Option Bool) :
    (a.hold n stands).standing m = a.standing m := if_neg other

def session? (a : Account) : Option Session :=
  match a.look with
  | .ready s => some s
  | _ => none

/-- What the key shows once its login has come to a session or to nothing. -/
def outcome (session : Option Session) : Look := session.elim .vacant .ready

def next? (a : Account) : Move → Option (Account × List Answer)
  | .claim _ n =>
    if (a.standing n).isSome then none
    else match a.look with
      | .vacant => some ((a.turn .busy).hold n (some true), [.claim .granted])
      | .ready s => some (a, [.claim (.shared s)])
      | .busy => some (a, [.claim .taken])
  | .get _ => some (a, [.session a.session?])
  | .look _ => some (a, [.look a.look])
  | .finish _ n session =>
    (a.standing n).map fun stands =>
      ((if stands then a.turn (outcome session) else a).hold n none, [.changed stands])
  | .release _ => some (a.turn .vacant, [.changed (a.look ≠ .vacant)])
  | .removeGroup _ => some (a.turn .vacant, [])

end Account

namespace Holders

/-- The account of a key. -/
def account (h : Holders) (k : AccountKey) : Account :=
  ⟨h.pool.look k, fun n => (h.claims.get? (k, n)).map h.pool.holds⟩

/-- Claims are held for the keys they are for, and newer claims get other tickets. -/
structure Issued (h : Holders) : Prop where
  key : ∀ {k n g}, h.claims.get? (k, n) = some g → g.key = k
  ticket : ∀ {k n g}, h.claims.get? (k, n) = some g → g.ticket < h.pool.nextTicket

section
variable {h h' : Holders} {m : Move} {as : List Answer} {k : AccountKey} {n : String} {g : Guard}
  {p : Pool} {s : Session} {session : Option Session}

/-! ### Accounts and entries -/

theorem look_congr (entry : h'.pool.entryAt? k = h.pool.entryAt? k) :
    h'.pool.look k = h.pool.look k := by
  rw [Pool.look, Pool.look, entry]

theorem holds_congr (entry : h'.pool.entryAt? g.key = h.pool.entryAt? g.key) :
    h'.pool.holds g = h.pool.holds g := by
  rw [Pool.holds, Pool.holds, entry]

/-- A claim stands as it did if the entry of its key is as it was. -/
theorem standing_congr (issued : h.Issued) (entry : h'.pool.entryAt? k = h.pool.entryAt? k)
    (claim : h'.claims.get? (k, n) = h.claims.get? (k, n)) :
    (h'.account k).standing n = (h.account k).standing n := by
  simp only [account, claim]
  cases held : h.claims.get? (k, n) with
  | none => rfl
  | some g =>
    obtain rfl := issued.key held
    exact congrArg some (holds_congr entry)

/-- A claim lapses if the entry of its key is no old claim any more. -/
theorem standing_turn (issued : h.Issued) (l : Look)
    (lapsed : ∀ t, t < h.pool.nextTicket → h'.pool.entryAt? k ≠ some (.inProgress t))
    (claim : h'.claims.get? (k, n) = h.claims.get? (k, n)) :
    (h'.account k).standing n = ((h.account k).turn l).standing n := by
  simp only [account, Account.turn, claim, Option.map_map]
  cases held : h.claims.get? (k, n) with
  | none => rfl
  | some g =>
    obtain rfl := issued.key held
    refine congrArg some (Bool.eq_false_iff.2 fun holds => ?_)
    exact lapsed g.ticket (issued.ticket held) (Pool.holds_iff.1 holds)

/-- Nothing becomes of an account whose entry and claims are as they were. -/
theorem account_congr (issued : h.Issued) (entry : h'.pool.entryAt? k = h.pool.entryAt? k)
    (claims : ∀ n, h'.claims.get? (k, n) = h.claims.get? (k, n)) : h'.account k = h.account k :=
  Account.ext (look_congr entry) (funext fun n => standing_congr issued entry (claims n))

/-- An account whose entry is forgotten. -/
theorem account_forgotten (issued : h.Issued) (entry : h'.pool.entryAt? k = none)
    (claims : ∀ n, h'.claims.get? (k, n) = h.claims.get? (k, n)) :
    h'.account k = (h.account k).turn .vacant := by
  refine Account.ext ?_ (funext fun n => standing_turn issued _ ?_ (claims n))
  · simp [account, Account.turn, Pool.look, entry]
  · simp [entry]

/-! ### One operation -/

/-- A claim is granted if its key is free, and changes nothing otherwise. -/
theorem claim_cases (taken : h.next? (.claim k n) = some (h', as)) :
    (h.pool.entryAt? k = none ∧
      h' = ⟨(h.pool.claim k).2, h.claims.put (k, n) ⟨k, h.pool.nextTicket⟩⟩) ∨ h' = h := by
  rw [next?, Option.ite_none_left_eq_some] at taken
  cases entry : h.pool.entryAt? k with
  | none =>
    rw [Pool.claim_vacant entry] at taken
    exact .inl ⟨rfl, (Prod.mk.inj (Option.some.inj taken.2)).1.symm⟩
  | some e =>
    obtain ⟨c, same, other⟩ := Pool.claim_taken (p := h.pool) (k := k) (by simp [entry])
    rw [same] at taken
    cases c with
    | claimed g => exact absurd rfl (other g)
    | materialized | inProgress => exact .inr (Prod.mk.inj (Option.some.inj taken.2)).1.symm

theorem account_claimed (issued : h.Issued) (vacant : h.pool.entryAt? k = none) (n : String) :
    (Holders.mk (h.pool.claim k).2 (h.claims.put (k, n) ⟨k, h.pool.nextTicket⟩)).account k =
      ((h.account k).turn .busy).hold n (some true) := by
  have entry : (h.pool.claim k).2.entryAt? k = some (.inProgress h.pool.nextTicket) := by
    simp [Pool.entryAt?_claim, vacant]
  refine Account.ext (by simp [account, Pool.look, entry]) (funext fun m => ?_)
  by_cases same : n = m
  · subst same
    simp [account, Table.get?_put, Pool.holds, entry]
  · rw [Account.standing_hold_other _ same]
    refine standing_turn issued _ (fun t old => ?_) ?_
    · simpa [entry] using (Nat.ne_of_lt old).symm
    · simp [Table.get?_put, same]

/-- A claim that stands is replaced, and with it all others of its key lapse. -/
theorem account_finished (issued : h.Issued) (held : h.claims.get? (k, n) = some g)
    (session : Option Session) :
    (Holders.mk (h.pool.finish g session).1 (h.claims.erase (k, n))).account k =
      (if h.pool.holds g then (h.account k).turn (Account.outcome session) else h.account k).hold n
        none := by
  obtain rfl := issued.key held
  have entry := Pool.entryAt?_finish h.pool g session g.key
  have others : ∀ m, n ≠ m → (h.claims.erase (g.key, n)).get? (g.key, m) =
      h.claims.get? (g.key, m) := by
    intro m other
    simp [Table.get?_erase, other]
  refine Account.ext ?_ (funext fun m => ?_)
  · rw [Account.look_hold]
    split
    · next stands => cases session <;> simp_all [account, Account.outcome, Pool.look]
    · next stale => exact look_congr (by simpa [stale] using entry)
  · by_cases same : n = m
    · subst same
      simp [account, Table.get?_erase]
    · rw [Account.standing_hold_other _ same]
      split
      · next stands =>
        refine standing_turn issued _ (fun t _ => ?_) (others m same)
        cases session <;> simp_all
      · next stale => exact standing_congr issued (by simpa [stale] using entry) (others m same)

theorem has_claims (h : Holders) (k : AccountKey) (n : String) :
    h.claims.has (k, n) = ((h.account k).standing n).isSome :=
  Option.isSome_map.symm

/-- An operation that concerns a key does to its account what it does to an account alone. -/
theorem account_next? (issued : h.Issued) (concerns : m.concerns k = true) :
    (h.account k).next? m = (h.next? m).map fun t => (t.1.account k, answersTo k m t.2) := by
  cases m with
  | claim l n =>
    obtain rfl : l = k := by simpa [Move.concerns, Move.key?] using concerns
    rw [Account.next?, next?, has_claims]
    split
    · rfl
    · cases entry : h.pool.entryAt? l with
      | none =>
        rw [Pool.claim_vacant entry, Option.map_some, account_claimed issued entry]
        simp [account, Pool.look, entry, answersTo, Move.key?]
      | some e => cases e <;> simp [account, Pool.look, Pool.claim, entry, answersTo, Move.key?]
  | get l | look l =>
    obtain rfl : l = k := by simpa [Move.concerns, Move.key?] using concerns
    cases entry : h.pool.entryAt? l with
    | none => simp [Account.next?, next?, account, Account.session?, Pool.look, Pool.get?, entry,
        answersTo, Move.key?]
    | some e => cases e <;> simp [Account.next?, next?, account, Account.session?, Pool.look,
        Pool.get?, entry, answersTo, Move.key?]
  | finish l n session =>
    obtain rfl : l = k := by simpa [Move.concerns, Move.key?] using concerns
    rw [Account.next?, next?, Option.map_map]
    cases held : h.claims.get? (l, n) with
    | none => simp [account, held]
    | some g =>
      have standing : (h.account l).standing n = some (h.pool.holds g) := by simp [account, held]
      simp [standing, account_finished issued held, answersTo, Move.key?, Pool.changed_finish]
  | release l =>
    obtain rfl : l = k := by simpa [Move.concerns, Move.key?] using concerns
    have turned : (Holders.mk (h.pool.release l).1 h.claims).account l =
        (h.account l).turn .vacant :=
      account_forgotten issued (by simp [Pool.entryAt?_release]) fun _ => rfl
    have changed : (h.pool.release l).2 = decide ((h.account l).look ≠ .vacant) := by
      rw [Pool.changed_release]
      cases entry : h.pool.entryAt? l with
      | none => simp [account, Pool.look, entry]
      | some e => cases e <;> simp [account, Pool.look, entry]
    simp [Account.next?, next?, turned, answersTo, Move.key?, changed]
  | removeGroup g =>
    obtain rfl : k.groupId = g := by simpa [Move.concerns, Move.key?] using concerns
    have turned : (Holders.mk (h.pool.removeGroup k.groupId).1 h.claims).account k =
        (h.account k).turn .vacant :=
      account_forgotten issued (by simp [Pool.entryAt?_removeGroup]) fun _ => rfl
    simp [Account.next?, next?, turned, answersTo, Move.key?]

/-- All other operations do nothing to it. -/
theorem account_of_other (issued : h.Issued) (other : m.concerns k = false)
    (taken : h.next? m = some (h', as)) : h'.account k = h.account k ∧ answersTo k m as = [] := by
  have silent : answersTo k m as = [] := by
    refine if_neg fun own => ?_
    cases m <;> simp_all [Move.concerns, Move.key?]
  refine ⟨?_, silent⟩
  cases m with
  | get l | look l =>
    obtain ⟨rfl, -⟩ := Prod.mk.inj (Option.some.inj taken)
    rfl
  | claim l n =>
    have apart : l ≠ k := by simpa [Move.concerns, Move.key?] using other
    rcases claim_cases taken with ⟨vacant, rfl⟩ | rfl
    · exact account_congr issued (by simp [Pool.entryAt?_claim, apart]) fun m => by
        simp [Table.get?_put, apart]
    · rfl
  | finish l n session =>
    have apart : l ≠ k := by simpa [Move.concerns, Move.key?] using other
    obtain ⟨g, held, step⟩ := Option.map_eq_some_iff.1 taken
    obtain ⟨rfl, -⟩ := Prod.mk.inj step
    obtain rfl := issued.key held
    exact account_congr issued (by simp [Pool.entryAt?_finish, apart]) fun m => by
      simp [Table.get?_erase, apart]
  | release l =>
    have apart : l ≠ k := by simpa [Move.concerns, Move.key?] using other
    obtain ⟨rfl, -⟩ := Prod.mk.inj (Option.some.inj taken)
    exact account_congr issued (by simp [Pool.entryAt?_release, apart]) fun _ => rfl
  | removeGroup g =>
    have apart : k.groupId ≠ g := by simpa [Move.concerns] using other
    obtain ⟨rfl, -⟩ := Prod.mk.inj (Option.some.inj taken)
    exact account_congr issued (by simp [Pool.entryAt?_removeGroup, apart]) fun _ => rfl

/-! ### All operations -/

theorem issued_start : start.Issued where
  key held := by cases held
  ticket held := by cases held

theorem Issued.next? (issued : h.Issued) (taken : h.next? m = some (h', as)) : h'.Issued := by
  cases m with
  | get l | look l =>
    obtain ⟨rfl, -⟩ := Prod.mk.inj (Option.some.inj taken)
    exact issued
  | claim l n =>
    rcases claim_cases taken with ⟨vacant, rfl⟩ | rfl
    · refine ⟨fun held => ?_, fun held => ?_⟩
      · rcases Table.get?_of_put held with ⟨same, rfl⟩ | ⟨-, held⟩
        · exact (Prod.mk.inj same).1
        · exact issued.key held
      · show _ < (h.pool.claim l).2.nextTicket
        rw [Pool.nextTicket_claim vacant]
        rcases Table.get?_of_put held with ⟨-, rfl⟩ | ⟨-, held⟩
        · exact Nat.lt_succ_self _
        · exact Nat.lt_succ_of_lt (issued.ticket held)
    · exact issued
  | finish l n session =>
    obtain ⟨g, -, step⟩ := Option.map_eq_some_iff.1 taken
    obtain ⟨rfl, -⟩ := Prod.mk.inj step
    refine ⟨fun held => issued.key (Table.get?_of_erase held), fun held => ?_⟩
    exact (Pool.nextTicket_finish ..).symm ▸ issued.ticket (Table.get?_of_erase held)
  | release l =>
    obtain ⟨rfl, -⟩ := Prod.mk.inj (Option.some.inj taken)
    exact ⟨issued.key, fun held => (Pool.nextTicket_release ..).symm ▸ issued.ticket held⟩
  | removeGroup g =>
    obtain ⟨rfl, -⟩ := Prod.mk.inj (Option.some.inj taken)
    exact ⟨issued.key, issued.ticket⟩

theorem issued_of_trail {w : Legs} (trail : Trail next? start w h) : h.Issued := by
  induction trail with
  | rest => exact issued_start
  | step past taken ih => exact ih.next? taken

variable {w w' : Legs}

@[simp] theorem movesOn_snoc (l : Leg Holders Move Answer) :
    movesOn k (w ++ [l]) = movesOn k w ++ if l.input.concerns k then [l.input] else [] := by
  cases concerns : l.input.concerns k <;> simp [movesOn, concerns]

@[simp] theorem answersOn_snoc (l : Leg Holders Move Answer) :
    answersOn k (w ++ [l]) = answersOn k w ++ answersTo k l.input l.effects := by
  simp [answersOn]

/-- A key answers what it would answer alone. -/
theorem alone (trail : Trail next? start w h) (k : AccountKey) :
    ∃ v, Trail Account.next? (start.account k) v (h.account k) ∧
      v.map Leg.input = movesOn k w ∧ effectsOf v = answersOn k w := by
  induction trail with
  | rest => exact ⟨[], .rest, rfl, rfl⟩
  | @step w h h' m as past taken ih =>
    obtain ⟨v, alone, moves, answers⟩ := ih
    have issued := issued_of_trail past
    cases concerns : m.concerns k with
    | true =>
      have step := account_next? issued concerns
      rw [taken] at step
      exact ⟨_, alone.step step, by simp [moves, concerns], by simp [answers]⟩
    | false =>
      obtain ⟨same, silent⟩ := account_of_other issued concerns taken
      exact ⟨v, same ▸ alone, by simp [moves, concerns], by simp [answers, silent]⟩

/-- What a key goes through alone, it can go through in a pool of which nothing else is asked. -/
theorem of_alone {v : List (Leg Account Move Answer)} {a : Account}
    (alone : Trail Account.next? (start.account k) v a)
    (concern : ∀ m ∈ v.map Leg.input, m.concerns k = true) :
    ∃ w h, Trail next? start w h ∧ w.map Leg.input = v.map Leg.input ∧ h.account k = a := by
  induction alone with
  | rest => exact ⟨[], start, .rest, rfl, rfl⟩
  | @step v a b m as past taken ih =>
    rw [List.map_append, List.forall_mem_append] at concern
    obtain ⟨w, h, trail, moves, rfl⟩ := ih concern.1
    rw [account_next? (issued_of_trail trail) (concern.2 m List.mem_cons_self)] at taken
    obtain ⟨⟨h', as'⟩, step, same⟩ := Option.map_eq_some_iff.1 taken
    exact ⟨_, h', trail.step step, by simp [moves], (Prod.mk.inj same).1⟩

/-- Two pools of which the same is asked about a key answer the same about it. -/
theorem answersOn_determined (trail : Trail next? start w h) (trail' : Trail next? start w' h')
    (moves : movesOn k w' = movesOn k w) :
    answersOn k w' = answersOn k w ∧ h'.account k = h.account k := by
  obtain ⟨v, one, inputs, answers⟩ := alone trail k
  obtain ⟨v', other, inputs', answers'⟩ := alone trail' k
  obtain ⟨rfl, same⟩ := other.determined one (inputs'.trans (moves.trans inputs.symm))
  exact ⟨answers'.symm.trans answers, same⟩

/-- Keys do not interfere: the operations on a key give what they give when everything is
left out that does not concern it, and whatever is left out does nothing to it. -/
theorem keys_do_not_interfere (trail : Trail next? start w h) (k : AccountKey) :
    (∃ v h', Trail next? start v h' ∧ v.map Leg.input = movesOn k w ∧
      answersOn k v = answersOn k w ∧ h'.account k = h.account k) ∧
    (∀ w' h', Trail next? start w' h' → movesOn k w' = movesOn k w →
      answersOn k w' = answersOn k w ∧ h'.account k = h.account k) ∧
    ∀ l ∈ w, l.input.concerns k = false → l.after.account k = l.before.account k := by
  refine ⟨?_, fun w' h' trail' => answersOn_determined trail trail', fun l there other => ?_⟩
  · obtain ⟨v, one, inputs, -⟩ := alone trail k
    obtain ⟨w', h', trail', moves, -⟩ := of_alone one fun m hm => by
      rw [inputs] at hm
      exact (List.mem_filter.1 hm).2
    have concern : movesOn k w' = movesOn k w := by
      rw [movesOn, moves, inputs, movesOn, List.filter_filter]
      simp
    obtain ⟨answers, same⟩ := answersOn_determined trail trail' concern
    exact ⟨w', h', trail', moves.trans inputs, answers, same⟩
  · obtain ⟨past, later, rfl⟩ := List.append_of_mem there
    obtain ⟨before, taken, -⟩ := trail.reach
    exact (account_of_other (issued_of_trail before) other taken).1

end

def home : AccountKey := ⟨.ofNat 1, "a@b.c"⟩

/-- The same credential in another group. -/
def abroad : AccountKey := ⟨.ofNat 2, "a@b.c"⟩

/-- Tasks of both groups log in, and the other group goes away in between. -/
def twoGroups : List Move :=
  [.claim abroad "x", .claim home "x", .claim abroad "y", .finish abroad "x" (some ⟨"a@b.c", .null⟩),
    .look home, .claim home "y", .removeGroup abroad.groupId,
    .finish home "x" (some ⟨"a@b.c", .bool true⟩), .get home]

theorem answers_in_two_groups :
    ∃ w h v h', Trail next? start w h ∧ Trail next? start v h' ∧
      v.map Leg.input = movesOn home w ∧ v.length = 5 ∧
      answersOn home v = [.claim .granted, .look .busy, .claim .taken, .changed true,
        .session (some ⟨"a@b.c", .bool true⟩)] := by
  have trail := Trail.of_inputs next? start twoGroups
  obtain ⟨⟨v, h', alone, moves, answers, -⟩, -⟩ := keys_do_not_interfere trail home
  refine ⟨_, _, v, h', trail, alone, moves, ?_, answers.trans (by decide)⟩
  have length := congrArg List.length moves
  rw [List.length_map] at length
  exact length.trans (by decide)

end Holders

end Restock
