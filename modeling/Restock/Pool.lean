import Restock.Checkout.State
import Restock.Table

/-! The pool of shared sessions.

Tasks of one group that use the same credential log in once. For each key the
pool holds nothing, a claim or a session. Whoever finds nothing claims the key
with a fresh ticket and logs in; the others wait until the claim is replaced by a
session or given up. Finishing a claim changes the pool only if the claim is still
the entry of its key, so a claim whose key was released meanwhile is harmless
(`finish_stale`). Every operation that changes an entry says so, because whoever
waits for a key has to look again after a change. -/
namespace Restock

structure AccountKey where
  groupId : GroupId
  credential : String
  deriving DecidableEq, Repr

/-- The right to log in for a key. -/
structure Guard where
  key : AccountKey
  ticket : Nat
  deriving DecidableEq, Repr

namespace Pool

inductive Entry
  | inProgress (ticket : Nat)
  | ready (session : Session)
  deriving DecidableEq, Repr

end Pool

structure Pool where
  entries : Table AccountKey Pool.Entry
  nextTicket : Nat
  deriving Repr

/-- The answer to a claim. -/
inductive Claim
  | materialized (session : Session)
  /-- Another task logs in. -/
  | inProgress
  | claimed (guard : Guard)
  deriving DecidableEq, Repr

/-- What waiting for a key has come to. -/
inductive Look
  | ready (session : Session)
  /-- The key is free for another claim. -/
  | vacant
  /-- The login is still going on. -/
  | busy
  deriving DecidableEq, Repr

namespace Pool

def empty : Pool := ⟨[], 0⟩

instance : Inhabited Pool := ⟨empty⟩

def entryAt? (p : Pool) (k : AccountKey) : Option Entry := p.entries.get? k

def claim (p : Pool) (k : AccountKey) : Claim × Pool :=
  match p.entryAt? k with
  | some (.ready s) => (.materialized s, p)
  | some (.inProgress _) => (.inProgress, p)
  | none =>
    (.claimed ⟨k, p.nextTicket⟩,
     { entries := p.entries.put k (.inProgress p.nextTicket), nextTicket := p.nextTicket + 1 })

/-- What a waiting task sees. -/
def look (p : Pool) (k : AccountKey) : Look :=
  match p.entryAt? k with
  | some (.ready s) => .ready s
  | some (.inProgress _) => .busy
  | none => .vacant

def get? (p : Pool) (k : AccountKey) : Option Session :=
  match p.entryAt? k with
  | some (.ready s) => some s
  | _ => none

/-- The claim is the entry of its key. -/
def holds (p : Pool) (g : Guard) : Bool := p.entryAt? g.key == some (.inProgress g.ticket)

/-- Replaces a claim by its session, or gives it up; the pool and whether it
changed. -/
def finish (p : Pool) (g : Guard) (session : Option Session) : Pool × Bool :=
  if p.holds g then
    match session with
    | some s => ({ p with entries := p.entries.put g.key (.ready s) }, true)
    | none => ({ p with entries := p.entries.erase g.key }, true)
  else (p, false)

/-- Forgets what the key holds; the pool and whether it changed. -/
def release (p : Pool) (k : AccountKey) : Pool × Bool :=
  if p.entries.has k then ({ p with entries := p.entries.erase k }, true) else (p, false)

/-- Forgets the keys of a group; the pool and how many there were. -/
def removeGroup (p : Pool) (g : GroupId) : Pool × Nat :=
  ({ p with entries := p.entries.filterKeys fun k => k.groupId ≠ g },
   (p.entries.filterKeys fun k => k.groupId = g).length)

def size (p : Pool) : Nat := p.entries.length

def isEmpty (p : Pool) : Bool := p.size == 0

/-- The pool in short: the number of its entries. -/
def summary (p : Pool) : String :=
  "AccountPool \x7b entries: " ++ toString p.size ++ " \x7d"

/-! ### What an account holds after each operation -/

theorem entryAt?_claim (p : Pool) (k l : AccountKey) :
    (p.claim k).2.entryAt? l =
      if k = l ∧ p.entryAt? k = none then some (.inProgress p.nextTicket) else p.entryAt? l := by
  cases h : p.entryAt? k with
  | none =>
    have hc : (p.claim k).2.entries = p.entries.put k (.inProgress p.nextTicket) := by
      simp only [claim, h]
    by_cases hl : k = l
    · subst hl; simp [entryAt?, hc, Table.get?_put]
    · simp [entryAt?, hc, Table.get?_put, hl]
  | some e => cases e <;> simp [claim, h]

theorem entryAt?_finish (p : Pool) (g : Guard) (session : Option Session) (l : AccountKey) :
    (p.finish g session).1.entryAt? l =
      if g.key = l ∧ p.holds g then session.map .ready else p.entryAt? l := by
  cases h : p.holds g with
  | false => simp [finish, h]
  | true =>
    cases session with
    | none => by_cases hl : g.key = l <;> simp [finish, h, entryAt?, Table.get?_erase, hl]
    | some s => by_cases hl : g.key = l <;> simp [finish, h, entryAt?, Table.get?_put, hl]

theorem entryAt?_release (p : Pool) (k l : AccountKey) :
    (p.release k).1.entryAt? l = if k = l then none else p.entryAt? l := by
  cases h : p.entries.has k with
  | true => simp [release, h, entryAt?, Table.get?_erase]
  | false =>
    have hk : p.entries.get? k = none := by simpa [Table.has] using h
    by_cases hl : k = l
    · subst hl; simp [release, h, entryAt?, hk]
    · simp [release, h, hl]

theorem entryAt?_removeGroup (p : Pool) (g : GroupId) (l : AccountKey) :
    (p.removeGroup g).1.entryAt? l = if l.groupId = g then none else p.entryAt? l := by
  by_cases h : l.groupId = g <;> simp [removeGroup, entryAt?, Table.get?_filterKeys, h]

theorem finish_stale {p : Pool} {g : Guard} (h : p.entryAt? g.key ≠ some (.inProgress g.ticket))
    (session : Option Session) : p.finish g session = (p, false) := by
  simp [finish, holds, h]

/-! ### What becomes of a claim -/

section
variable {p : Pool} {k : AccountKey}

/-- A claim of a free key is granted. -/
theorem claim_vacant (h : p.entryAt? k = none) :
    p.claim k = (.claimed ⟨k, p.nextTicket⟩, (p.claim k).2) := by
  simp only [claim, h]

theorem claim_taken (h : p.entryAt? k ≠ none) :
    ∃ c, p.claim k = (c, p) ∧ ∀ g, c ≠ .claimed g := by
  unfold claim
  split
  · exact ⟨_, rfl, nofun⟩
  · exact ⟨_, rfl, nofun⟩
  · contradiction

theorem holds_iff {g : Guard} :
    p.holds g = true ↔ p.entryAt? g.key = some (.inProgress g.ticket) := by
  simp [holds]

theorem nextTicket_claim (h : p.entryAt? k = none) :
    (p.claim k).2.nextTicket = p.nextTicket + 1 := by
  simp only [claim, h]

theorem nextTicket_finish (p : Pool) (g : Guard) (session : Option Session) :
    (p.finish g session).1.nextTicket = p.nextTicket := by
  unfold finish
  split
  · cases session <;> rfl
  · rfl

theorem changed_finish (p : Pool) (g : Guard) (session : Option Session) :
    (p.finish g session).2 = p.holds g := by
  unfold finish
  cases p.holds g <;> cases session <;> rfl

theorem changed_release (p : Pool) (k : AccountKey) :
    (p.release k).2 = (p.entryAt? k).isSome := by
  unfold release
  split
  · next there => exact there.symm
  · next absent => exact (Bool.eq_false_iff.2 absent).symm

theorem nextTicket_release (p : Pool) (k : AccountKey) :
    (p.release k).1.nextTicket = p.nextTicket := by
  unfold release
  split <;> rfl

/-- A claim that is not granted changes nothing; a session that it finds is there. -/
theorem claim_other (h : ∀ g, (p.claim k).1 ≠ .claimed g) :
    (p.claim k).2 = p ∧ ∀ s, (p.claim k).1 = .materialized s → p.entryAt? k = some (.ready s) := by
  cases hk : p.entryAt? k with
  | none => exact absurd rfl (claim_vacant hk ▸ h _)
  | some e => cases e <;> simp [claim, hk]

theorem claim_granted {g : Guard} (h : (p.claim k).1 = .claimed g) :
    p.entryAt? k = none ∧ g = ⟨k, p.nextTicket⟩ := by
  cases hk : p.entryAt? k with
  | none => simpa [claim, hk, eq_comm] using h
  | some e => cases e <;> simp [claim, hk] at h

theorem look_ready {s : Session} (h : p.look k = .ready s) : p.entryAt? k = some (.ready s) := by
  cases hk : p.entryAt? k with
  | none => simp [look, hk] at h
  | some e => cases e <;> simp_all [look]

end

end Pool

end Restock
