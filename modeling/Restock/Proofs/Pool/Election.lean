import Restock.Proofs.Trail
import Restock.Pool

/-! Elections for accounts.

A pool hands out claims, and whoever got one finishes it once, at a time of his own:
with a session, by giving it up, or by dropping it. A claim that is finished is
dropped later. In between the key may be released or its group removed, and then
claimed by another, so that an old claim may be finished before, during or after a
newer one of its key.

`Election` is a pool with all the claims that it has handed out. What the pool holds
is a matter of its past: a claim is the entry of its key as long as it stands
(`Stands`), and a session is there as long as it lasts (`Lasts`). From this follows
what is safe about elections (`elections_are_safe`). -/
namespace Restock

namespace Election

/-- What has become of a claim. -/
inductive Stage
  | held
  /-- Finished, but not dropped yet. -/
  | finished
  | gone
  deriving DecidableEq, Repr

structure Holding where
  guard : Guard
  stage : Stage
  deriving DecidableEq, Repr

/-- Claims go by the order in which they were handed out. -/
inductive Move
  | claim (k : AccountKey)
  | get (k : AccountKey)
  | materialize (n : Nat) (s : Session)
  | giveUp (n : Nat)
  | drop (n : Nat)
  | release (k : AccountKey)
  | removeGroup (g : GroupId)

inductive Answer
  | claim (c : Claim)
  | session (s : Option Session)
  deriving DecidableEq, Repr

end Election

structure Election where
  pool : Pool
  /-- The claims that were handed out. -/
  holdings : List Election.Holding

namespace Election

def start : Election := ⟨.empty, []⟩

/-- A claim is finished. -/
def finish (e : Election) (n : Nat) (g : Guard) (session : Option Session) (stage : Stage) :
    Election :=
  ⟨(e.pool.finish g session).1, e.holdings.set n ⟨g, stage⟩⟩

def next? (e : Election) : Move → Option (Election × List Answer)
  | .claim k =>
    match e.pool.claim k with
    | (.claimed g, p) => some (⟨p, e.holdings ++ [⟨g, .held⟩]⟩, [.claim (.claimed g)])
    | (c, p) => some ({ e with pool := p }, [.claim c])
  | .get k => some (e, [.session (e.pool.get? k)])
  | .materialize n s =>
    match e.holdings[n]? with
    | some ⟨g, .held⟩ => some (e.finish n g (some s) .finished, [.session (some s)])
    | _ => none
  | .giveUp n =>
    match e.holdings[n]? with
    | some ⟨g, .held⟩ => some (e.finish n g none .finished, [])
    | _ => none
  | .drop n =>
    match e.holdings[n]? with
    | some ⟨g, .held⟩ => some (e.finish n g none .gone, [])
    | some ⟨g, .finished⟩ => some ({ e with holdings := e.holdings.set n ⟨g, .gone⟩ }, [])
    | _ => none
  | .release k => some ({ e with pool := (e.pool.release k).1 }, [])
  | .removeGroup g => some ({ e with pool := (e.pool.removeGroup g).1 }, [])

/-- The claim that a move finishes if it is held, and with what. -/
def Move.finishes? : Move → Option (Nat × Option Session)
  | .materialize n s => some (n, some s)
  | .giveUp n | .drop n => some (n, none)
  | _ => none

/-- What a key holds is forgotten by its release and by the removal of its group. -/
def Move.forgets (k : AccountKey) : Move → Bool
  | .release l => l = k
  | .removeGroup g => k.groupId = g
  | _ => false

inductive Does (e : Election) (i : Move) : Election → List Answer → Prop
  | elect {k : AccountKey} (claims : i = .claim k) (vacant : e.pool.entryAt? k = none) :
    Does e i ⟨(e.pool.claim k).2, e.holdings ++ [⟨⟨k, e.pool.nextTicket⟩, .held⟩]⟩
      [.claim (.claimed ⟨k, e.pool.nextTicket⟩)]
  | idle (finishes : i.finishes? = none) (forgets : ∀ k, i.forgets k = false)
    {answers : List Answer} (elects : ∀ g, .claim (.claimed g) ∉ answers) : Does e i e answers
  | finish {n : Nat} {session : Option Session} (finishes : i.finishes? = some (n, session))
    {g : Guard} (held : e.holdings[n]? = some ⟨g, .held⟩) {stage : Stage} (done : stage ≠ .held)
    {answers : List Answer} (elects : ∀ g, .claim (.claimed g) ∉ answers) :
    Does e i (e.finish n g session stage) answers
  | discard {n : Nat} (drops : i = .drop n) {g : Guard}
    (finished : e.holdings[n]? = some ⟨g, .finished⟩) :
    Does e i { e with holdings := e.holdings.set n ⟨g, .gone⟩ } []
  | forget (finishes : i.finishes? = none) {p : Pool} (ticket : p.nextTicket = e.pool.nextTicket)
    (entries : ∀ k, p.entryAt? k = if i.forgets k then none else e.pool.entryAt? k) :
    Does e i { e with pool := p } []

section
variable {e f : Election} {i : Move} {answers : List Answer}

theorem does_of_next? (h : e.next? i = some (f, answers)) : Does e i f answers := by
  cases i with
  | claim k =>
    by_cases hk : e.pool.entryAt? k = none
    · rw [next?, Pool.claim_vacant hk] at h
      obtain ⟨rfl, rfl⟩ := Prod.ext_iff.1 (Option.some.inj h)
      exact .elect rfl hk
    · obtain ⟨c, hc, other⟩ := Pool.claim_taken hk
      rw [next?, hc] at h
      cases c with
      | claimed g => exact absurd rfl (other g)
      | materialized | inProgress =>
        obtain ⟨rfl, rfl⟩ := Prod.ext_iff.1 (Option.some.inj h)
        exact .idle rfl (fun _ => rfl) (by simp)
  | get k =>
    obtain ⟨rfl, rfl⟩ := Prod.ext_iff.1 (Option.some.inj h)
    exact .idle rfl (fun _ => rfl) (by simp)
  | materialize n s | giveUp n =>
    simp only [next?] at h
    split at h <;> simp only [reduceCtorEq, Option.some.injEq] at h
    next held =>
      obtain ⟨rfl, rfl⟩ := Prod.ext_iff.1 h
      exact .finish rfl held (by decide) (by simp)
  | drop n =>
    simp only [next?] at h
    split at h <;> simp only [reduceCtorEq, Option.some.injEq] at h
    · next held =>
      obtain ⟨rfl, rfl⟩ := Prod.ext_iff.1 h
      exact .finish rfl held (by decide) (by simp)
    · next finished =>
      obtain ⟨rfl, rfl⟩ := Prod.ext_iff.1 h
      exact .discard rfl finished
  | release k =>
    obtain ⟨rfl, rfl⟩ := Prod.ext_iff.1 (Option.some.inj h)
    refine .forget rfl (Pool.nextTicket_release ..) fun l => ?_
    simp [Pool.entryAt?_release, Move.forgets]
  | removeGroup g =>
    obtain ⟨rfl, rfl⟩ := Prod.ext_iff.1 (Option.some.inj h)
    refine .forget rfl rfl fun l => ?_
    simp [Pool.entryAt?_removeGroup, Move.forgets]

end

/-! ### The past of a pool -/

abbrev Legs := List (Leg Election Move Answer)

/-- The claim was handed out, and its key was not forgotten since. -/
def Stands (w : Legs) (g : Guard) : Prop :=
  Since w (fun l => .claim (.claimed g) ∈ l.effects) fun l => l.input.forgets g.key = false

/-- A claim that is the entry of its key is replaced by a session. -/
def Materializes (k : AccountKey) (s : Session) (l : Leg Election Move Answer) : Prop :=
  ∃ n t, l.input = .materialize n s ∧ l.before.holdings[n]? = some ⟨⟨k, t⟩, .held⟩ ∧
    l.before.pool.entryAt? k = some (.inProgress t)

/-- The owner of the claim left a session, and the key was not forgotten since. -/
def Lasts (w : Legs) (k : AccountKey) (s : Session) : Prop :=
  Since w (Materializes k s) fun l => l.input.forgets k = false

/-- What the past of a pool says about it. -/
structure Kept (w : Legs) (e : Election) : Prop where
  issued : ∀ {n : Nat} {h : Holding}, e.holdings[n]? = some h → h.guard.ticket < e.pool.nextTicket
  apart : ∀ {m n : Nat} {x y : Holding}, e.holdings[m]? = some x → e.holdings[n]? = some y →
    x.guard.ticket = y.guard.ticket → m = n
  owned : ∀ {k : AccountKey} {t : Nat}, e.pool.entryAt? k = some (.inProgress t) →
    ∃ n : Nat, e.holdings[n]? = some ⟨⟨k, t⟩, .held⟩
  stands : ∀ {n : Nat} {g : Guard}, e.holdings[n]? = some ⟨g, .held⟩ →
    (e.pool.entryAt? g.key = some (.inProgress g.ticket) ↔ Stands w g)
  lasts : ∀ {k : AccountKey} {s : Session}, e.pool.entryAt? k = some (.ready s) ↔ Lasts w k s

section
variable {w : Legs} {e f : Election} {i : Move} {answers : List Answer} {g : Guard}
  {k : AccountKey} {s : Session} {n : Nat}

theorem stands_snoc_iff (elects : .claim (.claimed g) ∉ answers) :
    Stands (w ++ [⟨e, i, answers, f⟩]) g ↔ Stands w g ∧ i.forgets g.key = false := by
  unfold Stands
  rw [since_snoc_iff, or_iff_right elects]

theorem not_materializes (finishes : i.finishes? = none) :
    ¬ Materializes k s ⟨e, i, answers, f⟩ := by
  intro leaves
  obtain ⟨n, t, rfl, -⟩ := leaves
  simp [Move.finishes?] at finishes

theorem lasts_snoc_iff (finishes : i.finishes? = none) :
    Lasts (w ++ [⟨e, i, answers, f⟩]) k s ↔ Lasts w k s ∧ i.forgets k = false := by
  unfold Lasts
  rw [since_snoc_iff, or_iff_right (not_materializes finishes)]

theorem kept_start : Kept [] start where
  issued h := by simp [start] at h
  apart h := by simp [start] at h
  owned h := by simp [start, Pool.entryAt?, Pool.empty] at h
  stands h := by simp [start] at h
  lasts := by simp [start, Pool.entryAt?, Pool.empty, Lasts, not_since_nil]

/-- A claim is an old one or the one that is new. -/
theorem mem_concat {hs : List Holding} {x y : Holding} (h : (hs ++ [y])[n]? = some x) :
    hs[n]? = some x ∨ (n = hs.length ∧ x = y) := by
  rcases Nat.lt_trichotomy n hs.length with hn | rfl | hn
  · exact .inl (List.getElem?_append_left hn ▸ h)
  · exact .inr ⟨rfl, by simpa [eq_comm] using h⟩
  · rw [List.getElem?_eq_none (by simp; omega)] at h
    contradiction

namespace Kept

theorem idle (h : Kept w e) (finishes : i.finishes? = none) (forgets : ∀ k, i.forgets k = false)
    (elects : ∀ g, .claim (.claimed g) ∉ answers) : Kept (w ++ [⟨e, i, answers, e⟩]) e where
  issued := h.issued
  apart := h.apart
  owned := h.owned
  stands {n g} hn := by
    rw [stands_snoc_iff (elects g), forgets, h.stands hn]
    simp
  lasts {k s} := by
    rw [lasts_snoc_iff finishes, forgets, h.lasts]
    simp

theorem elect (h : Kept w e) (vacant : e.pool.entryAt? k = none) :
    Kept (w ++ [⟨e, .claim k, [.claim (.claimed ⟨k, e.pool.nextTicket⟩)], f⟩])
      ⟨(e.pool.claim k).2, e.holdings ++ [⟨⟨k, e.pool.nextTicket⟩, .held⟩]⟩ := by
  refine ⟨fun {n x} hn => ?_, fun {m n x y} hm hn same => ?_, fun {l t} hl => ?_,
    fun {n g} hn => ?_, fun {l s} => ?_⟩
  · rw [Pool.nextTicket_claim vacant]
    rcases mem_concat hn with hn | ⟨-, rfl⟩
    · exact Nat.lt_succ_of_lt (h.issued hn)
    · exact Nat.lt_succ_self _
  · rcases mem_concat hm with hm | ⟨rfl, rfl⟩ <;> rcases mem_concat hn with hn | ⟨rfl, rfl⟩
    · exact h.apart hm hn same
    · exact absurd same (Nat.ne_of_lt (h.issued hm))
    · exact absurd same.symm (Nat.ne_of_lt (h.issued hn))
    · rfl
  · rw [Pool.entryAt?_claim] at hl
    split at hl
    · next hkl =>
      obtain ⟨rfl, -⟩ := hkl
      obtain rfl : e.pool.nextTicket = t := by simpa using hl
      exact ⟨e.holdings.length, by simp⟩
    · obtain ⟨n, hn⟩ := h.owned hl
      have lt := (List.getElem?_eq_some_iff.1 hn).1
      exact ⟨n, (List.getElem?_append_left lt).trans hn⟩
  · rw [Pool.entryAt?_claim]
    rcases mem_concat hn with hn | ⟨-, new⟩
    · have old : g.ticket ≠ e.pool.nextTicket := Nat.ne_of_lt (h.issued hn)
      have elects : .claim (.claimed g) ∉ [Answer.claim (.claimed ⟨k, e.pool.nextTicket⟩)] := by
        intro hg
        obtain rfl : g = ⟨k, e.pool.nextTicket⟩ := by simpa using hg
        contradiction
      rw [stands_snoc_iff elects, ← h.stands hn]
      split
      · next hkg => simp [← hkg.1, vacant, old.symm]
      · simp [Move.forgets]
    · obtain rfl : g = ⟨k, e.pool.nextTicket⟩ := congrArg Holding.guard new
      rw [Stands, since_snoc_iff]
      simp [vacant]
  · rw [lasts_snoc_iff rfl, ← h.lasts, Pool.entryAt?_claim]
    split
    · next hkl => simp [← hkl.1, vacant]
    · simp [Move.forgets]

theorem forget (h : Kept w e) (finishes : i.finishes? = none) {p : Pool}
    (ticket : p.nextTicket = e.pool.nextTicket)
    (entries : ∀ k, p.entryAt? k = if i.forgets k then none else e.pool.entryAt? k) :
    Kept (w ++ [⟨e, i, [], f⟩]) { e with pool := p } where
  issued hn := by rw [ticket]; exact h.issued hn
  apart := h.apart
  owned hk := by
    rw [entries] at hk
    split at hk
    · contradiction
    · exact h.owned hk
  stands {n g} hn := by
    rw [stands_snoc_iff (by simp), ← h.stands hn, entries]
    cases i.forgets g.key <;> simp
  lasts {k s} := by
    rw [lasts_snoc_iff finishes, ← h.lasts, entries]
    cases i.forgets k <;> simp

/-- Claims are as before, but one that was held is not held any more. -/
theorem holding_of_set {hs : List Holding} {m : Nat} {x : Holding} {old : Stage} {stage : Stage}
    (was : hs[n]? = some ⟨g, old⟩) (hm : (hs.set n ⟨g, stage⟩)[m]? = some x) :
    ∃ y : Holding, hs[m]? = some y ∧ y.guard = x.guard := by
  rw [List.getElem?_set] at hm
  split at hm
  · next hnm =>
    subst hnm
    split at hm
    · obtain rfl := Option.some.inj hm
      exact ⟨_, was, rfl⟩
    · contradiction
  · exact ⟨x, hm, rfl⟩

theorem held_of_set {hs : List Holding} {m : Nat} {g' : Guard} {stage : Stage}
    (done : stage ≠ .held) (hm : (hs.set n ⟨g, stage⟩)[m]? = some ⟨g', .held⟩) :
    n ≠ m ∧ hs[m]? = some ⟨g', .held⟩ := by
  rw [List.getElem?_set] at hm
  split at hm
  · split at hm
    · exact absurd (congrArg Holding.stage (Option.some.inj hm)) done
    · contradiction
  · next hnm => exact ⟨hnm, hm⟩

theorem forgets_of_finishes {session : Option Session} (finishes : i.finishes? = some (n, session))
    (k : AccountKey) : i.forgets k = false := by
  cases i <;> first | rfl | contradiction

theorem finish (h : Kept w e) {session : Option Session}
    (finishes : i.finishes? = some (n, session)) (held : e.holdings[n]? = some ⟨g, .held⟩)
    {stage : Stage} (done : stage ≠ .held) (elects : ∀ g, .claim (.claimed g) ∉ answers) :
    Kept (w ++ [⟨e, i, answers, f⟩]) (e.finish n g session stage) := by
  have forgets := forgets_of_finishes finishes
  refine ⟨fun hn => ?_, fun {m n' x y} hm hn same => ?_, fun {k t} hk => ?_, fun {m g'} hm => ?_,
    fun {k s} => ?_⟩
  · obtain ⟨y, hy, same⟩ := holding_of_set held hn
    rw [Election.finish, Pool.nextTicket_finish, ← same]
    exact h.issued hy
  · obtain ⟨x', hx', hx⟩ := holding_of_set held hm
    obtain ⟨y', hy', hy⟩ := holding_of_set held hn
    exact h.apart hx' hy' (by rw [hx, hy, same])
  · rw [Election.finish, Pool.entryAt?_finish] at hk
    split at hk
    · cases session <;> simp at hk
    · next other =>
      obtain ⟨m, hm⟩ := h.owned hk
      have hnm : n ≠ m := by
        intro same
        subst same
        obtain rfl : g = ⟨k, t⟩ := by simpa [held] using hm
        exact other ⟨rfl, Pool.holds_iff.2 hk⟩
      exact ⟨m, (List.getElem?_set_ne hnm).trans hm⟩
  · obtain ⟨hnm, hm⟩ := held_of_set done hm
    rw [stands_snoc_iff (elects g'), forgets, ← h.stands hm, Election.finish, Pool.entryAt?_finish]
    split
    · next own =>
      have entry := Pool.holds_iff.1 own.2
      have apart : g.ticket ≠ g'.ticket := fun same => hnm (h.apart held hm same)
      rw [← own.1, entry]
      cases session <;> simp [apart]
    · simp
  · rw [Lasts, since_snoc_iff, ← Lasts, forgets, ← h.lasts, Election.finish, Pool.entryAt?_finish]
    by_cases own : g.key = k ∧ e.pool.holds g
    · have entry := Pool.holds_iff.1 own.2
      rw [if_pos own, ← own.1, entry]
      simp only [Option.some.injEq, reduceCtorEq, false_and, or_false]
      constructor
      · intro hs
        obtain rfl : session = some s := by cases session <;> simp_all
        obtain rfl : i = .materialize n s := by cases i <;> simp_all [Move.finishes?]
        exact ⟨n, g.ticket, rfl, held, entry⟩
      · intro leaves
        obtain ⟨n', t, rfl, -, -⟩ := leaves
        obtain ⟨-, rfl⟩ : n' = n ∧ some s = session := by simpa [Move.finishes?] using finishes
        rfl
    · rw [if_neg own]
      have stale : ¬ Materializes k s ⟨e, i, answers, f⟩ := by
        intro leaves
        obtain ⟨n', t, rfl, hn', entry⟩ := leaves
        obtain ⟨rfl, rfl⟩ : n' = n ∧ some s = session := by simpa [Move.finishes?] using finishes
        obtain rfl : g = ⟨k, t⟩ := by simpa [held] using hn'
        exact own ⟨rfl, Pool.holds_iff.2 entry⟩
      simp [stale]

theorem discard (h : Kept w e) (finished : e.holdings[n]? = some ⟨g, .finished⟩) :
    Kept (w ++ [⟨e, .drop n, [], f⟩]) { e with holdings := e.holdings.set n ⟨g, .gone⟩ } := by
  refine ⟨fun hn => ?_, fun {m n' x y} hm hn same => ?_, fun {k t} hk => ?_, fun {m g'} hm => ?_,
    fun {k s} => ?_⟩
  · obtain ⟨y, hy, same⟩ := holding_of_set finished hn
    rw [← same]
    exact h.issued hy
  · obtain ⟨x', hx', hx⟩ := holding_of_set finished hm
    obtain ⟨y', hy', hy⟩ := holding_of_set finished hn
    exact h.apart hx' hy' (by rw [hx, hy, same])
  · obtain ⟨m, hm⟩ := h.owned hk
    have hnm : n ≠ m := by
      intro same
      subst same
      simp [finished] at hm
    exact ⟨m, (List.getElem?_set_ne hnm).trans hm⟩
  · obtain ⟨-, hm⟩ := held_of_set (by decide) hm
    rw [stands_snoc_iff (by simp), ← h.stands hm]
    simp [Move.forgets]
  · rw [Lasts, since_snoc_iff, ← Lasts, ← h.lasts]
    simp [Materializes, Move.forgets]

end Kept

theorem kept_of_trail (h : Trail next? start w e) : Kept w e := by
  induction h with
  | rest => exact kept_start
  | step past taken ih =>
    cases does_of_next? taken with
    | elect claims vacant =>
      subst claims
      exact ih.elect vacant
    | idle finishes forgets elects => exact ih.idle finishes forgets elects
    | finish finishes held done elects => exact ih.finish finishes held done elects
    | discard drops finished =>
      subst drops
      exact ih.discard finished
    | forget finishes ticket entries => exact ih.forget finishes ticket entries

/-! ### Safety -/

/-- What is safe about a pool that went through a trail. -/
structure Safe (w : Legs) (e : Election) : Prop where
  /-- A login that is in progress belongs to one claim, which is not finished. -/
  owner : ∀ k t, e.pool.entryAt? k = some (.inProgress t) →
    ∃ n : Nat, e.holdings[n]? = some ⟨⟨k, t⟩, .held⟩ ∧ Stands w ⟨k, t⟩ ∧
      ∀ (m : Nat) (h : Holding), e.holdings[m]? = some h → h.guard = ⟨k, t⟩ → m = n
  tickets : ∀ (m n : Nat) (x y : Holding), e.holdings[m]? = some x → e.holdings[n]? = some y →
    x.guard.ticket = y.guard.ticket → m = n
  /-- Claims are granted for free keys. -/
  vacant : ∀ past l later, w = past ++ l :: later → ∀ g, .claim (.claimed g) ∈ l.effects →
    l.input = .claim g.key ∧ l.before.pool.entryAt? g.key = none
  /-- A claim is the entry of its key as long as it stands; after that, and after it was
  finished, nothing that becomes of it matters to the pool. -/
  stale : ∀ past l later, w = past ++ l :: later → ∀ n session h,
    l.input.finishes? = some (n, session) → l.before.holdings[n]? = some h →
    (h.stage = .held →
      (l.before.pool.entryAt? h.guard.key = some (.inProgress h.guard.ticket) ↔
        Stands past h.guard)) ∧
    (h.stage ≠ .held ∨ ¬ Stands past h.guard → l.after.pool = l.before.pool)
  /-- A session is there as long as it lasts. -/
  ready : ∀ k s, e.pool.entryAt? k = some (.ready s) ↔ Lasts w k s

theorem Does.vacant (h : Does e i f answers) (granted : .claim (.claimed g) ∈ answers) :
    i = .claim g.key ∧ e.pool.entryAt? g.key = none := by
  cases h with
  | elect claims vacant =>
    obtain rfl : g = _ := by simpa using granted
    exact ⟨claims, vacant⟩
  | idle _ _ elects => exact absurd granted (elects g)
  | finish _ _ _ elects => exact absurd granted (elects g)
  | discard => simp at granted
  | forget => simp at granted

theorem Does.stale (h : Does e i f answers) {session : Option Session} {x : Holding}
    (finishes : i.finishes? = some (n, session)) (hx : e.holdings[n]? = some x)
    (stale : x.stage ≠ .held ∨ e.pool.entryAt? x.guard.key ≠ some (.inProgress x.guard.ticket)) :
    f.pool = e.pool := by
  cases h with
  | elect claims => simp [claims, Move.finishes?] at finishes
  | idle | discard => rfl
  | finish finishes' held =>
    obtain ⟨rfl, rfl⟩ : _ = n ∧ _ = session := by simpa [finishes'] using finishes
    obtain rfl : _ = x := by simpa [held] using hx
    have stale := stale.resolve_left fun h => h rfl
    rw [Election.finish, Pool.finish_stale stale]
  | forget finishes' => simp [finishes'] at finishes

/-- Elections are safe, in whatever order claims are made, finished and dropped, and
keys and groups are forgotten. -/
theorem elections_are_safe (h : Trail next? start w e) : Safe w e := by
  have kept := kept_of_trail h
  refine ⟨fun k t hk => ?_, fun m n x y => kept.apart, ?_, ?_, fun k s => kept.lasts⟩
  · obtain ⟨n, hn⟩ := kept.owned hk
    refine ⟨n, hn, (kept.stands hn).1 hk, fun m x hm hx => ?_⟩
    exact kept.apart hm hn (by rw [hx])
  · rintro past l later rfl g granted
    obtain ⟨-, taken, -⟩ := h.reach
    exact (does_of_next? taken).vacant granted
  · rintro past ⟨b, i, answers, a⟩ later rfl n session ⟨g, stage⟩ finishes hn
    obtain ⟨before, taken, -⟩ := h.reach
    have stands : stage = .held → (b.pool.entryAt? g.key = some (.inProgress g.ticket) ↔
        Stands past g) := by
      intro same
      subst same
      exact (kept_of_trail before).stands hn
    refine ⟨stands, fun stale => ?_⟩
    refine (does_of_next? taken).stale finishes hn ?_
    by_cases held : stage = .held
    · exact .inr fun entry => (stale.resolve_left fun h => h held) ((stands held).1 entry)
    · exact .inl held

end

def account : AccountKey := ⟨default, "a@b.c"⟩

/-- A key is released and claimed again; both claims then come to a session. -/
def overtaken : List Move :=
  [.claim account, .release account, .claim account, .materialize 0 ⟨"a@b.c", .bool false⟩,
    .materialize 1 ⟨"a@b.c", .bool true⟩, .drop 0, .drop 1, .get account]

theorem safety_of_an_overtaken_claim :
    ∃ w e, Trail next? start w e ∧ Safe w e ∧ e.holdings.map (·.guard.ticket) = [0, 1] ∧
      e.pool.entryAt? account = some (.ready ⟨"a@b.c", .bool true⟩) := by
  have h := Trail.of_inputs next? start overtaken
  exact ⟨_, _, h, elections_are_safe h, by decide, by decide⟩

end Election

end Restock
