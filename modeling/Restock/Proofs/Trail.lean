/-! Trails of machines.

A machine takes one input at a time, or refuses it, and answers with effects. A
trail is everything that a machine went through on its way from one state to
another: one leg for each input, with the states on both sides of it. What holds
at every leg of every trail holds of the machine at all times; what has happened
so far is a function of the legs. -/
namespace Restock

/-- One step of a machine. -/
structure Leg (σ ι ε : Type) where
  before : σ
  input : ι
  effects : List ε
  after : σ

/-- What happens to an activity: its stop flag is raised, or it takes a signal. -/
inductive Stimulus (ι : Type)
  | stop
  | signal (s : ι)

/-- A place in a list with one more at its end is the new place, or one before it. -/
theorem split_snoc {α : Type} {h past later : List α} {l m : α}
    (split : h ++ [l] = past ++ m :: later) :
    (h = past ∧ l = m ∧ later = []) ∨ ∃ rest, later = rest ++ [l] ∧ h = past ++ m :: rest := by
  rcases List.eq_nil_or_concat later with rfl | ⟨rest, n, rfl⟩
  · obtain ⟨same, last⟩ := List.append_inj' split rfl
    exact .inl ⟨same, List.singleton_inj.1 last, rfl⟩
  · rw [List.concat_eq_append, ← List.cons_append, ← List.append_assoc] at split
    obtain ⟨same, last⟩ := List.append_inj' split rfl
    obtain rfl := List.singleton_inj.1 last
    exact .inr ⟨rest, List.concat_eq_append, same⟩

section
variable {σ ι ε : Type} {next? : σ → ι → Option (σ × List ε)}

/-- The legs lead from the first state to the last. -/
inductive Trail (next? : σ → ι → Option (σ × List ε)) (s : σ) : List (Leg σ ι ε) → σ → Prop
  | rest : Trail next? s [] s
  | step {w : List (Leg σ ι ε)} {t u : σ} {i : ι} {es : List ε} (past : Trail next? s w t)
      (taken : next? t i = some (u, es)) : Trail next? s (w ++ [⟨t, i, es, u⟩]) u

/-- The effects of a trail, one after the other. -/
def effectsOf (w : List (Leg σ ι ε)) : List ε := w.flatMap Leg.effects

@[simp] theorem effectsOf_append (w v : List (Leg σ ι ε)) :
    effectsOf (w ++ v) = effectsOf w ++ effectsOf v := List.flatMap_append

@[simp] theorem effectsOf_singleton (l : Leg σ ι ε) : effectsOf [l] = l.effects := by
  simp [effectsOf]

/-- A leg with `P`, and only legs with `Q` since then. -/
def Since (w : List (Leg σ ι ε)) (P Q : Leg σ ι ε → Prop) : Prop :=
  ∃ past l later, w = past ++ l :: later ∧ P l ∧ ∀ m ∈ later, Q m

theorem not_since_nil {P Q : Leg σ ι ε → Prop} : ¬ Since [] P Q := by
  intro since
  obtain ⟨past, l, later, hw, -⟩ := since
  simp at hw

theorem since_snoc_iff {w : List (Leg σ ι ε)} {l : Leg σ ι ε} {P Q : Leg σ ι ε → Prop} :
    Since (w ++ [l]) P Q ↔ P l ∨ (Since w P Q ∧ Q l) := by
  constructor
  · intro since
    obtain ⟨past, m, later, hw, hm, since⟩ := since
    rcases split_snoc hw with ⟨-, rfl, -⟩ | ⟨rest, rfl, rfl⟩
    · exact .inl hm
    · exact .inr ⟨⟨past, m, rest, rfl, hm, fun x hx => since x (by simp [hx])⟩, since l (by simp)⟩
  · intro since
    rcases since with hl | ⟨⟨past, m, later, rfl, hm, since⟩, hl⟩
    · exact ⟨w, l, [], rfl, hl, by simp⟩
    · refine ⟨past, m, later ++ [l], by simp, hm, fun x hx => ?_⟩
      rcases List.mem_append.1 hx with hx | hx
      · exact since x hx
      · rwa [List.mem_singleton.1 hx]

namespace Trail

theorem append {s t u : σ} {w v : List (Leg σ ι ε)} (h : Trail next? s w t)
    (h' : Trail next? t v u) : Trail next? s (w ++ v) u := by
  induction h' with
  | rest => rw [List.append_nil]; exact h
  | step _ taken ih => rw [← List.append_assoc]; exact ih.step taken

theorem single {s t : σ} {i : ι} {es : List ε} (taken : next? s i = some (t, es)) :
    Trail next? s [⟨s, i, es, t⟩] t := .step .rest taken

/-- The last leg of a trail is a step of the machine. -/
theorem last {s u : σ} {w : List (Leg σ ι ε)} {l : Leg σ ι ε} (h : Trail next? s (w ++ [l]) u) :
    Trail next? s w l.before ∧ next? l.before l.input = some (l.after, l.effects) ∧
      l.after = u := by
  generalize hx : w ++ [l] = x at h
  cases h with
  | rest => simp at hx
  | step past taken =>
    obtain ⟨rfl, hl⟩ := List.append_inj' hx rfl
    simp only [List.cons.injEq, and_true] at hl
    subst hl
    exact ⟨past, taken, rfl⟩

/-- A trail in two parts passes through a state between them. -/
theorem split {s u : σ} {w v : List (Leg σ ι ε)} (h : Trail next? s (w ++ v) u) :
    ∃ t, Trail next? s w t ∧ Trail next? t v u := by
  generalize hx : w ++ v = x at h
  induction h generalizing v with
  | rest =>
    obtain ⟨rfl, rfl⟩ := List.append_eq_nil_iff.1 hx
    exact ⟨s, .rest, .rest⟩
  | @step x' t u i es past taken ih =>
    -- The last leg belongs to the second part unless that part is empty.
    rcases List.eq_nil_or_concat v with rfl | ⟨v', l, rfl⟩
    · rw [List.append_nil] at hx
      subst hx
      exact ⟨u, past.step taken, .rest⟩
    · rw [List.concat_eq_append, ← List.append_assoc] at hx
      obtain ⟨hx', hl⟩ := List.append_inj' hx rfl
      obtain ⟨m, h₁, h₂⟩ := ih hx'
      obtain rfl : l = ⟨t, i, es, u⟩ := by simpa using hl
      rw [List.concat_eq_append]
      exact ⟨m, h₁, h₂.step taken⟩

/-- Up to any of its legs a trail is a trail, the leg is a step of the machine, and
the trail goes on from there. -/
theorem reach {s u : σ} {past later : List (Leg σ ι ε)} {l : Leg σ ι ε}
    (h : Trail next? s (past ++ l :: later) u) :
    Trail next? s past l.before ∧ next? l.before l.input = some (l.after, l.effects) ∧
      Trail next? l.after later u := by
  have h' : Trail next? s ((past ++ [l]) ++ later) u := by simpa using h
  obtain ⟨t, first, onward⟩ := h'.split
  obtain ⟨hp, taken, rfl⟩ := first.last
  exact ⟨hp, taken, onward⟩

/-- Machines are deterministic: two trails with the same inputs are the same. -/
theorem determined {s t u : σ} {w v : List (Leg σ ι ε)} (h : Trail next? s w t)
    (h' : Trail next? s v u) (inputs : w.map Leg.input = v.map Leg.input) : w = v ∧ t = u := by
  induction h generalizing v u with
  | rest =>
    have none : v = [] := List.map_eq_nil_iff.1 inputs.symm
    cases h' with
    | rest => exact ⟨rfl, rfl⟩
    | step => simp at none
  | @step w t t' i es past taken ih =>
    rcases List.eq_nil_or_concat v with rfl | ⟨v, l, rfl⟩
    · simp at inputs
    · rw [List.concat_eq_append] at h' inputs ⊢
      rw [List.map_append, List.map_append] at inputs
      obtain ⟨before, last⟩ := List.append_inj' inputs rfl
      obtain ⟨past', taken', rfl⟩ := h'.last
      obtain ⟨rfl, rfl⟩ := ih past' before
      obtain rfl : i = l.input := List.singleton_inj.1 last
      obtain ⟨rfl, rfl⟩ := Prod.mk.inj (Option.some.inj (taken.symm.trans taken'))
      exact ⟨rfl, rfl⟩

/-- Every input is what the lead makes of the legs before it. -/
def Led (lead : List (Leg σ ι ε) → Option ι) (w : List (Leg σ ι ε)) : Prop :=
  ∀ past l later, w = past ++ l :: later → lead past = some l.input

theorem Led.front {lead : List (Leg σ ι ε) → Option ι} {w v : List (Leg σ ι ε)}
    (led : Led lead (w ++ v)) : Led lead w :=
  fun past l later split => led past l (later ++ v) (by rw [split, List.append_assoc]; rfl)

/-- A list of inputs is a lead. -/
theorem led_of_inputs {is : List ι} {w : List (Leg σ ι ε)} (inputs : w.map Leg.input <+: is) :
    Led (fun past => is[past.length]?) w := by
  intro past l later split
  obtain ⟨rest, rfl⟩ := inputs
  simp [split]

/-- Two trails of one machine with one lead are the same if they are equally long. -/
theorem led_determined {lead : List (Leg σ ι ε) → Option ι} {s t u : σ} {w v : List (Leg σ ι ε)}
    (h : Trail next? s w t) (h' : Trail next? s v u) (led : Led lead w) (led' : Led lead v)
    (length : w.length = v.length) : w = v ∧ t = u := by
  induction h generalizing v u with
  | rest =>
    have none : v = [] := List.length_eq_zero_iff.1 length.symm
    cases h' with
    | rest => exact ⟨rfl, rfl⟩
    | step => simp at none
  | @step w t t' i es past taken ih =>
    rcases List.eq_nil_or_concat v with rfl | ⟨v, l, rfl⟩
    · simp at length
    · rw [List.concat_eq_append] at h' led' length ⊢
      obtain ⟨past', taken', rfl⟩ := h'.last
      obtain ⟨rfl, rfl⟩ := ih past' led.front led'.front (by simpa using length)
      obtain rfl : i = l.input :=
        Option.some.inj ((led w _ [] rfl).symm.trans (led' w l [] rfl))
      obtain ⟨rfl, rfl⟩ := Prod.mk.inj (Option.some.inj (taken.symm.trans taken'))
      exact ⟨rfl, rfl⟩

/-- Of two trails of one machine with one lead the shorter is the beginning of the other. -/
theorem led_prefix {lead : List (Leg σ ι ε) → Option ι} {s t u : σ} {w v : List (Leg σ ι ε)}
    (h : Trail next? s w t) (h' : Trail next? s v u) (led : Led lead w) (led' : Led lead v)
    (shorter : w.length ≤ v.length) : w <+: v := by
  rw [← List.take_append_drop w.length v] at h' led'
  obtain ⟨r, first, -⟩ := h'.split
  have length : w.length = (v.take w.length).length := by
    rw [List.length_take, Nat.min_eq_left shorter]
  obtain ⟨same, -⟩ := led_determined h first led led'.front length
  exact List.prefix_iff_eq_take.2 same

/-- The trail that some inputs lead to; an input that is refused leaves no leg. -/
def follow (next? : σ → ι → Option (σ × List ε)) (s : σ) : List ι → List (Leg σ ι ε) × σ
  | [] => ([], s)
  | i :: is =>
    match next? s i with
    | some (t, es) => (⟨s, i, es, t⟩ :: (follow next? t is).1, (follow next? t is).2)
    | none => follow next? s is

theorem of_inputs (next? : σ → ι → Option (σ × List ε)) (s : σ) (is : List ι) :
    Trail next? s (follow next? s is).1 (follow next? s is).2 := by
  induction is generalizing s with
  | nil => exact .rest
  | cons i is ih =>
    unfold follow
    split
    · next t es taken => exact (single taken).append (ih t)
    · exact ih s

end Trail

end

end Restock
