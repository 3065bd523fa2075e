/-! Tables: at most one value for each key.

A table is a list of pairs in the order in which their keys came in. `put`
replaces the value of a key in its place or adds the pair at the end. What a key
holds after each operation is said by `get?_put`, `get?_erase`, `get?_modify`,
`get?_filterKeys` and `get?_mapValues`; every operation keeps the keys apart
(`nodup_put`, `nodup_erase`, `nodup_modify`). -/
namespace Restock

abbrev Table (κ α : Type) := List (κ × α)

namespace Table

variable {κ α : Type} [DecidableEq κ]

def keys (t : Table κ α) : List κ := t.map (·.1)

def values (t : Table κ α) : List α := t.map (·.2)

def get? (t : Table κ α) (k : κ) : Option α :=
  match t with
  | [] => none
  | (l, a) :: t => if l = k then some a else get? t k

def has (t : Table κ α) (k : κ) : Bool := (t.get? k).isSome

def put (t : Table κ α) (k : κ) (a : α) : Table κ α :=
  match t with
  | [] => [(k, a)]
  | (l, b) :: t => if l = k then (k, a) :: t else (l, b) :: put t k a

def erase (t : Table κ α) (k : κ) : Table κ α := t.filter fun e => e.1 ≠ k

/-- Changes the value of a key that is there. -/
def modify (t : Table κ α) (k : κ) (f : α → α) : Table κ α :=
  t.map fun e => if e.1 = k then (e.1, f e.2) else e

/-- Changes every value. -/
def mapValues {β : Type} (t : Table κ α) (f : α → β) : Table κ β := t.map fun e => (e.1, f e.2)

@[simp] theorem get?_nil (k : κ) : get? ([] : Table κ α) k = none := rfl

theorem get?_put (t : Table κ α) (k : κ) (a : α) (l : κ) :
    (t.put k a).get? l = if k = l then some a else t.get? l := by
  induction t with
  | nil => simp [put, get?]
  | cons e t ih =>
    obtain ⟨m, b⟩ := e
    by_cases hm : m = k
    · subst hm
      by_cases hl : m = l <;> simp [put, get?, hl]
    · by_cases hl : k = l
      · subst hl
        simp [put, get?, hm, ih]
      · by_cases hml : m = l <;> simp_all [put, get?]

theorem get?_put_self (t : Table κ α) (k : κ) (a : α) : (t.put k a).get? k = some a :=
  (get?_put ..).trans (if_pos rfl)

/-- What is held after a `put` was put there, or was held before. -/
theorem get?_of_put {t : Table κ α} {k l : κ} {a b : α} (h : (t.put k a).get? l = some b) :
    k = l ∧ a = b ∨ k ≠ l ∧ t.get? l = some b := by
  rw [get?_put] at h
  split at h
  · next same => exact .inl ⟨same, Option.some.inj h⟩
  · next other => exact .inr ⟨other, h⟩

/-- Pairs whose keys pass a test. -/
def filterKeys (t : Table κ α) (p : κ → Bool) : Table κ α := t.filter fun e => p e.1

theorem get?_filterKeys (t : Table κ α) (p : κ → Bool) (l : κ) :
    (t.filterKeys p).get? l = if p l then t.get? l else none := by
  induction t with
  | nil => simp [filterKeys]
  | cons e t ih =>
    obtain ⟨m, b⟩ := e
    simp only [filterKeys] at ih
    by_cases hm : p m
    · by_cases hl : m = l
      · subst hl; simp [filterKeys, get?, hm]
      · simp [filterKeys, get?, hm, hl, ih]
    · by_cases hl : m = l
      · subst hl
        have hm : p m = false := by simpa using hm
        simp [filterKeys, hm, ih]
      · simp [filterKeys, get?, hm, hl, ih]

theorem get?_erase (t : Table κ α) (k l : κ) :
    (t.erase k).get? l = if k = l then none else t.get? l := by
  have := get?_filterKeys t (fun m => m ≠ k) l
  by_cases h : k = l
  · subst h; simpa [erase, filterKeys] using this
  · have h' : ¬ l = k := fun e => h e.symm
    simpa [erase, filterKeys, h, h'] using this

/-- What is left was there. -/
theorem get?_of_erase {t : Table κ α} {k l : κ} {a : α} (h : (t.erase k).get? l = some a) :
    t.get? l = some a := by
  rw [get?_erase] at h
  split at h
  · contradiction
  · exact h

theorem get?_modify (t : Table κ α) (k : κ) (f : α → α) (l : κ) :
    (t.modify k f).get? l = if k = l then (t.get? l).map f else t.get? l := by
  induction t with
  | nil => simp [modify]
  | cons e t ih =>
    obtain ⟨m, b⟩ := e
    simp only [modify] at ih
    by_cases hm : m = k
    · subst hm
      by_cases hl : m = l <;> simp_all [modify, get?]
    · by_cases hl : k = l
      · subst hl
        simp_all [modify, get?]
      · by_cases hml : m = l <;> simp_all [modify, get?]

theorem get?_mapValues {β : Type} (t : Table κ α) (f : α → β) (k : κ) :
    (t.mapValues f).get? k = (t.get? k).map f := by
  induction t with
  | nil => simp [mapValues]
  | cons e t ih =>
    obtain ⟨m, b⟩ := e
    simp only [mapValues] at ih
    by_cases hm : m = k <;> simp [mapValues, get?, hm, ih]

theorem mem_keys_iff (t : Table κ α) (k : κ) : k ∈ t.keys ↔ (t.get? k).isSome := by
  induction t with
  | nil => simp [keys]
  | cons e t ih =>
    obtain ⟨m, b⟩ := e
    simp only [keys] at ih
    by_cases hm : m = k
    · simp [keys, get?, hm]
    · have : ¬ k = m := fun h => hm h.symm
      simp [keys, get?, hm, this, ← ih]

theorem mem_of_get? {t : Table κ α} {k : κ} {a : α} (h : t.get? k = some a) : (k, a) ∈ t := by
  induction t with
  | nil => simp at h
  | cons e t ih =>
    obtain ⟨l, b⟩ := e
    rw [get?] at h
    split at h
    · next same =>
      obtain rfl := Option.some.inj h
      rw [same]
      exact List.mem_cons_self
    · exact List.mem_cons_of_mem _ (ih h)

theorem get?_of_mem {t : Table κ α} {k : κ} {a : α} (apart : t.keys.Nodup) (h : (k, a) ∈ t) :
    t.get? k = some a := by
  induction t with
  | nil => contradiction
  | cons e t ih =>
    obtain ⟨l, b⟩ := e
    obtain ⟨new, apart⟩ := List.nodup_cons.1 apart
    rw [get?]
    rcases List.mem_cons.1 h with same | h
    · obtain ⟨rfl, rfl⟩ := Prod.mk.inj same
      exact if_pos rfl
    · rw [if_neg]
      · exact ih apart h
      · intro same
        exact new (List.mem_map.2 ⟨(k, a), h, same.symm⟩)

theorem erase_of_absent {t : Table κ α} {k : κ} (absent : t.get? k = none) : t.erase k = t := by
  refine List.filter_eq_self.2 fun e he => ?_
  have there : (t.get? e.1).isSome = true := (mem_keys_iff ..).1 (List.mem_map_of_mem he)
  refine decide_eq_true fun same => ?_
  rw [same, absent] at there
  contradiction

theorem modify_of_absent {t : Table κ α} {k : κ} (absent : k ∉ t.keys) (f : α → α) :
    t.modify k f = t := by
  refine (List.map_congr_left fun e he => if_neg fun same => ?_).trans (List.map_id _)
  exact absent (same ▸ List.mem_map_of_mem he)

theorem mem_values_of_get? {t : Table κ α} {k : κ} {a : α} (h : t.get? k = some a) :
    a ∈ t.values := List.mem_map_of_mem (mem_of_get? h)

theorem of_mem_values_put {t : Table κ α} {k : κ} {a b : α}
    (h : b ∈ (t.put k a).values) : b = a ∨ b ∈ t.values := by
  induction t with
  | nil => exact .inl (List.mem_singleton.1 h)
  | cons e t ih =>
    rw [put] at h
    split at h
    · exact (List.mem_cons.1 h).imp_right (List.mem_cons_of_mem _)
    · rcases List.mem_cons.1 h with rfl | h
      · exact .inr List.mem_cons_self
      · exact (ih h).imp_right (List.mem_cons_of_mem _)

theorem keys_modify (t : Table κ α) (k : κ) (f : α → α) : (t.modify k f).keys = t.keys := by
  simp only [keys, modify, List.map_map]
  refine List.map_congr_left fun e _ => ?_
  simp only [Function.comp_apply]
  split <;> rfl

theorem keys_put (t : Table κ α) (k : κ) (a : α) :
    (t.put k a).keys = if k ∈ t.keys then t.keys else t.keys ++ [k] := by
  induction t with
  | nil => simp [put, keys]
  | cons e t ih =>
    obtain ⟨m, b⟩ := e
    simp only [keys] at ih
    by_cases hm : m = k
    · simp [put, keys, hm]
    · have hk : ¬ k = m := fun h => hm h.symm
      simp only [put, if_neg hm, keys, List.map_cons, ih, List.mem_cons, hk, false_or]
      split <;> simp_all

omit [DecidableEq κ] in
theorem keys_mapValues {β : Type} (t : Table κ α) (f : α → β) : (t.mapValues f).keys = t.keys := by
  simp only [keys, mapValues, List.map_map]
  rfl

/-- Tables with the same keys in the same order differ in the value of some key. -/
theorem ext_get? {t u : Table κ α} (aligned : t.keys = u.keys) (apart : t.keys.Nodup)
    (same : ∀ k, t.get? k = u.get? k) : t = u := by
  induction t generalizing u with
  | nil => exact (List.map_eq_nil_iff.1 aligned.symm).symm
  | cons e t ih =>
    obtain ⟨k, a⟩ := e
    cases u with
    | nil => simp [keys] at aligned
    | cons e u =>
      obtain ⟨l, b⟩ := e
      obtain ⟨first, rest⟩ : k = l ∧ keys t = keys u := List.cons.inj aligned
      subst first
      obtain ⟨new, apart⟩ := List.nodup_cons.1 apart
      obtain rfl : a = b := by simpa [get?] using same k
      rw [ih rest apart fun m => ?_]
      by_cases hm : k = m
      · -- The first key is in neither rest.
        subst hm
        have gone : ∀ v : Table κ α, k ∉ v.keys → v.get? k = none := fun v hv =>
          Option.not_isSome_iff_eq_none.1 fun h => hv ((mem_keys_iff v k).2 h)
        rw [gone t new, gone u (rest ▸ new)]
      · simpa [get?, hm] using same m

/-- Each value counts once. -/
theorem countP_values (t : Table κ α) (p : α → Bool) (apart : t.keys.Nodup) :
    t.values.countP p = t.keys.countP fun k => (t.get? k).any p := by
  rw [values, keys, List.countP_map, List.countP_map]
  refine List.countP_congr fun e he => ?_
  simp [get?_of_mem apart he]

/-- What is made of the values, each under the label of its key, holds one thing for each
key at most. -/
theorem filter_filterMap_values {β : Type} (t : Table κ α) (f : α → Option β) (label : β → κ)
    (apart : t.keys.Nodup) (labelled : ∀ e ∈ t, ∀ b, f e.2 = some b → label b = e.1) (k : κ) :
    ((t.values.filterMap f).filter fun b => label b = k) = ((t.get? k).bind f).toList := by
  induction t with
  | nil => rfl
  | cons e t ih =>
    obtain ⟨l, a⟩ := e
    obtain ⟨new, apart⟩ := List.nodup_cons.1 apart
    have rest := ih apart fun e he => labelled e (List.mem_cons_of_mem _ he)
    rw [show values ((l, a) :: t) = a :: values t from rfl, get?]
    by_cases same : l = k
    · -- The key is not among the others.
      subst same
      have absent : get? t l = none := Option.not_isSome_iff_eq_none.1 fun there =>
        new ((mem_keys_iff t l).2 there)
      rw [absent] at rest
      rw [if_pos rfl]
      cases ha : f a with
      | none => simpa [ha] using rest
      | some b => simpa [ha, labelled _ List.mem_cons_self b ha] using rest
    · rw [if_neg same]
      cases ha : f a with
      | none => simpa [ha] using rest
      | some b => simpa [ha, labelled _ List.mem_cons_self b ha, same] using rest

theorem nodup_put (t : Table κ α) (k : κ) (a : α) (h : t.keys.Nodup) : (t.put k a).keys.Nodup := by
  rw [keys_put]
  split
  · exact h
  · next hk =>
    rw [List.nodup_append]
    exact ⟨h, by simp, fun x hx y hy => by
      simp only [List.mem_singleton] at hy
      exact fun e => hk (hy ▸ e ▸ hx)⟩

theorem nodup_erase (t : Table κ α) (k : κ) (h : t.keys.Nodup) : (t.erase k).keys.Nodup :=
  List.Nodup.sublist (List.Sublist.map _ List.filter_sublist) h

theorem nodup_modify (t : Table κ α) (k : κ) (f : α → α) (h : t.keys.Nodup) :
    (t.modify k f).keys.Nodup := by
  rw [keys_modify]; exact h

end Table

end Restock
