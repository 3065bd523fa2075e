import Mathlib.Data.List.Induction
import Mathlib.Data.List.Perm.Basic
import Restock.Json.Value

/-! Members in their places.

`sortMembers` puts members into the order of their keys and keeps one for each key.
What it makes is `Ordered`; members that are ordered already stay as they are
(`sortMembers_of_ordered`), and of members with different keys none is lost
(`perm_sortMembers`). -/
namespace Restock.Json

/-- The keys increase. -/
def Ordered (ms : List (String × Json)) : Prop := ms.Pairwise fun a b => a.1 < b.1

section
variable {k : String} {v : Json} {m : String × Json} {ms : List (String × Json)}

theorem mem_of_mem_insertMember (h : m ∈ insertMember k v ms) : m = (k, v) ∨ m ∈ ms := by
  induction ms with
  | nil => exact .inl (List.mem_singleton.1 h)
  | cons n ms ih =>
    unfold insertMember at h
    split at h
    · exact List.mem_cons.1 h
    · split at h
      · exact (List.mem_cons.1 h).imp_right (List.mem_cons_of_mem _)
      · rcases List.mem_cons.1 h with rfl | rest
        · exact .inr List.mem_cons_self
        · exact (ih rest).imp_right (List.mem_cons_of_mem _)

theorem ordered_insertMember (h : Ordered ms) (k : String) (v : Json) :
    Ordered (insertMember k v ms) := by
  induction ms with
  | nil => exact List.pairwise_singleton ..
  | cons n ms ih =>
    obtain ⟨first, rest⟩ := List.pairwise_cons.1 h
    unfold insertMember
    split
    · next before =>
      refine List.pairwise_cons.2 ⟨fun m among => ?_, h⟩
      rcases List.mem_cons.1 among with rfl | among
      · exact before
      · exact String.lt_trans before (first m among)
    · next after =>
      split
      · next same => exact List.pairwise_cons.2 ⟨fun m among => same ▸ first m among, rest⟩
      · next other =>
        refine List.pairwise_cons.2 ⟨fun m among => ?_, ih rest⟩
        rcases mem_of_mem_insertMember among with rfl | among
        · exact Std.lt_of_le_of_ne (String.not_lt.1 after) (Ne.symm other)
        · exact first m among

/-- A member whose key comes after all others goes to the end. -/
theorem insertMember_of_last (h : ∀ m ∈ ms, m.1 < k) (v : Json) :
    insertMember k v ms = ms ++ [(k, v)] := by
  induction ms with
  | nil => rfl
  | cons n ms ih =>
    have before := h n List.mem_cons_self
    have other : k ≠ n.1 := by
      intro same
      rw [same] at before
      exact String.lt_irrefl _ before
    rw [insertMember, if_neg (String.lt_asymm before), if_neg other,
      ih fun m among => h m (List.mem_cons_of_mem _ among)]
    rfl

/-- A member with a new key takes the place of none. -/
theorem perm_insertMember (new : k ∉ ms.map Prod.fst) (v : Json) :
    (insertMember k v ms).Perm ((k, v) :: ms) := by
  induction ms with
  | nil => exact .refl _
  | cons n ms ih =>
    rw [List.map_cons, List.mem_cons, not_or] at new
    unfold insertMember
    split
    · exact .refl _
    · rw [if_neg new.1]
      exact ((ih new.2).cons n).trans (.swap ..)

end

section
variable {ms done : List (String × Json)} {m : String × Json}

theorem sortMembers_snoc (ms : List (String × Json)) (k : String) (v : Json) :
    sortMembers (ms ++ [(k, v)]) = insertMember k v (sortMembers ms) := by
  simp [sortMembers]

theorem mem_of_mem_sortMembers (h : m ∈ sortMembers ms) : m ∈ ms := by
  induction ms using List.reverseRecOn with
  | nil => exact h
  | append_singleton ms n ih =>
    rw [sortMembers_snoc] at h
    rcases mem_of_mem_insertMember h with rfl | h
    · simp
    · exact List.mem_append_left _ (ih h)

theorem ordered_sortMembers (ms : List (String × Json)) : Ordered (sortMembers ms) := by
  induction ms using List.reverseRecOn with
  | nil => exact .nil
  | append_singleton ms n ih =>
    rw [sortMembers_snoc]
    exact ordered_insertMember ih ..

theorem sortMembers_of_ordered (h : Ordered ms) : sortMembers ms = ms := by
  induction ms using List.reverseRecOn with
  | nil => rfl
  | append_singleton ms n ih =>
    obtain ⟨front, -, last⟩ := List.pairwise_append.1 h
    rw [sortMembers_snoc, ih front]
    exact insertMember_of_last (fun m among => last m among n (List.mem_singleton_self n)) _

/-- Of members with different keys none is lost. -/
theorem perm_sortMembers (names : (ms.map Prod.fst).Nodup) : (sortMembers ms).Perm ms := by
  induction ms using List.reverseRecOn with
  | nil => exact .refl _
  | append_singleton ms n ih =>
    rw [List.map_append, List.nodup_append] at names
    obtain ⟨front, -, apart⟩ := names
    have new : n.1 ∉ (sortMembers ms).map Prod.fst := by
      intro among
      obtain ⟨m, hm, same⟩ := List.mem_map.1 among
      exact apart m.1 (List.mem_map_of_mem (mem_of_mem_sortMembers hm)) n.1 (by simp) same
    rw [sortMembers_snoc]
    exact (perm_insertMember new n.2).trans
      (((ih front).cons n).trans (List.perm_append_singleton n ms).symm)

/-- The members that some data are written as stand for the same data in another order. -/
theorem exists_sorted {α : Type} {f : α → String × Json} {as : List α}
    (names : (as.map fun a => (f a).1).Nodup) :
    ∃ bs, sortMembers (as.map f) = bs.map f ∧ as.Perm bs := by
  have places : (sortMembers (as.map f)).Perm (as.map f) := perm_sortMembers <| by
    rw [List.map_map]
    exact names
  have shape := congrFun (congrFun (List.eq_map_comp_perm f) (sortMembers (as.map f))) as
  obtain ⟨bs, sorted, perm⟩ := shape.mpr places
  exact ⟨bs, sorted, perm.symm⟩

end

end Restock.Json
