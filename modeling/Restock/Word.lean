import Restock.Json.Decode

/-! Values that are written as one word.

The words of an enumeration are in snake case. `Word.decode` reads them where
JSON gives a variant, and `title` is the form in which logs show them. A value is
found by its word if no other value has it (`lookup_map_word`). -/
namespace Restock

class Word (α : Type) where
  /-- Every value, in order of declaration. -/
  all : List α
  word : α → String

namespace Word

variable {α : Type} [Word α]

def variants : List (String × α) := all.map fun a => (word a, a)

def toJson (a : α) : Json := .string (word a)

def decode : Json.Decoder α := Json.decodeVariant variants

def ofWord? (s : String) : Option α := variants.lookup s

/-- The words of a snake case name, each with a capital letter and joined. -/
def title (a : α) : String :=
  String.join (((word a).splitOn "_").map String.capitalize)

theorem lookup_map_word {as : List α} (a : α) (h : a ∈ as)
    (inj : ∀ b ∈ as, word b = word a → b = a) :
    (as.map fun b => (word b, b)).lookup (word a) = some a := by
  induction as with
  | nil => simp at h
  | cons b bs ih =>
    by_cases hb : word b = word a
    · simp [inj b (List.mem_cons_self ..) hb]
    · have hne : a ≠ b := fun e => hb (e ▸ rfl)
      have hmem : a ∈ bs := by simpa [hne] using h
      have : (word a == word b) = false := by simpa using fun e => hb e.symm
      simp only [List.map_cons, List.lookup_cons, this]
      exact ih hmem fun c hc => inj c (List.mem_cons_of_mem _ hc)

end Word

end Restock
