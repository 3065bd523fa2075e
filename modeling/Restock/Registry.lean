import Restock.Table

/-! The registry of retailers.

A retailer is registered once, under its name. The registered names are listed in
the order of their characters. -/
namespace Restock

inductive RegistryFault
  | alreadyRegistered (retailer : String)
  | notRegistered (retailer : String)
  deriving DecidableEq, Repr

def RegistryFault.message : RegistryFault → String
  | .alreadyRegistered r => "Adapter for retailer '" ++ r ++ "' is already registered"
  | .notRegistered r => "No adapter registered for retailer '" ++ r ++ "'"

/-- Retailers of type `α` by name. -/
structure Registry (α : Type) where
  retailers : Table String α
  deriving Repr

/-- Texts in the order of their characters. -/
def sortTexts (texts : List String) : List String :=
  texts.mergeSort fun a b => decide (a ≤ b)

namespace Registry

variable {α : Type}

def empty : Registry α := ⟨[]⟩

instance : Inhabited (Registry α) := ⟨empty⟩

def register (r : Registry α) (name : String) (retailer : α) : Except RegistryFault (Registry α) :=
  if r.retailers.has name then .error (.alreadyRegistered name)
  else .ok ⟨r.retailers.put name retailer⟩

def get (r : Registry α) (name : String) : Except RegistryFault α :=
  match r.retailers.get? name with
  | some a => .ok a
  | none => .error (.notRegistered name)

def has (r : Registry α) (name : String) : Bool := r.retailers.has name

/-- The registered names, sorted. -/
def names (r : Registry α) : List String := sortTexts r.retailers.keys

end Registry

end Restock
