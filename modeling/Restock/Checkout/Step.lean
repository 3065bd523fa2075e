import Restock.Status

/-! Steps of a checkout.

Login comes before the wait for a product, the other five steps after it, in the
order of `Step.checkout`. While a step runs the task shows the step's status.
`StepMap` keeps at most one value for each step. -/
namespace Restock

inductive Step
  | login
  | addToCart
  | getCartInfo
  | setShipping
  | setBilling
  | placeOrder
  deriving DecidableEq, Repr, Inhabited

namespace Step

instance : Word Step where
  all := [.login, .addToCart, .getCartInfo, .setShipping, .setBilling, .placeOrder]
  word
    | .login => "login"
    | .addToCart => "add_to_cart"
    | .getCartInfo => "get_cart_info"
    | .setShipping => "set_shipping"
    | .setBilling => "set_billing"
    | .placeOrder => "place_order"

/-- The steps from the cart to the order. -/
def checkout : List Step := [.addToCart, .getCartInfo, .setShipping, .setBilling, .placeOrder]

def all : List Step := .login :: checkout

theorem mem_all (s : Step) : s ∈ all := by cases s <;> simp [all, checkout]

def status : Step → TaskStatus
  | .login => .loggingIn
  | .addToCart => .addingToCart
  | .getCartInfo => .gettingCartInfo
  | .setShipping => .settingShippingInfo
  | .setBilling => .settingBillingInfo
  | .placeOrder => .checkingOut

/-- The checkout step after this one; the first follows login. -/
def next? : Step → Option Step
  | .login => some .addToCart
  | .addToCart => some .getCartInfo
  | .getCartInfo => some .setShipping
  | .setShipping => some .setBilling
  | .setBilling => some .placeOrder
  | .placeOrder => none

end Step

/-- At most one value for each step. -/
structure StepMap (α : Type) where
  get? : Step → Option α

namespace StepMap

variable {α : Type}

@[ext] theorem ext {m n : StepMap α} (h : ∀ s, m.get? s = n.get? s) : m = n := by
  cases m; cases n; simp only [mk.injEq]; exact funext h

instance [DecidableEq α] : DecidableEq (StepMap α) := fun m n =>
  decidable_of_iff (∀ s ∈ Step.all, m.get? s = n.get? s)
    ⟨fun h => ext fun s => h s (Step.mem_all s), fun h _ _ => h ▸ rfl⟩

def empty : StepMap α := ⟨fun _ => none⟩

instance : Inhabited (StepMap α) := ⟨empty⟩

def insert (m : StepMap α) (s : Step) (a : α) : StepMap α :=
  ⟨fun t => if t = s then some a else m.get? t⟩

@[simp] theorem get?_empty (s : Step) : (empty : StepMap α).get? s = none := rfl

@[simp] theorem get?_insert (m : StepMap α) (s : Step) (a : α) (t : Step) :
    (m.insert s a).get? t = if t = s then some a else m.get? t := rfl

/-- The last value given to a step stays. -/
def ofList (entries : List (Step × α)) : StepMap α :=
  entries.foldl (fun m (s, a) => m.insert s a) empty

/-- The entries in the order of the steps. -/
def toList (m : StepMap α) : List (Step × α) :=
  Step.all.filterMap fun s => (m.get? s).map (s, ·)

instance [Repr α] : Repr (StepMap α) := ⟨fun m => reprPrec m.toList⟩

def toJson (f : α → Json) (m : StepMap α) : Json :=
  .ofMembers (m.toList.map fun (s, a) => (Word.word s, f a))

end StepMap

end Restock
