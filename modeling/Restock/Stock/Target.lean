import Restock.Word

/-! Watch targets and what is reported about them.

A target names a product by its id, with an optional ceiling on the price and the
kinds of fulfillment it accepts. `WatchTarget.evaluate` decides what one report
means for a target: a product to act on, stock that the target filters out, no
stock, or a report that says nothing. -/
namespace Restock

inductive FulfillmentKind
  | shipping
  | pickup
  deriving DecidableEq, Repr, Inhabited

instance : Word FulfillmentKind where
  all := [.shipping, .pickup]
  word
    | .shipping => "shipping"
    | .pickup => "pickup"

inductive TargetMode
  | any
  | shippingOnly
  | pickupOnly
  deriving DecidableEq, Repr, Inhabited

instance : Word TargetMode where
  all := [.any, .shippingOnly, .pickupOnly]
  word
    | .any => "any"
    | .shippingOnly => "shipping_only"
    | .pickupOnly => "pickup_only"

def TargetMode.accepts : TargetMode → FulfillmentKind → Bool
  | .any, _ => true
  | .shippingOnly, k => k == .shipping
  | .pickupOnly, k => k == .pickup

inductive StockStatus
  | inStock
  | outOfStock
  deriving DecidableEq, Repr, Inhabited

instance : Word StockStatus where
  all := [.inStock, .outOfStock]
  word
    | .inStock => "in_stock"
    | .outOfStock => "out_of_stock"

structure WatchTarget where
  id : String
  /-- The highest price that is still acted on; without it any price is. -/
  maxPrice : Option Float
  mode : TargetMode
  deriving DecidableEq, Repr, Inhabited

/-- What a stock source says about one target. -/
structure StockReport where
  status : StockStatus
  price : Float
  name : String
  imageUrl : Option String
  /-- How the product can be had when it is in stock. -/
  fulfillment : Option FulfillmentKind
  /-- The retailer's own names for the offer. -/
  identifiers : Json
  deriving DecidableEq, Repr, Inhabited

/-- A product that tasks are sent to buy. -/
structure Product where
  targetId : String
  name : String
  price : Float
  fulfillment : FulfillmentKind
  imageUrl : Option String
  identifiers : Json
  deriving DecidableEq, Repr, Inhabited

/-! ### Stored form -/

def optionalMember {α : Type} (name : String) (f : α → Json) (value : Option α) :
    List (String × Json) :=
  value.toList.map fun a => (name, f a)

/-- A member that is left out when it is `null`. -/
def optionalJson (name : String) (value : Json) : List (String × Json) :=
  if value.isNull then [] else [(name, value)]

namespace WatchTarget

def toJson (t : WatchTarget) : Json :=
  .ofMembers ([("id", .string t.id), ("mode", Word.toJson t.mode)] ++
    optionalMember "max_price" .ofFloat t.maxPrice)

def schema : Json.Schema WatchTarget :=
  .openRecord "WatchTarget" ⟨"", none, .any⟩
    [.must "id" Json.decodeString fun i t => { t with id := i },
     .may "max_price" (Json.decodeOption Json.decodeFloat) fun p t => { t with maxPrice := p },
     .may "mode" Word.decode fun m t => { t with mode := m }]

end WatchTarget

namespace StockReport

def toJson (r : StockReport) : Json :=
  .ofMembers ([("status", Word.toJson r.status), ("price", .ofFloat r.price),
      ("name", .string r.name)] ++
    optionalMember "image_url" .string r.imageUrl ++
    optionalMember "fulfillment" Word.toJson r.fulfillment ++
    optionalJson "identifiers" r.identifiers)

def schema : Json.Schema StockReport :=
  .openRecord "StockReport" ⟨.inStock, 0, "", none, none, .null⟩
    [.must "status" Word.decode fun s r => { r with status := s },
     .must "price" Json.decodeFloat fun p r => { r with price := p },
     .must "name" Json.decodeString fun n r => { r with name := n },
     .may "image_url" (Json.decodeOption Json.decodeString) fun u r => { r with imageUrl := u },
     .may "fulfillment" (Json.decodeOption Word.decode) fun k r => { r with fulfillment := k },
     .may "identifiers" Json.decodeAny fun i r => { r with identifiers := i }]

end StockReport

namespace Product

def toJson (p : Product) : Json :=
  .ofMembers ([("target_id", .string p.targetId), ("name", .string p.name),
      ("price", .ofFloat p.price), ("fulfillment", Word.toJson p.fulfillment)] ++
    optionalMember "image_url" .string p.imageUrl ++
    optionalJson "identifiers" p.identifiers)

def schema : Json.Schema Product :=
  .openRecord "Product" ⟨"", "", 0, .shipping, none, .null⟩
    [.must "target_id" Json.decodeString fun i p => { p with targetId := i },
     .must "name" Json.decodeString fun n p => { p with name := n },
     .must "price" Json.decodeFloat fun x p => { p with price := x },
     .must "fulfillment" Word.decode fun k p => { p with fulfillment := k },
     .may "image_url" (Json.decodeOption Json.decodeString) fun u p => { p with imageUrl := u },
     .may "identifiers" Json.decodeAny fun i p => { p with identifiers := i }]

end Product

/-! ### Evaluation -/

/-- Why a report of stock says nothing. -/
inductive Malformation
  | invalidPrice (price : Float)
  | noFulfillment
  deriving DecidableEq, Repr

def Malformation.message : Malformation → String
  | .invalidPrice price => "invalid price " ++ Decimal.inProse price
  | .noFulfillment => "in stock without fulfillment kind"

inductive Evaluation
  | actionable (product : Product)
  /-- In stock, but too dear or not to be had in an accepted way. -/
  | filtered
  | outOfStock
  /-- No observation at all. -/
  | malformed (why : Malformation)
  deriving DecidableEq, Repr

namespace WatchTarget

/-- The product that a report offers under the id of the target. -/
def product (t : WatchTarget) (r : StockReport) (k : FulfillmentKind) : Product :=
  ⟨t.id, r.name, r.price, k, r.imageUrl, r.identifiers⟩

def withinCeiling (t : WatchTarget) (price : Float) : Bool :=
  match t.maxPrice with
  | none => true
  | some max => !(max < price)

def evaluate (t : WatchTarget) (r : StockReport) : Evaluation :=
  match r.status with
  | .outOfStock => .outOfStock
  | .inStock =>
    if !r.price.isFinite || r.price < 0 then .malformed (.invalidPrice r.price)
    else
      match r.fulfillment with
      | none => .malformed .noFulfillment
      | some k =>
        if !t.mode.accepts k then .filtered
        else if t.withinCeiling r.price then .actionable (t.product r k)
        else .filtered

end WatchTarget

end Restock
