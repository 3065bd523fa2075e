import Restock.Checkout.Step
import Restock.Stock.Target
import Restock.Ulid

/-! What a checkout works with.

A credential is shown without its secret. A session is what a login yields; tasks
of one group and credential share it. The state of a checkout grows step by step,
and only its session is left out of the stored form. -/
namespace Restock

/-- An account at a retailer, known by its identifier. -/
structure Credential where
  identifier : String
  secret : String
  deriving DecidableEq, Repr, Inhabited

namespace Credential

/-- The credential with its secret hidden. -/
def redacted (c : Credential) : String :=
  "Credential \x7b identifier: " ++ Text.quoted c.identifier ++ ", secret: \"<redacted>\" \x7d"

def toJson (c : Credential) : Json :=
  .ofMembers [("identifier", .string c.identifier), ("secret", .string c.secret)]

def schema : Json.Schema Credential :=
  .openRecord "Credential" ⟨"", ""⟩
    [.must "identifier" Json.decodeString fun i c => { c with identifier := i },
     .may "secret" Json.decodeString fun s c => { c with secret := s }]

end Credential

/-- An authenticated session of a credential. -/
structure Session where
  credential : String
  data : Json
  deriving DecidableEq, Repr, Inhabited

namespace Session

def toJson (s : Session) : Json :=
  .ofMembers [("credential", .string s.credential), ("data", s.data)]

def schema : Json.Schema Session :=
  .openRecord "Session" ⟨"", .null⟩
    [.must "credential" Json.decodeString fun c s => { s with credential := c },
     .may "data" Json.decodeAny fun d s => { s with data := d }]

end Session

/-- What a checkout driver may read about the task it serves. -/
structure TaskContext where
  taskId : TaskId
  groupId : GroupId
  retailer : String
  /-- A task without a credential checks out as a guest. -/
  credential : Option Credential
  profile : Json
  proxy : Option String
  deriving DecidableEq, Repr, Inhabited

/-- What the steps of one checkout have produced so far. -/
structure CheckoutState where
  product : Option Product
  session : Option Session
  cartId : Option String
  cartTotal : Option Float
  shippingConfirmation : Option String
  paymentToken : Option String
  orderNumber : Option String
  /-- Further values of the retailer's own, by name. -/
  extra : List (String × Json)
  deriving DecidableEq, Repr, Inhabited

namespace CheckoutState

def empty : CheckoutState := ⟨none, none, none, none, none, none, none, []⟩

def toJson (s : CheckoutState) : Json :=
  .ofMembers ([("product", .ofOption Product.toJson s.product),
      ("cart_id", .ofOption .string s.cartId),
      ("cart_total", .ofOption .ofFloat s.cartTotal),
      ("shipping_confirmation", .ofOption .string s.shippingConfirmation),
      ("payment_token", .ofOption .string s.paymentToken),
      ("order_number", .ofOption .string s.orderNumber)] ++
    if s.extra.isEmpty then [] else [("extra", .object s.extra)])

end CheckoutState

end Restock
