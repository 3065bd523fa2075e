import Restock.Word

/-! Statuses of the activities, and the tag of their events.

A monitor goes from idle over setting up to searching for stock; it is idle again
once it stops. A task goes through login, the wait for a product and the steps of
a checkout to one of three outcomes, or back to idle when it is stopped. Only the
outcomes are terminal, and two of them are failures. -/
namespace Restock

inductive MonitorStatus
  | idle
  | settingUp
  | searching
  | outOfStock
  | sendingToTasks
  | error
  deriving DecidableEq, Repr, Inhabited

instance : Word MonitorStatus where
  all := [.idle, .settingUp, .searching, .outOfStock, .sendingToTasks, .error]
  word
    | .idle => "idle"
    | .settingUp => "setting_up"
    | .searching => "searching"
    | .outOfStock => "out_of_stock"
    | .sendingToTasks => "sending_to_tasks"
    | .error => "error"

inductive TaskStatus
  | idle
  | settingUp
  | loggingIn
  | waitingForMonitor
  | addingToCart
  | gettingCartInfo
  | settingShippingInfo
  | settingBillingInfo
  | checkingOut
  | checkedOut
  | cardDeclined
  | checkoutFailed
  deriving DecidableEq, Repr, Inhabited

namespace TaskStatus

instance : Word TaskStatus where
  all := [.idle, .settingUp, .loggingIn, .waitingForMonitor, .addingToCart, .gettingCartInfo,
    .settingShippingInfo, .settingBillingInfo, .checkingOut, .checkedOut, .cardDeclined,
    .checkoutFailed]
  word
    | .idle => "idle"
    | .settingUp => "setting_up"
    | .loggingIn => "logging_in"
    | .waitingForMonitor => "waiting_for_monitor"
    | .addingToCart => "adding_to_cart"
    | .gettingCartInfo => "getting_cart_info"
    | .settingShippingInfo => "setting_shipping_info"
    | .settingBillingInfo => "setting_billing_info"
    | .checkingOut => "checking_out"
    | .checkedOut => "checked_out"
    | .cardDeclined => "card_declined"
    | .checkoutFailed => "checkout_failed"

def isFailure : TaskStatus → Bool
  | .cardDeclined | .checkoutFailed => true
  | _ => false

/-- An outcome of a checkout. A stopped task is idle, which is no outcome. -/
def isTerminal : TaskStatus → Bool
  | .checkedOut => true
  | s => s.isFailure

end TaskStatus

/-- What an event says about the life of its activity. -/
inductive EventType
  | start
  | update
  | fail
  | stop
  | complete
  deriving DecidableEq, Repr, Inhabited

instance : Word EventType where
  all := [.start, .update, .fail, .stop, .complete]
  word
    | .start => "start"
    | .update => "update"
    | .fail => "fail"
    | .stop => "stop"
    | .complete => "complete"

end Restock
