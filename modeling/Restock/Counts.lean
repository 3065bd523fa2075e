import Restock.Status
import Restock.Json.Value

/-! How the tasks of a group are doing.

Every task is counted once: as running until its run has ended, then by its
outcome, and as stopped if it ended without one (`total_record`). -/
namespace Restock

structure TaskCounts where
  running : Nat
  checkedOut : Nat
  cardDeclined : Nat
  checkoutFailed : Nat
  stopped : Nat
  deriving DecidableEq, Repr

namespace TaskCounts

def zero : TaskCounts := ⟨0, 0, 0, 0, 0⟩

instance : Inhabited TaskCounts := ⟨zero⟩

def record (c : TaskCounts) (status : TaskStatus) (finished : Bool) : TaskCounts :=
  if finished then
    match status with
    | .checkedOut => { c with checkedOut := c.checkedOut + 1 }
    | .cardDeclined => { c with cardDeclined := c.cardDeclined + 1 }
    | .checkoutFailed => { c with checkoutFailed := c.checkoutFailed + 1 }
    | _ => { c with stopped := c.stopped + 1 }
  else { c with running := c.running + 1 }

def total (c : TaskCounts) : Nat :=
  c.running + c.checkedOut + c.cardDeclined + c.checkoutFailed + c.stopped

theorem total_record (c : TaskCounts) (status : TaskStatus) (finished : Bool) :
    (c.record status finished).total = c.total + 1 := by
  cases finished
  · simp only [record, total, Bool.false_eq_true, if_false]; omega
  · cases status <;> simp only [record, total, if_true] <;> omega

def toJson (c : TaskCounts) : Json :=
  .ofMembers [("running", .ofNat c.running), ("checked_out", .ofNat c.checkedOut),
    ("card_declined", .ofNat c.cardDeclined), ("checkout_failed", .ofNat c.checkoutFailed),
    ("stopped", .ofNat c.stopped)]

end TaskCounts

end Restock
