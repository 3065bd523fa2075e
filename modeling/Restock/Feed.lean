/-! The feed of product waves from a monitor to its tasks.

A feed keeps the latest wave and counts the waves. A watch remembers how many it
has seen, at first all of them, so it never sees a wave from before it was made,
none twice, and of several new waves only the latest. When every holder of the
feed is gone a watch still gets a wave it has not seen, and then learns that the
feed is closed. -/
namespace Restock

structure Feed (α : Type) where
  /-- Waves published so far. -/
  version : Nat
  latest : Option α
  /-- Holders that may publish. -/
  holders : Nat
  deriving Repr

/-- The number of waves that a watch has seen or missed. -/
structure Watch where
  seen : Nat
  deriving DecidableEq, Repr

/-- What a watch gets when it asks for the next wave. -/
inductive Next (α : Type)
  | wave (w : α)
  | pending
  | closed
  deriving DecidableEq, Repr

namespace Feed

variable {α : Type}

/-- A feed with one holder and no wave. -/
def new : Feed α := ⟨0, none, 1⟩

instance : Inhabited (Feed α) := ⟨new⟩

def publish (f : Feed α) (w : α) : Feed α :=
  { f with version := f.version + 1, latest := some w }

def subscribe (f : Feed α) : Watch := ⟨f.version⟩

/-- Another holder. -/
def share (f : Feed α) : Feed α := { f with holders := f.holders + 1 }

/-- One holder less. -/
def leave (f : Feed α) : Feed α := { f with holders := f.holders - 1 }

/-- Nobody can publish any more. -/
def isClosed (f : Feed α) : Bool := f.holders = 0

/-- The latest wave if the watch has not seen it. -/
def next (f : Feed α) (w : Watch) : Next α × Watch :=
  if w.seen = f.version then (if f.isClosed then .closed else .pending, w)
  else
    match f.latest with
    | some wave => (.wave wave, ⟨f.version⟩)
    | none => (if f.isClosed then .closed else .pending, ⟨f.version⟩)

end Feed

end Restock
