import Restock.Stock.Target
import Restock.Table

/-! What one check of the stock shows.

A check yields reports by target id. Several targets may share an id: the id is a
hit if one of them finds its report actionable, with the product of the first that
does, and it was seen idle if one of them finds it out of stock or filters it out.
Missing and malformed reports show nothing. Of the hits only the fresh ones are
sent to tasks: those not reported since the id was last seen idle without being a
hit. -/
namespace Restock

/-- Reports by target id. -/
abbrev Reports := Table String StockReport

structure Sighting where
  /-- A product for each id that is a hit, in the order of the targets. -/
  hits : List Product
  /-- Ids that some target saw idle. -/
  idle : List String
  outOfStock : Bool
  deriving DecidableEq, Repr

namespace Sighting

def none : Sighting := ⟨[], [], false⟩

instance : Inhabited Sighting := ⟨none⟩

def hitIds (s : Sighting) : List String := s.hits.map Product.targetId

/-- Adds what one target makes of its report. -/
def add (s : Sighting) (t : WatchTarget) : Evaluation → Sighting
  | .actionable p => if t.id ∈ s.hitIds then s else { s with hits := s.hits ++ [p] }
  | .filtered => { s with idle := s.idle ++ [t.id] }
  | .outOfStock => { s with idle := s.idle ++ [t.id], outOfStock := true }
  | .malformed _ => s

/-- Adds what a target sees in the reports. -/
def see (reports : Reports) (s : Sighting) (t : WatchTarget) : Sighting :=
  match reports.get? t.id with
  | some r => s.add t (t.evaluate r)
  | Option.none => s

def ofReports (targets : List WatchTarget) (reports : Reports) : Sighting :=
  targets.foldl (see reports) none

/-- The id was seen idle by some target and actionable by none. -/
def rearms (s : Sighting) (id : String) : Bool := id ∈ s.idle && id ∉ s.hitIds

/-- The reported ids that are still not to be reported again. -/
def remaining (s : Sighting) (reported : List String) : List String :=
  reported.filter fun id => !s.rearms id

/-- The hits that were not reported yet. -/
def fresh (s : Sighting) (reported : List String) : List Product :=
  s.hits.filter fun p => p.targetId ∉ s.remaining reported

end Sighting

end Restock
