import Restock.Supervisor.Basic
import Restock.Text.Quoted

/-! Putting a supervisor together.

A builder collects retailers, settings and the retailers that are expected to be
there. Nothing can be built from invalid settings or if an expected retailer is
missing. A configuration expects the retailers of all its groups. -/
namespace Restock

structure Builder where
  registry : Registry Unit
  expected : List String
  settings : Settings
  ids : IdSource

inductive BuildFault
  | config (f : ConfigFault)
  | missingRetailers (retailers : List String)
  deriving DecidableEq, Repr

def BuildFault.message : BuildFault → String
  | .config f => f.message
  | .missingRetailers rs =>
    "Missing retailer adapters: " ++ Text.quotedList rs ++
      ". These retailers are configured but not registered."

namespace Builder

def new (ids : IdSource) : Builder := ⟨.empty, [], .standard, ids⟩

def register (b : Builder) (retailer : String) : Except RegistryFault Builder :=
  (b.registry.register retailer ()).map fun registry => { b with registry }

def expectRetailers (b : Builder) (retailers : List String) : Builder :=
  { b with expected := retailers }

def withSettings (b : Builder) (settings : Settings) : Builder := { b with settings }

def withIds (b : Builder) (ids : IdSource) : Builder := { b with ids }

/-- The retailers of the groups of a configuration, sorted, each once. -/
def retailersOf (c : Config) : List String :=
  sortTexts (c.groups.map GroupConfig.retailer).eraseDups

/-- Takes the settings of a configuration over and expects its retailers. -/
def withConfig (b : Builder) (c : Config) : Builder :=
  { b with settings := c.settings, expected := retailersOf c }

/-- The expected retailers that are not registered. -/
def missing (b : Builder) : List String := b.expected.filter fun r => !b.registry.has r

def build (b : Builder) : Except BuildFault Supervisor := do
  b.settings.validate.mapError .config
  if !b.missing.isEmpty then throw (.missingRetailers b.missing)
  return .new b.registry b.settings b.ids

end Builder

end Restock
