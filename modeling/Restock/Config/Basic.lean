import Restock.Checkout.State
import Restock.Retry.Policy

/-! Configurations.

A configuration names the groups to run and the settings they share. A group is
one monitor over its targets and the tasks that buy what the monitor finds. Every
field that may be left out has its standard value here. -/
namespace Restock

/-- What all activities share. -/
structure Settings where
  /-- Events that wait for one observer before further ones are dropped. -/
  busCapacity : UInt64
  /-- How long a task waits at most before it looks again after another's login. -/
  accountPoll : Duration
  deriving DecidableEq, Repr

def Settings.standard : Settings := ⟨256, .ofMillis 250⟩

instance : Inhabited Settings := ⟨.standard⟩

/-- One checkout task. -/
structure TaskConfig where
  credential : Option Credential
  /-- Shipping and billing data, meant for the retailer alone. -/
  profile : Json
  proxy : Option String
  retry : RetryPolicy
  deriving DecidableEq, Repr, Inhabited

/-- A task that checks out without an account. -/
def TaskConfig.guest : TaskConfig := ⟨none, .null, none, .standard⟩

/-- One monitor and the tasks it feeds. -/
structure GroupConfig where
  name : String
  retailer : String
  /-- The pause between two stock checks. -/
  delay : Duration
  /-- The pause after a failed attempt to warm the source up. -/
  warmBackoff : Duration
  targets : List WatchTarget
  tasks : List TaskConfig
  deriving DecidableEq, Repr, Inhabited

/-- A group without tasks and with the standard pauses. -/
def GroupConfig.standard : GroupConfig := ⟨"", "", .ofMillis 3000, .ofMillis 2000, [], []⟩

structure Config where
  settings : Settings
  groups : List GroupConfig
  deriving DecidableEq, Repr, Inhabited

def Config.standard : Config := ⟨.standard, []⟩

end Restock
