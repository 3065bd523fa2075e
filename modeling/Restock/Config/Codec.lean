import Restock.Config.Validation

/-! The stored form of configurations.

A configuration is read from JSON text or from the bytes of a file in UTF-8; it
has to decode and to be valid. Pauses are stored in whole milliseconds, and a
missing credential or proxy is left out. -/
namespace Restock

namespace Settings

def toJson (s : Settings) : Json :=
  .ofMembers [("bus_capacity", .ofNat s.busCapacity.toNat),
    ("account_poll_ms", s.accountPoll.millisJson)]

def schema : Json.Schema Settings :=
  .openRecord "SupervisorConfig" standard
    [.may "bus_capacity" Json.decodeSize fun c s => { s with busCapacity := c },
     .may "account_poll_ms" Duration.decodeMillis fun d s => { s with accountPoll := d }]

end Settings

namespace TaskConfig

def toJson (t : TaskConfig) : Json :=
  .ofMembers (optionalMember "credential" Credential.toJson t.credential ++
    [("profile", t.profile)] ++ optionalMember "proxy" .string t.proxy ++
    [("retry", t.retry.toJson)])

def schema : Json.Schema TaskConfig :=
  .openRecord "TaskConfig" guest
    [.may "credential" (Json.decodeOption Credential.schema.decode) fun c t =>
       { t with credential := c },
     .may "profile" Json.decodeAny fun p t => { t with profile := p },
     .may "proxy" (Json.decodeOption Json.decodeString) fun p t => { t with proxy := p },
     .may "retry" RetryPolicy.schema.decode fun r t => { t with retry := r }]

end TaskConfig

namespace GroupConfig

def toJson (g : GroupConfig) : Json :=
  .ofMembers [("name", .string g.name), ("retailer", .string g.retailer),
    ("delay_ms", g.delay.millisJson), ("warm_backoff_ms", g.warmBackoff.millisJson),
    ("targets", .array (g.targets.map WatchTarget.toJson)),
    ("tasks", .array (g.tasks.map TaskConfig.toJson))]

def schema : Json.Schema GroupConfig :=
  .openRecord "GroupConfig" standard
    [.must "name" Json.decodeString fun n g => { g with name := n },
     .must "retailer" Json.decodeString fun r g => { g with retailer := r },
     .may "delay_ms" Duration.decodeMillis fun d g => { g with delay := d },
     .may "warm_backoff_ms" Duration.decodeMillis fun d g => { g with warmBackoff := d },
     .must "targets" (Json.decodeList WatchTarget.schema.decode) fun t g => { g with targets := t },
     .may "tasks" (Json.decodeList TaskConfig.schema.decode) fun t g => { g with tasks := t }]

end GroupConfig

namespace Config

def toJson (c : Config) : Json :=
  .ofMembers [("supervisor", c.settings.toJson), ("groups", .array (c.groups.map GroupConfig.toJson))]

def schema : Json.Schema Config :=
  .openRecord "StockwatchConfig" standard
    [.may "supervisor" Settings.schema.decode fun s c => { c with settings := s },
     .may "groups" (Json.decodeList GroupConfig.schema.decode) fun g c => { c with groups := g }]

/-- Why a path leads to no file. -/
inductive PathFault
  | notFound
  | isFolder
  | notFolder
  deriving DecidableEq, Repr

/-- Why a configuration cannot be had. -/
inductive Error
  | unreadable (f : PathFault)
  /-- The file is not UTF-8. -/
  | notText
  | undecodable (p : Json.Problem)
  | invalid (f : ConfigFault)
  deriving DecidableEq, Repr

/-- The valid configuration that a text holds. -/
def ofText (s : String) : Except Error Config := do
  let c ← (Json.decodeText schema.decode s).mapError .undecodable
  c.validate.mapError .invalid
  return c

/-- The valid configuration that a file holds. -/
def ofBytes (bytes : ByteArray) : Except Error Config :=
  match String.fromUTF8? bytes with
  | none => .error .notText
  | some s => ofText s

end Config

end Restock
