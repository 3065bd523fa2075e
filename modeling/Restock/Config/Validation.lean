import Restock.Config.Basic
import Restock.Text.Blank

/-! Valid configurations.

The rules are checked in a fixed order and the first that is broken is the
answer: the settings, then each group with its targets and its tasks, and after
each group whether its name was used before. `checkAll_eq_ok_iff` says that a
list passes if each of its elements does. -/
namespace Restock

/-- What is wrong with a task. -/
inductive TaskFault
  | zeroDelay
  | multiplier (value : Float)
  | noIdentifier
  deriving DecidableEq, Repr

/-- What is wrong with a configuration. -/
inductive ConfigFault
  | zeroCapacity
  | zeroPoll
  | blankName
  | noTargets (group : String)
  | zeroPause (group : String)
  | duplicateTarget (group id : String)
  | invalidCeiling (group id : String) (price : Float)
  /-- A task of a group, or one on its own. -/
  | task (group : Option String) (fault : TaskFault)
  | duplicateName (name : String)
  deriving DecidableEq, Repr

def TaskFault.message : TaskFault → String
  | .zeroDelay => "retry delay_ms must be > 0"
  | .multiplier x => "retry multiplier " ++ Decimal.inProse x ++ " must be >= 1.0"
  | .noIdentifier => "credential identifier must not be empty"

namespace ConfigFault

def inGroup (group text : String) : String := "group '" ++ group ++ "': " ++ text

def detail : ConfigFault → String
  | .zeroCapacity => "bus_capacity must be > 0"
  | .zeroPoll => "account_poll_ms must be > 0"
  | .blankName => "group name must not be empty"
  | .noTargets g => "group '" ++ g ++ "' has no targets"
  | .zeroPause g => inGroup g "delays must be > 0"
  | .duplicateTarget g id => inGroup g ("duplicate target id '" ++ id ++ "'")
  | .invalidCeiling g id x =>
    inGroup g ("target '" ++ id ++ "' has invalid max_price " ++ Decimal.inProse x)
  | .task none f => f.message
  | .task (some g) f => inGroup g f.message
  | .duplicateName name => "duplicate group name '" ++ name ++ "'"

def message (f : ConfigFault) : String := "invalid config: " ++ f.detail

end ConfigFault

/-- Fails with `fault` unless the condition holds. -/
def require {ε : Type} (condition : Bool) (fault : ε) : Except ε Unit :=
  if condition then .ok () else .error fault

theorem require_eq_ok_iff {ε : Type} {condition : Bool} {fault : ε} :
    require condition fault = .ok () ↔ condition = true := by
  unfold require
  cases condition <;> simp

/-- Checks the elements of a list in order; `check` sees the elements before. -/
def checkAll {α ε : Type} (check : List α → α → Except ε Unit) (before : List α) :
    List α → Except ε Unit
  | [] => .ok ()
  | a :: as => do
    check before a
    checkAll check (before ++ [a]) as

theorem checkAll_eq_ok_iff {α ε : Type} {check : List α → α → Except ε Unit} {before as : List α} :
    checkAll check before as = .ok () ↔
      ∀ l a r, as = l ++ a :: r → check (before ++ l) a = .ok () := by
  induction as generalizing before with
  | nil => simp [checkAll]
  | cons b bs ih =>
    have step : checkAll check before (b :: bs) = .ok () ↔
        check before b = .ok () ∧ checkAll check (before ++ [b]) bs = .ok () := by
      rw [checkAll]
      cases check before b with
      | error e => simp [bind, Except.bind]
      | ok u => simp [bind, Except.bind]
    rw [step, ih]
    constructor
    · rintro ⟨hb, h⟩ l a r e
      cases l with
      | nil =>
        simp only [List.nil_append, List.cons.injEq] at e
        simpa [← e.1] using hb
      | cons c l =>
        simp only [List.cons_append, List.cons.injEq] at e
        have := h l a r e.2
        simpa [← e.1] using this
    · intro h
      refine ⟨by simpa using h [] b bs rfl, fun l a r e => ?_⟩
      have := h (b :: l) a r (by simp [e])
      simpa using this

def Settings.validate (s : Settings) : Except ConfigFault Unit := do
  require (s.busCapacity != 0) .zeroCapacity
  require (!s.accountPoll.isZero) .zeroPoll

def TaskConfig.validate (t : TaskConfig) : Except TaskFault Unit := do
  require (!t.retry.delay.isZero) .zeroDelay
  require (t.retry.multiplier.isFinite && !(t.retry.multiplier < 1.0))
    (.multiplier t.retry.multiplier)
  require (t.credential.all fun c => !c.identifier.isEmpty) .noIdentifier

/-- A ceiling is a finite price that is not negative. -/
def validCeiling (price : Float) : Bool := price.isFinite && !(price < 0)

namespace GroupConfig

def checkTarget (group : String) (before : List WatchTarget) (t : WatchTarget) :
    Except ConfigFault Unit := do
  require (before.all (·.id != t.id)) (.duplicateTarget group t.id)
  match t.maxPrice with
  | none => .ok ()
  | some x => require (validCeiling x) (.invalidCeiling group t.id x)

def validate (g : GroupConfig) : Except ConfigFault Unit := do
  require (!Text.isBlank g.name) .blankName
  require (!g.targets.isEmpty) (.noTargets g.name)
  require (!g.delay.isZero && !g.warmBackoff.isZero) (.zeroPause g.name)
  checkAll (checkTarget g.name) [] g.targets
  checkAll (fun _ t => t.validate.mapError (.task (some g.name))) [] g.tasks

end GroupConfig

namespace Config

def checkGroup (before : List GroupConfig) (g : GroupConfig) : Except ConfigFault Unit := do
  g.validate
  require (before.all (·.name != g.name)) (.duplicateName g.name)

def validate (c : Config) : Except ConfigFault Unit := do
  c.settings.validate
  checkAll checkGroup [] c.groups

end Config

end Restock
