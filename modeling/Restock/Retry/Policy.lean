import Restock.Checkout.Step
import Restock.Duration

/-! Retry policies.

After the n-th failed attempt a task waits `delay · multiplier ^ (n - 1)`, at
most `maxDelay`; with the multiplier one it waits `delay` every time. A wait that
the retailer asked for is kept between `delay` and `rateLimitCap`. The powers are
computed in floats, by repeated squaring. A computed wait that is not above the
ceiling but is no duration either has no value: `nextDelay?` is `none`. Steps
with a ceiling on their attempts are listed in `maxAttempts`. -/
namespace Restock

structure RetryPolicy where
  delay : Duration
  multiplier : Float
  maxDelay : Duration
  rateLimitCap : Duration
  maxAttempts : StepMap UInt32
  deriving DecidableEq, Repr, Inhabited

/-- `r · a ^ n` by repeated squaring, for a positive exponent. -/
def power (r a : Float) (n : Nat) : Float :=
  let r := if n % 2 = 1 then r * a else r
  if n / 2 = 0 then r else power r (a * a) (n / 2)
termination_by n

namespace RetryPolicy

/-- Adding to a cart and placing an order are not repeated without end. -/
def standardCeilings : StepMap UInt32 := .ofList [(.addToCart, 5), (.placeOrder, 3)]

def standard : RetryPolicy :=
  ⟨.ofMillis 1000, 1.0, .ofMillis 30000, .ofMillis 60000, standardCeilings⟩

/-- The same wait after every attempt, with the standard ceilings. -/
def fixed (delay : Duration) : RetryPolicy := { standard with delay }

def withCeiling (p : RetryPolicy) (s : Step) (n : UInt32) : RetryPolicy :=
  { p with maxAttempts := p.maxAttempts.insert s n }

def withoutCeilings (p : RetryPolicy) : RetryPolicy := { p with maxAttempts := .empty }

def ceiling? (p : RetryPolicy) (s : Step) : Option UInt32 := p.maxAttempts.get? s

/-- How often the multiplier applies after so many attempts. -/
def exponent (attempts : UInt32) : Nat := min (attempts.toNat - 1) (1 <<< 31 - 1)

/-- The wait after the given number of attempts. -/
def nextDelay? (p : RetryPolicy) (attempts : UInt32) : Option Duration :=
  let e := exponent attempts
  if e = 0 || p.multiplier == 1.0 then some (p.delay.min p.maxDelay)
  else
    let secs := p.delay.toSeconds * power 1.0 p.multiplier e
    if !secs.isFinite || secs < 0.0 || p.maxDelay.toSeconds < secs then some p.maxDelay
    else Duration.ofSeconds? secs

/-- The wait after a rate-limited attempt, with the retailer's own wait if it
gave one. -/
def rateLimitedDelay? (p : RetryPolicy) (hint : Option Duration) (attempts : UInt32) :
    Option Duration :=
  match hint with
  | some wait => some ((wait.max p.delay).min p.rateLimitCap)
  | none => p.nextDelay? attempts

/-! ### Stored form -/

def toJson (p : RetryPolicy) : Json :=
  .ofMembers [("delay_ms", p.delay.millisJson), ("multiplier", .ofFloat p.multiplier),
    ("max_delay_ms", p.maxDelay.millisJson), ("rate_limit_cap_ms", p.rateLimitCap.millisJson),
    ("max_attempts", p.maxAttempts.toJson fun n => .ofNat n.toNat)]

def decodeCeilings : Json.Decoder (StepMap UInt32) := fun source t =>
  (Json.decodeMap (Json.variant Word.variants) Json.decodeU32 source t).map StepMap.ofList

def schema : Json.Schema RetryPolicy :=
  .openRecord "RetryPolicy" standard
    [.may "delay_ms" Duration.decodeMillis fun d p => { p with delay := d },
     .may "multiplier" Json.decodeFloat fun m p => { p with multiplier := m },
     .may "max_delay_ms" Duration.decodeMillis fun d p => { p with maxDelay := d },
     .may "rate_limit_cap_ms" Duration.decodeMillis fun d p => { p with rateLimitCap := d },
     .may "max_attempts" decodeCeilings fun c p => { p with maxAttempts := c }]

end RetryPolicy

end Restock
