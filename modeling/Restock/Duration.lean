import Restock.Decimal.Binary
import Restock.Json.Decode

/-! Spans of time.

A duration is a whole number of nanoseconds, shorter than `2^64` seconds. As a
float it is counted in seconds; `ofSeconds?` goes back to the nearest
nanosecond, ties to even, and fails for what is no duration. Stored durations
are whole milliseconds (`millis`), so `ofMillis_toMillis` says that such a
duration survives being stored. -/
namespace Restock

def nanosPerSecond : Nat := 1000000000

def nanosPerMilli : Nat := 1000000

/-- Durations are shorter than this number of seconds. -/
def secondsLimit : Nat := 1 <<< 64

structure Duration where
  nanos : Nat
  inRange : nanos < secondsLimit * nanosPerSecond
  deriving DecidableEq

namespace Duration

instance : Repr Duration := ⟨fun d _ => repr d.nanos ++ "ns"⟩

def zero : Duration := ⟨0, by decide⟩

instance : Inhabited Duration := ⟨zero⟩

def ofMillis (ms : UInt64) : Duration :=
  ⟨ms.toNat * nanosPerMilli, by have := ms.toNat_lt; simp only [nanosPerMilli, nanosPerSecond, secondsLimit]; omega⟩

/-- Seconds and nanoseconds; a second's worth of nanoseconds is carried. -/
def ofParts? (secs : UInt64) (nanos : Nat) : Option Duration :=
  let total := secs.toNat * nanosPerSecond + nanos
  if h : total < secondsLimit * nanosPerSecond then some ⟨total, h⟩ else none

def secs (d : Duration) : Nat := d.nanos / nanosPerSecond

def subsecNanos (d : Duration) : Nat := d.nanos % nanosPerSecond

/-- Whole milliseconds. -/
def millis (d : Duration) : Nat := d.nanos / nanosPerMilli

/-- Milliseconds, a started one counted whole. -/
def millisUp (d : Duration) : Nat := (d.nanos + nanosPerMilli - 1) / nanosPerMilli

/-- Whole milliseconds that a stored duration can hold. -/
def toMillis (d : Duration) : UInt64 := UInt64.ofNat (min d.millis (1 <<< 64 - 1))

theorem ofMillis_toMillis (ms : UInt64) : (ofMillis ms).toMillis = ms := by
  have h := ms.toNat_lt
  have hd : ms.toNat * nanosPerMilli / nanosPerMilli = ms.toNat :=
    Nat.mul_div_cancel _ (by decide)
  have hm : min ms.toNat (1 <<< 64 - 1) = ms.toNat := by omega
  simp only [toMillis, millis, ofMillis, hd, hm, UInt64.ofNat_toNat]

def isZero (d : Duration) : Bool := d.nanos == 0

protected def min (a b : Duration) : Duration := if a.nanos ≤ b.nanos then a else b

protected def max (a b : Duration) : Duration := if a.nanos ≤ b.nanos then b else a

@[simp] theorem nanos_min (a b : Duration) : (a.min b).nanos = min a.nanos b.nanos := by
  unfold Duration.min
  split <;> omega

@[simp] theorem nanos_max (a b : Duration) : (a.max b).nanos = max a.nanos b.nanos := by
  unfold Duration.max
  split <;> omega

theorem min_eq_left {a b : Duration} (le : a.nanos ≤ b.nanos) : a.min b = a := if_pos le

/-- Seconds as a float: the whole ones, and the nanoseconds over `1e9`. -/
def toSeconds (d : Duration) : Float :=
  Float.ofNat d.secs + Float.ofNat d.subsecNanos / 1e9

/-- The quotient rounded to the nearest natural number, ties to even. -/
def roundDiv (num den : Nat) : Nat :=
  let q := num / den
  let twice := 2 * (num % den)
  if twice < den then q
  else if den < twice then q + 1
  else if q % 2 = 0 then q else q + 1

/-- The nearest duration to a number of seconds, if there is one. -/
def ofSeconds? (x : Float) : Option Duration :=
  if x < 0.0 || !x.isFinite then none
  else
    let b := Decimal.Binary.ofFloat x
    let total :=
      if 0 ≤ b.exponent then b.mantissa <<< b.exponent.toNat * nanosPerSecond
      else roundDiv (b.mantissa * nanosPerSecond) (1 <<< (-b.exponent).toNat)
    if h : total < secondsLimit * nanosPerSecond then some ⟨total, h⟩ else none

/-! ### Stored durations -/

/-- A duration stored in whole milliseconds. -/
def millisJson (d : Duration) : Json := .ofNat d.toMillis.toNat

def decodeMillis : Json.Decoder Duration := fun source t =>
  (Json.decodeU64 source t).map ofMillis

/-- A duration stored in full. -/
def toJson (d : Duration) : Json :=
  .ofMembers [("secs", .ofNat d.secs), ("nanos", .ofNat d.subsecNanos)]

def partsSchema : Json.Schema (UInt64 × UInt32) :=
  .closedRecord "Duration" (0, 0)
    [.must "secs" Json.decodeU64 fun s p => (s, p.2),
     .must "nanos" Json.decodeU32 fun n p => (p.1, n)]

def ofParts (p : UInt64 × UInt32) : Except Json.Problem Duration :=
  match ofParts? p.1 p.2.toNat with
  | some d => .ok d
  | none => .error (.data (.refused "overflow deserializing Duration"))

def decode : Json.Decoder Duration := partsSchema.decodeAs ofParts

end Duration

end Restock
