/-! Floats as exact values.

A finite float is a whole number of some power of two; `Binary.ofFloat` reads
both off its bits. Zero has the mantissa zero. -/
namespace Restock.Decimal

/-- A value `mantissa · 2 ^ exponent`. `narrow` marks the powers of two whose
lower neighbour is only half as far away as the upper one. -/
structure Binary where
  mantissa : Nat
  exponent : Int
  narrow : Bool
  deriving DecidableEq, Repr

/-- The magnitude of a finite float. -/
def Binary.ofFloat (x : Float) : Binary :=
  let bits := x.toBits.toNat
  let fraction := bits % 1 <<< 52
  let scale := (bits >>> 52) % 1 <<< 11
  if scale = 0 then ⟨fraction, -1074, false⟩
  else ⟨1 <<< 52 + fraction, Int.ofNat scale - 1075, fraction == 0 && 1 < scale⟩

def isNegative (x : Float) : Bool :=
  x.toBits.toNat >>> 63 == 1

end Restock.Decimal
