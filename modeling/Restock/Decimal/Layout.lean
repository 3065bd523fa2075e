import Restock.Decimal.Shortest

/-! Layouts of decimal numbers.

A `Layout` is what a format decides about the text of a float: where positional
notation ends, whether a whole number keeps a point, which way a tie between two
shortest decimals goes. `write` lays out the shortest digits accordingly. Not a
number and the infinities have no digits and are left to the format. -/
namespace Restock.Decimal

structure Layout where
  tie : Tie
  /-- Leading exponents from `least` to `most` are written without an exponent;
  a missing bound means all of them on that side. -/
  least : Option Int
  most : Option Int
  /-- Whole numbers end in `.0`. -/
  keepPoint : Bool

/-- Digits without trailing zeros, and how many zeros went. -/
def stripZeros : List Char → List Char × Nat
  | [] => ([], 0)
  | c :: cs =>
    match stripZeros cs with
    | ([], n) => if c = '0' then ([], n + 1) else ([c], n)
    | (ds, n) => (c :: ds, n)

/-- Digits with the point after the first `whole` of them; `whole` may be
negative or beyond the last digit. -/
def Layout.positional (l : Layout) (digits : List Char) (whole : Int) : String :=
  if whole ≤ 0 then
    "0." ++ String.ofList (List.replicate (-whole).toNat '0' ++ digits)
  else
    let n := whole.toNat
    if digits.length ≤ n then
      String.ofList (digits ++ List.replicate (n - digits.length) '0') ++
        (if l.keepPoint then ".0" else "")
    else String.ofList (digits.take n) ++ "." ++ String.ofList (digits.drop n)

/-- One digit before the point and an exponent, which always has a sign. -/
def scientific (digits : List Char) (e : Int) : String :=
  String.ofList (digits.take 1) ++
    (if digits.length ≤ 1 then "" else "." ++ String.ofList (digits.drop 1)) ++
    "e" ++ (if e < 0 then "-" else "+") ++ toString e.natAbs

def Layout.isPositional (l : Layout) (e : Int) : Bool :=
  l.least.all (· ≤ e) && l.most.all (e ≤ ·)

/-- The digits of a positive value in the given layout. -/
def Layout.writeDigits (l : Layout) (d : Digits) : String :=
  let (digits, zeros) := stripZeros (Nat.toDigits 10 d.digits)
  let e := d.exponent + zeros + digits.length - 1
  if l.isPositional e then l.positional digits (e + 1) else scientific digits e

/-- A finite float; zero keeps its sign. -/
def Layout.write (l : Layout) (x : Float) : String :=
  let b := Binary.ofFloat x
  (if isNegative x then "-" else "") ++
    (if b.mantissa = 0 then (if l.keepPoint then "0.0" else "0") else l.writeDigits (b.shortest l.tie))

/-- Numbers in prose: never an exponent, no point on whole numbers, and of two
equally near decimals the upper one. -/
def prose : Layout := ⟨.up, none, none, false⟩

/-- A float within a message. -/
def inProse (x : Float) : String :=
  if x.isNaN then "NaN"
  else if x.isInf then (if isNegative x then "-inf" else "inf")
  else prose.write x

end Restock.Decimal
