import Restock.Decimal.Binary

/-! The fewest decimal digits that read back.

A finite float is the center of an interval of reals that all round to it. The
shortest decimal is found on the decimal grids of one, two, three, … digits: on
each the two neighbours of the value are tried, and the first grid with a
neighbour inside the interval wins. Of two neighbours inside, the nearer is
taken; an exact tie goes as the caller's `Tie` says. All comparisons are exact,
between natural numbers. -/
namespace Restock.Decimal

/-- Which of two equally near decimals is taken. -/
inductive Tie
  | toEven
  | up
  deriving DecidableEq, Repr

/-- A decimal `digits · 10 ^ exponent`. -/
structure Digits where
  digits : Nat
  exponent : Int
  deriving DecidableEq, Repr

/-- A power with an integer exponent, as a numerator and a denominator. -/
def ratio (base : Nat) (e : Int) : Nat × Nat :=
  if 0 ≤ e then (Nat.pow base e.toNat, 1) else (1, Nat.pow base (-e).toNat)

/-- A value measured in steps of the grid `10 ^ exponent`: four times the value,
and the ends of its interval, each over `steps`. The ends belong to the interval
iff the mantissa is even. -/
structure Grid where
  exponent : Int
  value : Nat
  low : Nat
  high : Nat
  steps : Nat
  closed : Bool

def Binary.onGrid (b : Binary) (e : Int) : Grid :=
  let unit := ratio 2 (b.exponent - 2)
  let step := ratio 10 e
  let scale := unit.1 * step.2
  { exponent := e
    value := 4 * b.mantissa * scale
    low := (4 * b.mantissa - (if b.narrow then 1 else 2)) * scale
    high := (4 * b.mantissa + 2) * scale
    steps := unit.2 * step.1
    closed := b.mantissa % 2 == 0 }

/-- The grid point lies in the interval that rounds to the value. -/
def Grid.holds (g : Grid) (point : Nat) : Bool :=
  let p := point * g.steps
  if g.closed then g.low ≤ p && p ≤ g.high else g.low < p && p < g.high

def Grid.below (g : Grid) : Nat := g.value / g.steps

/-- The nearer of the two neighbours of the value. -/
def Grid.nearest (g : Grid) (tie : Tie) : Nat :=
  let d := g.below
  let twice := 2 * g.value
  let middle := (2 * d + 1) * g.steps
  if twice < middle then d
  else if middle < twice then d + 1
  else match tie with
    | .up => d + 1
    | .toEven => if d % 2 = 0 then d else d + 1

/-- A neighbour of the value on the grid that reads back as the value. -/
def Grid.hit? (g : Grid) (tie : Tie) : Option Nat :=
  let d := g.below
  match g.holds d, g.holds (d + 1) with
  | true, true => some (g.nearest tie)
  | true, false => some d
  | false, true => some (d + 1)
  | false, false => none

/-- The number of decimal digits of a natural number. -/
def width (n : Nat) : Nat := (Nat.toDigits 10 n).length

/-- The exponent of ten of the leading digit of a positive value. -/
def Binary.leading (b : Binary) : Int :=
  let unit := ratio 2 b.exponent
  let num := b.mantissa * unit.1
  if unit.2 ≤ num then Int.ofNat (width (num / unit.2)) - 1
  else - Int.ofNat (width ((unit.2 + num - 1) / num - 1))

/-- The first grid with a hit, from the grid `10 ^ e` on; after `fuel` finer
grids the nearest point of the last one. -/
def Binary.search (b : Binary) (tie : Tie) : Nat → Int → Digits
  | 0, e => ⟨(b.onGrid e).nearest tie, e⟩
  | fuel + 1, e =>
    match (b.onGrid e).hit? tie with
    | some d => ⟨d, e⟩
    | none => b.search tie fuel (e - 1)

/-- The shortest decimal of a positive value; seventeen digits always suffice. -/
def Binary.shortest (b : Binary) (tie : Tie) : Digits :=
  b.search tie 17 b.leading

end Restock.Decimal
