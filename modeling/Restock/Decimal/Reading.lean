/-! Reading decimal numerals.

A numeral is a sign, whole digits, fraction digits and an exponent. Its value is
an integer when it has neither fraction nor exponent and fits: from `-2^63` to
`2^64 - 1`. Any other numeral is a float, read by one scaling: the leading digits
that fit 64 bits become the significand, later digits only count for its
exponent, and the significand, rounded to a float, is multiplied or divided by
a power of ten. A value beyond the largest float has no reading. -/
namespace Restock.Decimal

structure Numeral where
  negative : Bool
  whole : List Nat
  fraction : List Nat
  /-- Whether the exponent has a minus sign, and its digits. -/
  exponent : Option (Bool × List Nat)
  deriving DecidableEq, Repr

/-- What a numeral stands for. -/
inductive Number
  | int (n : Int)
  | float (x : Float)
  deriving DecidableEq, Repr

def significandLimit : Nat := 1 <<< 64

/-- Appends digits to a significand while it fits; returns the digits left. -/
def absorb (s : Nat) : List Nat → Nat × List Nat
  | [] => (s, [])
  | d :: ds => if s * 10 + d < significandLimit then absorb (s * 10 + d) ds else (s, d :: ds)

/-- The power of ten as the nearest float. -/
def powerOfTen (n : Nat) : Float := Float.ofScientific 1 false n

/-- A significand times a power of ten; `none` beyond the largest float. Powers
below `10^-308` are applied in two divisions, and nothing survives a third. -/
def scale? (significand : Nat) (e : Int) : Option Float :=
  let f := Float.ofNat significand
  if significand = 0 then some 0.0
  else if 308 < e then none
  else if 0 ≤ e then
    let g := f * powerOfTen e.toNat
    if g.isInf then none else some g
  else if -308 ≤ e then some (f / powerOfTen (-e).toNat)
  else if -616 ≤ e then some (f / powerOfTen 308 / powerOfTen (-e - 308).toNat)
  else some 0.0

def digitsValue (ds : List Nat) : Nat := ds.foldl (fun n d => n * 10 + d) 0

/-- Exponents from `2^31` on exceed every float. -/
def exponentLimit : Nat := 1 <<< 31

/-- The reading of a numeral as a float. -/
def Numeral.float? (n : Numeral) : Option Float :=
  let (s, dropped) := absorb 0 n.whole
  let (s, unread) := absorb s n.fraction
  let shift : Int := Int.ofNat dropped.length - Int.ofNat (n.fraction.length - unread.length)
  let magnitude :=
    match n.exponent with
    | none => scale? s shift
    | some (negative, ds) =>
      let e := digitsValue ds
      if exponentLimit ≤ e then (if s ≠ 0 && !negative then none else some 0.0)
      else scale? s (if negative then shift - Int.ofNat e else shift + Int.ofNat e)
  magnitude.map fun x => if n.negative then -x else x

/-- The value of a numeral; `none` when it exceeds every float. -/
def Numeral.value? (n : Numeral) : Option Number :=
  let v := digitsValue n.whole
  if n.fraction.isEmpty && n.exponent.isNone then
    if !n.negative && v < 1 <<< 64 then some (.int v)
    else if n.negative && 0 < v && v ≤ 1 <<< 63 then some (.int (-v))
    else n.float?.map .float
  else n.float?.map .float

/-! ### Floats written as text

A text gives a float by its name (`nan`, `inf` or `infinity`, in any case) or as
a numeral rounded once to the nearest float, with an optional sign. -/

def digit? (c : Char) : Option Nat :=
  if '0' ≤ c ∧ c ≤ '9' then some (c.toNat - '0'.toNat) else none

/-- The leading decimal digits and what follows them. -/
def takeDigits : List Char → List Nat × List Char
  | [] => ([], [])
  | c :: cs =>
    match digit? c with
    | some d => (d :: (takeDigits cs).1, (takeDigits cs).2)
    | none => ([], c :: cs)

theorem takeDigits_length (cs : List Char) :
    (takeDigits cs).1.length + (takeDigits cs).2.length = cs.length := by
  induction cs with
  | nil => rfl
  | cons c cs ih =>
    simp only [takeDigits]
    split
    · simp only [List.length_cons]; omega
    · simp

/-- `digits · 10 ^ e`, rounded once. -/
def nearestFloat (digits : List Nat) (e : Int) : Float :=
  let m := digitsValue digits
  if m = 0 then 0.0
  else if 400 < e then 1.0 / 0.0
  else if e < -400 - Int.ofNat digits.length then 0.0
  else if 0 ≤ e then Float.ofScientific m false e.toNat
  else Float.ofScientific m true (-e).toNat

/-- An exponent mark, an optional sign and digits up to the end of the text. -/
def exponentText? : List Char → Option Int
  | [] => some 0
  | c :: cs =>
    if c = 'e' ∨ c = 'E' then
      let (sign, rest) : Int × List Char :=
        match cs with
        | '+' :: r => (1, r)
        | '-' :: r => (-1, r)
        | r => (1, r)
      match takeDigits rest with
      | (d :: ds, []) => some (sign * Int.ofNat (digitsValue (d :: ds)))
      | _ => none
    else none

/-- An unsigned numeral; digits on one side of the point are enough. -/
def unsignedText? (cs : List Char) : Option Float :=
  let (whole, rest) := takeDigits cs
  let (fraction, rest) :=
    match rest with
    | '.' :: r => takeDigits r
    | r => ([], r)
  if whole.isEmpty && fraction.isEmpty then none
  else (exponentText? rest).map fun e =>
    nearestFloat (whole ++ fraction) (e - Int.ofNat fraction.length)

def ofText? (s : String) : Option Float :=
  let (negative, body) :=
    match s.toList with
    | '-' :: r => (true, r)
    | '+' :: r => (false, r)
    | r => (false, r)
  let value :=
    match String.ofList (body.map Char.toLower) with
    | "nan" => some (0.0 / 0.0)
    | "inf" | "infinity" => some (1.0 / 0.0)
    | _ => unsignedText? body
  value.map fun x => if negative then -x else x

end Restock.Decimal
