import Restock.Decimal.Reading

/-! Tokens of JSON text.

`Token.scan` splits a text into tokens, white space dropped, up to its end or to
the first place where no token can be read. Such a place ends the tokens with a
`broken` one that says what is wrong there. What is wrong may depend on whether
the value is wanted: a wanted text that stops inside a number is cut short, a
skipped one is malformed, and a lone surrogate escape matters only in a text that
is wanted. A token takes at least one character (`scanToken_length`). -/
namespace Restock.Json

open Decimal (Numeral takeDigits takeDigits_length)

/-- Why a text is not JSON: a place that no continuation mends, or its end. -/
inductive Fault
  | malformed
  | truncated
  deriving DecidableEq, Repr

/-- What stands at the beginning of a break. A reader that looks for a string or
for `null` there meets the fault of that token; one that looks for neither may
refuse the place at once. -/
inductive Start
  | quote
  | null
  | other
  deriving DecidableEq, Repr

inductive Token
  | openArray
  | closeArray
  | openObject
  | closeObject
  | comma
  | colon
  | null
  | bool (b : Bool)
  | number (n : Numeral)
  /-- A closed string; its text is missing if it holds a lone surrogate. -/
  | string (text : Except Fault String)
  /-- No token: what begins here, and the fault for a wanted and for a skipped
  value. -/
  | broken (start : Start) (read skip : Fault)
  deriving Repr

/-- A token, or a break, and the characters after it. -/
abbrev Scanned := Token × List Char

def isSpace (c : Char) : Bool :=
  c == ' ' || c == '\t' || c == '\n' || c == '\r'

/-! ### Words and numbers -/

/-- Matches the rest of a word that begins with `start`. -/
def scanWord (start : Start) (token : Token) : List Char → List Char → Scanned
  | [], cs => (token, cs)
  | _ :: _, [] => (.broken start .truncated .truncated, [])
  | w :: ws, c :: cs =>
    if w = c then scanWord start token ws cs else (.broken start .malformed .malformed, [])

theorem scanWord_length (start : Start) (token : Token) (ws cs : List Char) :
    (scanWord start token ws cs).2.length ≤ cs.length := by
  induction ws generalizing cs with
  | nil => exact Nat.le_refl _
  | cons w ws ih =>
    cases cs with
    | nil => exact Nat.le_refl _
    | cons c cs =>
      simp only [scanWord]
      split
      · exact Nat.le_succ_of_le (ih cs)
      · exact Nat.zero_le _

/-- Where digits are missing: a text that ends there is cut short, unless the
number is skipped. -/
def noDigits (rest : List Char) : Scanned :=
  (.broken .other (if rest.isEmpty then .truncated else .malformed) .malformed, [])

/-- The exponent of a number, if one follows. -/
def scanExponent (negative : Bool) (whole fraction : List Nat) : List Char → Scanned
  | [] => (.number ⟨negative, whole, fraction, none⟩, [])
  | c :: cs =>
    if c = 'e' ∨ c = 'E' then
      let signed : Bool × List Char :=
        match cs with
        | '+' :: r => (false, r)
        | '-' :: r => (true, r)
        | r => (false, r)
      match takeDigits signed.2 with
      | ([], rest) => noDigits rest
      | (ds, rest) => (.number ⟨negative, whole, fraction, some (signed.1, ds)⟩, rest)
    else (.number ⟨negative, whole, fraction, none⟩, c :: cs)

theorem scanExponent_length (negative : Bool) (whole fraction : List Nat) (cs : List Char) :
    (scanExponent negative whole fraction cs).2.length ≤ cs.length := by
  cases cs with
  | nil => exact Nat.le_refl _
  | cons c cs =>
    simp only [scanExponent]
    split
    · split
      · exact Nat.zero_le _
      · next ds rest _ h =>
        have hl := takeDigits_length (match cs with
          | '+' :: r => ((false, r) : Bool × List Char)
          | '-' :: r => (true, r)
          | r => (false, r)).2
        rw [h] at hl
        simp only at hl ⊢
        have : (match cs with
          | '+' :: r => ((false, r) : Bool × List Char)
          | '-' :: r => (true, r)
          | r => (false, r)).2.length ≤ cs.length := by
          split <;> simp
        simp only [List.length_cons]
        omega
    · exact Nat.le_refl _

/-- The fraction of a number, if a point follows, and its exponent. -/
def scanFraction (negative : Bool) (whole : List Nat) : List Char → Scanned
  | '.' :: cs =>
    match takeDigits cs with
    | ([], rest) => noDigits rest
    | (ds, rest) => scanExponent negative whole ds rest
  | cs => scanExponent negative whole [] cs

theorem scanFraction_length (negative : Bool) (whole : List Nat) (cs : List Char) :
    (scanFraction negative whole cs).2.length ≤ cs.length := by
  unfold scanFraction
  split
  · next cs =>
    split
    · exact Nat.zero_le _
    · next ds rest _ h =>
      have hl := takeDigits_length cs
      rw [h] at hl
      have he := scanExponent_length negative whole ds rest
      simp only [List.length_cons] at *
      omega
  · exact scanExponent_length _ _ _ _

/-- A number after its sign. A leading zero stands alone. -/
def scanNumber (negative : Bool) (cs : List Char) : Scanned :=
  match takeDigits cs with
  | ([], rest) => noDigits rest
  | (0 :: _ :: _, _) => (.broken .other .malformed .malformed, [])
  | (ds, rest) => scanFraction negative ds rest

theorem scanNumber_length (negative : Bool) (cs : List Char) :
    (scanNumber negative cs).2.length ≤ cs.length := by
  unfold scanNumber
  have hl := takeDigits_length cs
  split
  · exact Nat.zero_le _
  · exact Nat.zero_le _
  · next ds rest _ _ h =>
    rw [h] at hl
    have hf := scanFraction_length negative ds rest
    simp only at hl
    omega

/-- A number that begins with a digit takes at least that digit. -/
theorem scanNumber_digit_length {c : Char} {d : Nat} (h : Decimal.digit? c = some d)
    (negative : Bool) (cs : List Char) : (scanNumber negative (c :: cs)).2.length ≤ cs.length := by
  have hl := takeDigits_length cs
  unfold scanNumber
  simp only [takeDigits, h]
  split
  · next heq => simp at heq
  · exact Nat.zero_le _
  · next ds rest _ _ heq =>
    simp only [Prod.mk.injEq] at heq
    have hf := scanFraction_length negative ds rest
    rw [← heq.2] at hf ⊢
    omega

/-! ### Strings -/

def hexValue? (c : Char) : Option Nat :=
  if '0' ≤ c ∧ c ≤ '9' then some (c.toNat - '0'.toNat)
  else if 'a' ≤ c ∧ c ≤ 'f' then some (c.toNat - 'a'.toNat + 10)
  else if 'A' ≤ c ∧ c ≤ 'F' then some (c.toNat - 'A'.toNat + 10)
  else none

/-- The code of four hexadecimal digits. -/
def hexCode? (a b c d : Char) : Option Nat := do
  return (((← hexValue? a) * 16 + (← hexValue? b)) * 16 + (← hexValue? c)) * 16 + (← hexValue? d)

/-- Why no code of four digits follows: fewer than four bytes are left, or one
of them is no digit. -/
def hexFault (cs : List Char) : Fault :=
  if (cs.take 4).foldl (fun n c => n + c.utf8Size) 0 < 4 then .truncated else .malformed

def isHighSurrogate (n : Nat) : Bool := 0xD800 ≤ n && n ≤ 0xDBFF

def isLowSurrogate (n : Nat) : Bool := 0xDC00 ≤ n && n ≤ 0xDFFF

def joinSurrogates (high low : Nat) : Char :=
  Char.ofNat (0x10000 + (high - 0xD800) * 0x400 + (low - 0xDC00))

def simpleEscape? (c : Char) : Option Char :=
  match c with
  | '"' => some '"'
  | '\\' => some '\\'
  | '/' => some '/'
  | 'b' => some '\x08'
  | 'f' => some '\x0c'
  | 'n' => some '\n'
  | 'r' => some '\r'
  | 't' => some '\t'
  | _ => none

/-- The text read so far, last character first, or the fault met in it. -/
abbrev Draft := Except Fault (List Char)

def Draft.push (t : Draft) (c : Char) : Draft := t.map (c :: ·)

/-- The first fault of a text stays. -/
def Draft.fail (t : Draft) (f : Fault) : Draft :=
  match t with
  | .ok _ => .error f
  | .error g => .error g

/-- A string that ends in a fault: a fault met before still comes first for a
wanted text. -/
def breakString (t : Draft) (f : Fault) : Scanned :=
  match t with
  | .ok _ => (.broken .quote f f, [])
  | .error g => (.broken .quote g f, [])

/-- A high surrogate that nothing completes spoils a wanted text. -/
def Draft.settle (t : Draft) (high : Option Nat) : Draft :=
  match high with
  | none => t
  | some _ => t.fail .malformed

/-- An escaped code after a possible high surrogate: the text with it, and the
high surrogate that now waits for its other half. -/
def Draft.pushCode (t : Draft) (high : Option Nat) (n : Nat) : Draft × Option Nat :=
  match high, isLowSurrogate n with
  | some h, true => (t.push (joinSurrogates h n), none)
  | high, true => ((t.settle high).fail .malformed, none)
  | high, false =>
    if isHighSurrogate n then (t.settle high, some n)
    else ((t.settle high).push (Char.ofNat n), none)

/-- A string after its opening quote; `high` is a high surrogate just read. -/
def scanString (t : Draft) (high : Option Nat) : List Char → Scanned
  | [] => breakString t .truncated
  | '"' :: rest => (.string ((t.settle high).map fun cs => String.ofList cs.reverse), rest)
  | ['\\'] => breakString t .truncated
  | '\\' :: 'u' :: a :: b :: c :: d :: rest =>
    match hexCode? a b c d with
    | none => breakString t .malformed
    | some n => scanString (t.pushCode high n).1 (t.pushCode high n).2 rest
  | '\\' :: 'u' :: cs => breakString t (hexFault cs)
  | '\\' :: c :: rest =>
    match simpleEscape? c with
    | some e => scanString ((t.settle high).push e) none rest
    | none => breakString t .malformed
  | c :: rest =>
    if c.toNat < 0x20 then breakString t .malformed
    else scanString ((t.settle high).push c) none rest

theorem breakString_length (t : Draft) (f : Fault) (n : Nat) : (breakString t f).2.length ≤ n := by
  unfold breakString
  split <;> exact Nat.zero_le _

theorem scanString_length (t : Draft) (high : Option Nat) (cs : List Char) :
    (scanString t high cs).2.length ≤ cs.length := by
  fun_induction scanString t high cs <;>
    first
      | exact breakString_length _ _ _
      | (simp only [List.length_cons] at *; omega)

/-! ### Tokens -/

/-- The token that a character begins; `cs` follows the character. -/
def scanToken (c : Char) (cs : List Char) : Scanned :=
  match c with
  | '[' => (.openArray, cs)
  | ']' => (.closeArray, cs)
  | '\x7b' => (.openObject, cs)
  | '\x7d' => (.closeObject, cs)
  | ',' => (.comma, cs)
  | ':' => (.colon, cs)
  | '"' => scanString (.ok []) none cs
  | 'n' => scanWord .null .null ['u', 'l', 'l'] cs
  | 't' => scanWord .other (.bool true) ['r', 'u', 'e'] cs
  | 'f' => scanWord .other (.bool false) ['a', 'l', 's', 'e'] cs
  | '-' => scanNumber true cs
  | c =>
    if (Decimal.digit? c).isSome then scanNumber false (c :: cs)
    else (.broken .other .malformed .malformed, [])

theorem scanToken_length (c : Char) (cs : List Char) :
    (scanToken c cs).2.length < (c :: cs).length := by
  rw [List.length_cons, Nat.lt_succ_iff]
  unfold scanToken
  split <;> try exact Nat.le_refl _
  · exact scanString_length _ _ _
  · exact scanWord_length _ _ _ _
  · exact scanWord_length _ _ _ _
  · exact scanWord_length _ _ _ _
  · exact scanNumber_length _ _
  · split
    · next h =>
      obtain ⟨d, hd⟩ := Option.isSome_iff_exists.1 h
      exact scanNumber_digit_length hd _ _
    · exact Nat.zero_le _

def Token.isBroken : Token → Bool
  | .broken .. => true
  | _ => false

/-- The tokens of a text. -/
def Token.scan : List Char → List Token
  | [] => []
  | c :: cs =>
    if isSpace c then Token.scan cs
    else if (scanToken c cs).1.isBroken then [(scanToken c cs).1]
    else (scanToken c cs).1 :: Token.scan (scanToken c cs).2
termination_by cs => cs.length
decreasing_by
  · simp
  · exact scanToken_length c cs

end Restock.Json
