import Restock.Json.Decode

/-! Identifiers that sort by the time of their making.

A ulid is a number of 128 bits. Its first 48 bits count milliseconds, the rest
tells ulids of one millisecond apart. As text it has 26 digits in base 32, most
significant first; the digits are `0` to `9` and the letters but I, L, O and U.
Text in either case is read, and digits beyond the 128 bits are dropped from the
front. Identifiers of tasks and of groups are ulids of different types, shown
with the name of their kind in front. -/
namespace Restock

structure Ulid where
  number : BitVec 128
  deriving DecidableEq, Repr

namespace Ulid

def ofNat (n : Nat) : Ulid := ⟨.ofNat 128 n⟩

instance : Inhabited Ulid := ⟨ofNat 0⟩

def alphabet : List Char := "0123456789ABCDEFGHJKMNPQRSTVWXYZ".toList

def textLength : Nat := 26

def digitChar (n : Nat) : Char := alphabet.getD n '0'

/-- The value of a digit in either case. -/
def digitValue? (c : Char) : Option Nat := alphabet.idxOf? c.toUpper

/-- The last `count` digits of a number in base 32, most significant first. -/
def digits : (count n : Nat) → List Char
  | 0, _ => []
  | count + 1, n => digits count (n / 32) ++ [digitChar (n % 32)]

def text (u : Ulid) : String := String.ofList (digits textLength u.number.toNat)

inductive ParseError
  | length
  | character
  deriving DecidableEq, Repr

def ParseError.message : ParseError → String
  | .length => "invalid length"
  | .character => "invalid character"

/-- Reads a text of 26 bytes. -/
def parse (s : String) : Except ParseError Ulid :=
  if s.utf8ByteSize ≠ textLength then .error .length
  else
    match s.toList.mapM digitValue? with
    | none => .error .character
    | some ds => .ok (ofNat (ds.foldl (fun n d => n * 32 + d) 0))

def timestampBits : Nat := 48

def tailBits : Nat := 80

/-- A ulid made at a time in milliseconds; of both parts the low bits count. -/
def ofParts (millis tail : Nat) : Ulid :=
  ofNat ((millis % 1 <<< timestampBits) <<< tailBits + tail % 1 <<< tailBits)

/-- The time of making, in milliseconds. -/
def timestamp (u : Ulid) : Nat := u.number.toNat >>> tailBits

def decode : Json.Decoder Ulid := fun source t => do
  match parse (← Json.decodeString source t) with
  | .ok u => .ok u
  | .error e => .error (.data (.refused e.message))

instance : Ord Ulid := ⟨fun a b => compare a.number.toNat b.number.toNat⟩

instance : LT Ulid := ⟨fun a b => a.number < b.number⟩

instance : LE Ulid := ⟨fun a b => a.number ≤ b.number⟩

instance (a b : Ulid) : Decidable (a < b) := inferInstanceAs (Decidable (a.number < b.number))

instance (a b : Ulid) : Decidable (a ≤ b) := inferInstanceAs (Decidable (a.number ≤ b.number))

end Ulid

/-! ### Identifiers of tasks and groups -/

inductive Kind
  | task
  | group
  deriving DecidableEq, Repr

def Kind.name : Kind → String
  | .task => "task"
  | .group => "group"

structure Id (k : Kind) where
  ulid : Ulid
  deriving DecidableEq, Repr, Inhabited

abbrev TaskId := Id .task

abbrev GroupId := Id .group

namespace Id

variable {k : Kind}

/-- The kind and the ulid. -/
def display (i : Id k) : String := k.name ++ "-" ++ i.ulid.text

def toJson (i : Id k) : Json := .string i.ulid.text

def decode : Json.Decoder (Id k) := fun source t => (Ulid.decode source t).map Id.mk

def ofNat (n : Nat) : Id k := ⟨.ofNat n⟩

/-- An identifier made at a reading of the clock, in milliseconds from the epoch;
readings before it count as the epoch. -/
def generate (clock : Int) (tail : Nat) : Id k := ⟨.ofParts clock.toNat tail⟩

end Id

end Restock
