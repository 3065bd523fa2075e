import Restock.Decimal.Reading
import Restock.Json.Decode

/-! Taking JSON values apart.

Each reader takes one kind of value and says what it wanted instead of others. A
member that is missing and one that is `null` are the same. -/
namespace Restock.Json.Access

abbrev Read := Except String

def member? (j : Json) (name : String) : Option Json :=
  match j with
  | .object ms => (ms.lookup name).filter (!·.isNull)
  | _ => none

def member (j : Json) (name : String) : Read Json :=
  match member? j name with
  | some v => .ok v
  | none => .error ("no member " ++ name)

/-- The value of a member, `null` if it is missing. -/
def anyMember (j : Json) (name : String) : Json := (member? j name).getD .null

def membersOf : Json → List (String × Json)
  | .object ms => ms
  | _ => []

def text : Json → Read String
  | .string s => .ok s
  | _ => .error "not a text"

def items : Json → Read (List Json)
  | .array xs => .ok xs
  | _ => .error "not a list"

def nat : Json → Read Nat
  | .int n => if 0 ≤ n then .ok n.toNat else .error "negative"
  | _ => .error "not a number"

def int : Json → Read Int
  | .int n => .ok n
  | _ => .error "not an integer"

def bool : Json → Read Bool
  | .bool b => .ok b
  | _ => .error "not a truth value"

/-- A number, or the text of any decimal float. -/
def float : Json → Read Float
  | .string s =>
    match Decimal.ofText? s with
    | some x => .ok x
    | none => .error "not a float"
  | .int n => .ok (Json.Number.toFloat (.int n))
  | .float x => .ok x
  | _ => .error "not a float"

/-- What a decoder reads. -/
def decoded {α : Type} (decode : Json.Decoder α) (j : Json) : Read α :=
  match Json.decodeValue decode j with
  | .ok a => .ok a
  | .error (.data e) => .error e.message
  | .error (.fault _) => .error "malformed"

def required {α : Type} (read : Json → Read α) (j : Json) (name : String) : Read α := do
  read (← member j name)

def optional {α : Type} (read : Json → Read α) (j : Json) (name : String) : Read (Option α) :=
  match member? j name with
  | some v => (read v).map some
  | none => .ok none

def defaulted {α : Type} (read : Json → Read α) (j : Json) (name : String) (default : α) : Read α :=
  return (← optional read j name).getD default

/-- The items of a member; a missing member has none. -/
def each {α : Type} (read : Json → Read α) (j : Json) (name : String) : Read (List α) := do
  match ← optional items j name with
  | some xs => xs.mapM read
  | none => .ok []

/-- The members of a member, in their order. -/
def entries {α : Type} (read : Json → Read α) (j : Json) (name : String) :
    Read (List (String × α)) :=
  (membersOf (anyMember j name)).mapM fun (n, v) => return (n, ← read v)

end Restock.Json.Access
