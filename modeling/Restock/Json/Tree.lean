import Restock.Json.Token
import Restock.Json.Value

/-! The shape of JSON text, read as far as it goes.

A `Tree` is the value that a text begins with. Where the text is no longer JSON
the tree ends in a `broken` value or an unclosed container that names the fault.
A reader that walks the tree in text order meets the same first problem as one
that walks the text, and may find the part before a fault at fault itself. -/
namespace Restock.Json

/-- How a container ends. -/
inductive Stop
  | closed
  /-- After a value, neither a comma nor the closing bracket. -/
  | unclosed (f : Fault)
  /-- No key where one has to stand, for a wanted and for a skipped object. -/
  | noKey (read skip : Fault)
  deriving Repr

inductive Tree
  | null
  | bool (b : Bool)
  /-- A number; its value is missing if it exceeds every float. -/
  | number (value : Option Decimal.Number)
  | string (text : Except Fault String)
  | array (items : List Tree) (stop : Stop)
  | object (members : List (Except Fault String × Tree)) (stop : Stop)
  /-- The text ends before the value, or before the colon in front of it. -/
  | missing
  /-- No value: what begins there, and the fault for a wanted and for a skipped
  one. -/
  | broken (start : Start) (read skip : Fault)

namespace Tree

/-- A container around the place where the text is read, last item first. -/
inductive Frame
  | array (items : List Tree)
  | object (members : List (Except Fault String × Tree)) (key : Except Fault String)

/-- A container with the item last read in it. -/
def Frame.close (f : Frame) (last : Tree) (stop : Stop) : Tree :=
  match f with
  | .array items => .array (last :: items).reverse stop
  | .object members key => .object ((key, last) :: members).reverse stop

/-- The tree of a text that ends inside the given containers. -/
def unwind : List Frame → Tree → Tree
  | [], t => t
  | f :: stack, t => unwind stack (f.close t (.unclosed .truncated))

/-- Why a token is not the comma or bracket that has to stand in its place. -/
def unclosedBy (ts : List Token) : Stop :=
  .unclosed (if ts.isEmpty then .truncated else .malformed)

/-- Where a value stands alone, by the token it consists of. -/
def leaf? : Token → Option Tree
  | .null => some .null
  | .bool b => some (.bool b)
  | .number n => some (.number n.value?)
  | .string s => some (.string s)
  | _ => none

mutual

/-- A value has to follow. -/
def readValue (stack : List Frame) : List Token → Tree × List Token
  | [] => (unwind stack .missing, [])
  | .openArray :: ts => readFirstItem stack ts
  | .openObject :: ts => readKey stack [] ts
  | .broken start read skip :: _ => (unwind stack (.broken start read skip), [])
  | t :: ts =>
    match leaf? t with
    | some v => readNext stack v ts
    | none => (unwind stack (.broken .other .malformed .malformed), [])

/-- An array was opened. -/
def readFirstItem (stack : List Frame) : List Token → Tree × List Token
  | [] => (unwind stack (.array [] (.unclosed .truncated)), [])
  | .closeArray :: ts => readNext stack (.array [] .closed) ts
  | .openArray :: ts => readFirstItem (.array [] :: stack) ts
  | .openObject :: ts => readKey (.array [] :: stack) [] ts
  | .broken start read skip :: _ =>
    (unwind (.array [] :: stack) (.broken start read skip), [])
  | t :: ts =>
    match leaf? t with
    | some v => readNext (.array [] :: stack) v ts
    | none => (unwind (.array [] :: stack) (.broken .other .malformed .malformed), [])

/-- A key has to follow, or the end of an object that has no members. -/
def readKey (stack : List Frame) (members : List (Except Fault String × Tree)) :
    List Token → Tree × List Token
  | [] => (unwind stack (.object members.reverse (.noKey .truncated .truncated)), [])
  | .closeObject :: ts =>
    if members.isEmpty then readNext stack (.object [] .closed) ts
    else (unwind stack (.object members.reverse (.noKey .malformed .malformed)), [])
  | .string key :: .colon :: ts => readValue (.object members key :: stack) ts
  | [.string key] => (unwind (.object members key :: stack) .missing, [])
  | .string key :: _ =>
    (unwind (.object members key :: stack) (.broken .other .malformed .malformed), [])
  | .broken .quote read skip :: _ => (unwind stack (.object members.reverse (.noKey read skip)), [])
  | _ => (unwind stack (.object members.reverse (.noKey .malformed .malformed)), [])

/-- A value was read; what follows depends on the container around it. -/
def readNext (stack : List Frame) (v : Tree) (ts : List Token) : Tree × List Token :=
  match stack, ts with
  | [], ts => (v, ts)
  | .array items :: stack, .comma :: ts => readValue (.array (v :: items) :: stack) ts
  | .array items :: stack, .closeArray :: ts =>
    readNext stack (.array (v :: items).reverse .closed) ts
  | .object members key :: stack, .comma :: ts => readKey stack ((key, v) :: members) ts
  | .object members key :: stack, .closeObject :: ts =>
    readNext stack (.object ((key, v) :: members).reverse .closed) ts
  | f :: stack, ts => (unwind stack (f.close v (unclosedBy ts)), [])

end

end Tree

mutual

/-- The tree of a value's own text. -/
def Tree.ofJson : Json → Tree
  | .null => .null
  | .bool b => .bool b
  | .int n => .number (some (.int n))
  | .float x => .number (some (.float x))
  | .string s => .string (.ok s)
  | .array items => .array (ofItems items) .closed
  | .object members => .object (ofJsonMembers members) .closed

def Tree.ofItems : List Json → List Tree
  | [] => []
  | v :: vs => Tree.ofJson v :: ofItems vs

def Tree.ofJsonMembers : List (String × Json) → List (Except Fault String × Tree)
  | [] => []
  | (k, v) :: ms => (.ok k, Tree.ofJson v) :: ofJsonMembers ms

end

/-- A text as a value and what stands after it. -/
structure Document where
  root : Tree
  /-- Nothing but white space follows the value. -/
  ended : Bool

def Document.ofText (s : String) : Document :=
  let (root, rest) := Tree.readValue [] (Token.scan s.toList)
  ⟨root, rest.isEmpty⟩

end Restock.Json
