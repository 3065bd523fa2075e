import Restock.Json.Value
import Restock.Json.Printer
import Restock.Json.Tree
import Restock.Text.Quoted

/-! Decoding values from JSON text and from values at hand.

A decoder walks a tree in text order, so its `Problem` is the first one of the
text: a fault of the text, or a value of the wrong kind where the text is still
sound. Values that nobody reads are checked for faults alone.

The `Source` of the tree decides how a container is read. In a text only so many
may be open at the same time, and one that holds more than is wanted, or that
stands in place of an enumeration, is a fault. A value at hand has no faults: it
may be nested to any depth, and what does not fit is refused for its kind or for
its length.

A `Schema` describes a record by its fields. It reads the record from an object,
whose unknown members are passed over, or from an array of the fields in their
order; fields that are not required keep their value in `initial`. -/
namespace Restock

/-- A chain succeeds with what its second part makes of the first. -/
theorem bind_eq_ok_iff {ε α β : Type} {x : Except ε α} {f : α → Except ε β} {b : β} :
    x >>= f = .ok b ↔ ∃ a, x = .ok a ∧ f a = .ok b := by
  cases x <;> simp [bind, Except.bind]

end Restock

namespace Restock.Json

open Decimal (Number)

/-- A value that stands in place of another. -/
inductive Found
  | null
  | bool (b : Bool)
  | int (n : Int)
  | float (x : Float)
  | string (s : String)
  | sequence
  | map
  deriving Repr, DecidableEq

/-- What a decoder wants. -/
inductive Expected
  | string
  | unsigned (bits : Nat)
  | size
  | float
  | sequence
  | map
  | unit
  | variant
  | singleMember
  | record (name : String)
  | elements (name : String) (count : Nat)
  | fewerElements
  deriving Repr, DecidableEq

/-- Why a sound text is not the value that is wanted. -/
inductive DataError
  | wrongType (found : Found) (expected : Expected)
  /-- A value of the right kind that is out of range. -/
  | wrongValue (found : Found) (expected : Expected)
  | wrongLength (n : Nat) (expected : Expected)
  | missingField (name : String)
  | duplicateField (name : String)
  | unknownField (name : String) (known : List String)
  | unknownVariant (name : String) (known : List String)
  /-- A value that its own type refuses. -/
  | refused (reason : String)
  deriving Repr, DecidableEq

inductive Problem
  | fault (f : Fault)
  | data (e : DataError)
  deriving Repr, DecidableEq

/-! ### Messages -/

def Found.text : Found → String
  | .null => "null"
  | .bool b => "boolean `" ++ toString b ++ "`"
  | .int n => "integer `" ++ toString n ++ "`"
  | .float x => "floating point `" ++ floatText x ++ "`"
  | .string s => "string " ++ Text.quoted s
  | .sequence => "sequence"
  | .map => "map"

def Expected.text : Expected → String
  | .string => "a string"
  | .unsigned bits => "u" ++ toString bits
  | .size => "usize"
  | .float => "f64"
  | .sequence => "a sequence"
  | .map => "a map"
  | .unit => "unit"
  | .variant => "string or map"
  | .singleMember => "map with a single key"
  | .record name => "struct " ++ name
  | .elements name count => "struct " ++ name ++ " with " ++ toString count ++ " elements"
  | .fewerElements => "fewer elements in array"

def backticked (s : String) : String := "`" ++ s ++ "`"

/-- Two names are alternatives, more are a list. -/
def alternatives (names : List String) : String :=
  match names with
  | [a] => backticked a
  | [a, b] => backticked a ++ " or " ++ backticked b
  | names => "one of " ++ String.intercalate ", " (names.map backticked)

def DataError.message : DataError → String
  | .wrongType found expected => "invalid type: " ++ found.text ++ ", expected " ++ expected.text
  | .wrongValue found expected => "invalid value: " ++ found.text ++ ", expected " ++ expected.text
  | .wrongLength n expected => "invalid length " ++ toString n ++ ", expected " ++ expected.text
  | .missingField name => "missing field " ++ backticked name
  | .duplicateField name => "duplicate field " ++ backticked name
  | .unknownField name known => "unknown field " ++ backticked name ++ ", expected " ++ alternatives known
  | .unknownVariant name known =>
    "unknown variant " ++ backticked name ++ ", expected " ++ alternatives known
  | .refused reason => reason

/-! ### Decoders -/

/-- What a tree was read from: a text, in which `room` more containers may be
opened, or a value at hand. -/
inductive Source
  | text (room : Nat)
  | value
  deriving Repr, DecidableEq

abbrev Decoder (α : Type) := Source → Tree → Except Problem α

def wanted {α : Type} (text : Except Fault α) : Except Problem α :=
  text.mapError .fault

def malformed {α : Type} : Except Problem α := .error (.fault .malformed)

/-- The source of the items of a container that is read. -/
def Source.enter : Source → Except Problem Source
  | .text 0 => malformed
  | .text (room + 1) => .ok (.text room)
  | .value => .ok .value

/-- Refuses an array of `count` items, which are more than are wanted. -/
def Source.exceeded {α : Type} (source : Source) (count : Nat) : Except Problem α :=
  match source with
  | .text _ => malformed
  | .value => .error (.data (.wrongLength count .fewerElements))

/-- The value of a number; one that exceeds every float is no number. -/
def numberOf (value : Option Number) : Except Problem Number :=
  match value with
  | some v => .ok v
  | none => malformed

def Found.ofNumber : Number → Found
  | .int n => .int n
  | .float x => .float x

/-- What stands in the place of a wanted value. -/
def Tree.found : Tree → Except Problem Found
  | .null => .ok .null
  | .bool b => .ok (.bool b)
  | .number n => (numberOf n).map Found.ofNumber
  | .string text => (wanted text).map .string
  | .array _ _ => .ok .sequence
  | .object _ _ => .ok .map
  | .missing => .error (.fault .truncated)
  | .broken _ read _ => .error (.fault read)

def refuse {α : Type} (expected : Expected) (t : Tree) : Except Problem α := do
  let found ← t.found
  .error (.data (.wrongType found expected))

def decodeString : Decoder String := fun _ t =>
  match t with
  | .string text => wanted text
  | t => refuse .string t

/-- A natural number below `limit`. -/
def decodeNat (limit : Nat) (expected : Expected) : Decoder Nat := fun _ t =>
  match t with
  | .number n => do
    match ← numberOf n with
    | .int k =>
      if 0 ≤ k ∧ k < limit then .ok k.toNat else .error (.data (.wrongValue (.int k) expected))
    | .float x => .error (.data (.wrongType (.float x) expected))
  | t => refuse expected t

def decodeU64 : Decoder UInt64 := fun source t =>
  (decodeNat (1 <<< 64) (.unsigned 64) source t).map UInt64.ofNat

def decodeU32 : Decoder UInt32 := fun source t =>
  (decodeNat (1 <<< 32) (.unsigned 32) source t).map UInt32.ofNat

def decodeSize : Decoder UInt64 := fun source t =>
  (decodeNat (1 <<< 64) .size source t).map UInt64.ofNat

/-- Integers are floats where a float is wanted. -/
def Number.toFloat : Number → Float
  | .int n => if n < 0 then -Float.ofNat n.natAbs else Float.ofNat n.natAbs
  | .float x => x

def decodeFloat : Decoder Float := fun _ t =>
  match t with
  | .number n => (numberOf n).map Number.toFloat
  | t => refuse .float t

def decodeUnit : Decoder Unit := fun _ t =>
  match t with
  | .null => .ok ()
  | t => refuse .unit t

/-- `null` is nothing. -/
def decodeOption {α : Type} (decode : Decoder α) : Decoder (Option α) := fun source t =>
  match t with
  | .null => .ok none
  | .broken .null read _ => .error (.fault read)
  | t => (decode source t).map some

/-- The end of a container all of whose parts are read. -/
def Stop.finish {α : Type} (stop : Stop) (value : α) : Except Problem α :=
  match stop with
  | .closed => .ok value
  | .unclosed f => .error (.fault f)
  | .noKey read _ => .error (.fault read)

def decodeItems {α : Type} (decode : Decoder α) (source : Source) (stop : Stop) :
    List Tree → Except Problem (List α)
  | [] => stop.finish []
  | t :: ts => do
    let a ← decode source t
    let rest ← decodeItems decode source stop ts
    return a :: rest

def decodeList {α : Type} (decode : Decoder α) : Decoder (List α) := fun source t => do
  match t with
  | .array items stop => decodeItems decode (← source.enter) stop items
  | t => refuse .sequence t

def decodeEntries {κ α : Type} (key : String → Except Problem κ) (decode : Decoder α)
    (source : Source) (stop : Stop) :
    List (Except Fault String × Tree) → Except Problem (List (κ × α))
  | [] => stop.finish []
  | (k, t) :: rest => do
    let k ← wanted k >>= key
    let a ← decode source t
    let rest ← decodeEntries key decode source stop rest
    return (k, a) :: rest

/-- The entries of a map, in text order and with repeated keys. -/
def decodeMap {κ α : Type} (key : String → Except Problem κ) (decode : Decoder α) :
    Decoder (List (κ × α)) := fun source t => do
  match t with
  | .object members stop => decodeEntries key decode (← source.enter) stop members
  | t => refuse .map t

/-! ### Enumerations -/

def variant {α : Type} (variants : List (String × α)) (name : String) : Except Problem α :=
  match variants.lookup name with
  | some a => .ok a
  | none => .error (.data (.unknownVariant name (variants.map (·.1))))

/-- The variant that the members of an object stand for: the key of the only
one, whose value is `null`. -/
def decodeMember {α : Type} (variants : List (String × α)) (source : Source) (stop : Stop) :
    List (Except Fault String × Tree) → Except Problem α
  | [] => stop.finish () >>= fun _ => malformed
  | (key, value) :: rest => do
    let a ← wanted key >>= variant variants
    decodeUnit source value
    match rest, stop with
    | [], .closed => .ok a
    | [], .unclosed f => .error (.fault f)
    | _, _ => malformed

/-- A variant is a string, or an object of one member. In a text nothing else can
begin one; of a value at hand the members are counted first. -/
def decodeVariant {α : Type} (variants : List (String × α)) : Decoder α := fun source t => do
  match t, source with
  | .string text, _ => wanted text >>= variant variants
  | .object members stop, .text _ => decodeMember variants (← source.enter) stop members
  | .object [m] stop, .value => decodeMember variants .value stop [m]
  | .object _ _, .value => .error (.data (.wrongValue .map .singleMember))
  | .missing, _ => .error (.fault .truncated)
  | .broken .quote read _, _ => .error (.fault read)
  | _, .text _ => malformed
  | t, .value => refuse .variant t

/-! ### Values that nobody reads and values of any kind -/

def Stop.skip? : Stop → Option Fault
  | .closed => none
  | .unclosed f => some f
  | .noKey _ skip => some skip

mutual

/-- The first fault of a value that is passed over. -/
def Tree.skip? : Tree → Option Fault
  | .array items stop => (skipItems? items).or stop.skip?
  | .object members stop => (skipMembers? members).or stop.skip?
  | .missing => some .truncated
  | .broken _ _ skip => some skip
  | _ => none

def skipItems? : List Tree → Option Fault
  | [] => none
  | t :: ts => t.skip?.or (skipItems? ts)

def skipMembers? : List (Except Fault String × Tree) → Option Fault
  | [] => none
  | (_, t) :: rest => t.skip?.or (skipMembers? rest)

end

mutual

/-- Reads a value of any kind. -/
def Tree.toJson (source : Source) : Tree → Except Problem Json
  | .null => .ok .null
  | .bool b => .ok (.bool b)
  | .number n => do
    match ← numberOf n with
    | .int n => .ok (.int n)
    | .float x => .ok (.float x)
  | .string text => (wanted text).map .string
  | .array items stop => do
    let inner ← source.enter
    return .array (← itemsToJson inner stop items)
  | .object members stop => do
    let inner ← source.enter
    return ofMembers (← membersToJson inner stop members)
  | .missing => .error (.fault .truncated)
  | .broken _ read _ => .error (.fault read)

def itemsToJson (source : Source) (stop : Stop) : List Tree → Except Problem (List Json)
  | [] => stop.finish []
  | t :: ts => do
    let v ← t.toJson source
    let rest ← itemsToJson source stop ts
    return v :: rest

def membersToJson (source : Source) (stop : Stop) :
    List (Except Fault String × Tree) → Except Problem (List (String × Json))
  | [] => stop.finish []
  | (k, t) :: ts => do
    let k ← wanted k
    let v ← t.toJson source
    let rest ← membersToJson source stop ts
    return (k, v) :: rest

end

def decodeAny : Decoder Json := fun source t => t.toJson source

/-! ### Records -/

/-- A field of a record `σ`, and how its value is put into the record. -/
structure Field (σ : Type) where
  name : String
  required : Bool
  decode : Decoder (σ → σ)

def Field.ofDecoder {σ α : Type} (name : String) (required : Bool) (decode : Decoder α)
    (put : α → σ → σ) : Field σ :=
  ⟨name, required, fun source t => (decode source t).map put⟩

/-- A field that has to be given. -/
def Field.must {σ α : Type} (name : String) (decode : Decoder α) (put : α → σ → σ) : Field σ :=
  .ofDecoder name true decode put

/-- A field that may be left out. -/
def Field.may {σ α : Type} (name : String) (decode : Decoder α) (put : α → σ → σ) : Field σ :=
  .ofDecoder name false decode put

structure Schema (σ : Type) where
  name : String
  /-- The record before any field is read. -/
  initial : σ
  fields : List (Field σ)
  /-- Unknown members are refused instead of passed over. -/
  closed : Bool
  /-- What an array that is too short should have been. -/
  tooShort : Expected

namespace Schema

variable {σ : Type}

/-- A record whose unknown members are passed over. -/
def openRecord (name : String) (initial : σ) (fields : List (Field σ)) : Schema σ :=
  ⟨name, initial, fields, false, .elements name fields.length⟩

/-- A record that has no other members. -/
def closedRecord (name : String) (initial : σ) (fields : List (Field σ)) : Schema σ :=
  ⟨name, initial, fields, true, .record name⟩

/-- The first field that has to be given and was not. -/
def missing? (s : Schema σ) (seen : List String) : Option (Field σ) :=
  s.fields.find? fun f => f.required && !seen.contains f.name

/-- Reads the members of an object into `v`; `seen` names the fields read. At the
end of the object the record goes to `finish`. -/
def decodeMembers {τ : Type} (s : Schema σ) (finish : σ → Except Problem τ) (source : Source)
    (stop : Stop) (seen : List String) (v : σ) :
    List (Except Fault String × Tree) → Except Problem τ
  | [] => do
    let v ← stop.finish v
    match s.missing? seen with
    | some f => .error (.data (.missingField f.name))
    | none => finish v
  | (key, t) :: rest => do
    let key ← wanted key
    match s.fields.find? fun f => f.name == key with
    | none =>
      if s.closed then .error (.data (.unknownField key (s.fields.map (·.name))))
      else
        match t.skip? with
        | some f => .error (.fault f)
        | none => s.decodeMembers finish source stop seen v rest
    | some f =>
      if seen.contains key then .error (.data (.duplicateField key))
      else
        let put ← f.decode source t
        s.decodeMembers finish source stop (key :: seen) (put v) rest

/-- Reads the items of an array into the fields in their order; `n` items are
read already. The record goes to `finish` as soon as its last field is read,
before the array has ended. -/
def decodeElements {τ : Type} (s : Schema σ) (finish : σ → Except Problem τ)
    (source : Source) (stop : Stop) : (n : Nat) → (v : σ) → List (Field σ) → List Tree → Except Problem τ
  | _, v, [], [] => finish v >>= stop.finish
  | n, v, [], t :: ts => finish v >>= fun _ => source.exceeded (n + (t :: ts).length)
  | n, v, f :: fs, t :: ts => do
    let put ← f.decode source t
    s.decodeElements finish source stop (n + 1) (put v) fs ts
  | n, v, f :: fs, [] => do
    let v ← stop.finish v
    if f.required then .error (.data (.wrongLength n s.tooShort))
    else s.decodeElements finish source stop (n + 1) v fs []

/-- Reads the record and makes a value of it. -/
def decodeAs {τ : Type} (s : Schema σ) (finish : σ → Except Problem τ) : Decoder τ :=
  fun source t => do
    match t with
    | .object members stop => s.decodeMembers finish (← source.enter) stop [] s.initial members
    | .array items stop =>
      s.decodeElements finish (← source.enter) stop 0 s.initial s.fields items
    | t => refuse (.record s.name) t

def decode (s : Schema σ) : Decoder σ := s.decodeAs .ok

end Schema

/-- Containers that may be open at the same time in a text. -/
def maxDepth : Nat := 127

/-- Decodes a text that holds one value. -/
def decodeText {α : Type} (decode : Decoder α) (s : String) : Except Problem α := do
  let document := Document.ofText s
  let value ← decode (.text maxDepth) document.root
  if document.ended then return value else malformed

/-- Decodes a value that is at hand. -/
def decodeValue {α : Type} (decode : Decoder α) (v : Json) : Except Problem α :=
  decode .value (Tree.ofJson v)

end Restock.Json
