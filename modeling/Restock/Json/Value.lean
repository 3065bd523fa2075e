/-! JSON values.

Integers from `-2^63` to `2^64 - 1` stay integers and every other number is a
float. The members of an object are kept in increasing order of their keys, one
for each key: `insertMember` puts a member into its place and replaces the
member of the same key, so of a repeated key the last value stays. -/
namespace Restock

inductive Json
  | null
  | bool (b : Bool)
  | int (n : Int)
  | float (x : Float)
  | string (s : String)
  | array (items : List Json)
  | object (members : List (String × Json))
  deriving Inhabited, Repr

namespace Json

mutual

/-- Values are equal when they are built alike; floats are compared as data. -/
def same : Json → Json → Bool
  | .null, .null => true
  | .bool a, .bool b => a == b
  | .int a, .int b => a == b
  | .float a, .float b => decide (a = b)
  | .string a, .string b => a == b
  | .array a, .array b => sameItems a b
  | .object a, .object b => sameMembers a b
  | _, _ => false

def sameItems : List Json → List Json → Bool
  | [], [] => true
  | a :: as, b :: bs => same a b && sameItems as bs
  | _, _ => false

def sameMembers : List (String × Json) → List (String × Json) → Bool
  | [], [] => true
  | (k, a) :: as, (l, b) :: bs => k == l && same a b && sameMembers as bs
  | _, _ => false

end

mutual

theorem eq_of_same : ∀ a b : Json, same a b = true → a = b
  | .null, b, h | .bool _, b, h | .int _, b, h | .float _, b, h | .string _, b, h => by
    cases b <;> simp_all [same]
  | .array as, b, h => by
    cases b with
    | array bs => rw [eq_of_sameItems as bs (by simpa [same] using h)]
    | _ => simp [same] at h
  | .object as, b, h => by
    cases b with
    | object bs => rw [eq_of_sameMembers as bs (by simpa [same] using h)]
    | _ => simp [same] at h

theorem eq_of_sameItems : ∀ as bs : List Json, sameItems as bs = true → as = bs
  | [], bs, h => by cases bs <;> simp_all [sameItems]
  | a :: as, bs, h => by
    cases bs with
    | nil => simp [sameItems] at h
    | cons b bs =>
      simp only [sameItems, Bool.and_eq_true] at h
      rw [eq_of_same a b h.1, eq_of_sameItems as bs h.2]

theorem eq_of_sameMembers : ∀ as bs : List (String × Json), sameMembers as bs = true → as = bs
  | [], bs, h => by cases bs <;> simp_all [sameMembers]
  | (k, a) :: as, bs, h => by
    cases bs with
    | nil => simp [sameMembers] at h
    | cons b bs =>
      obtain ⟨l, b⟩ := b
      simp only [sameMembers, Bool.and_eq_true, beq_iff_eq] at h
      rw [h.1.1, eq_of_same a b h.1.2, eq_of_sameMembers as bs h.2]

end

mutual

theorem same_self : ∀ a : Json, same a a = true
  | .null | .bool _ | .int _ | .float _ | .string _ => by simp [same]
  | .array as => by simp [same, sameItems_self as]
  | .object as => by simp [same, sameMembers_self as]

theorem sameItems_self : ∀ as : List Json, sameItems as as = true
  | [] => rfl
  | a :: as => by simp [sameItems, same_self a, sameItems_self as]

theorem sameMembers_self : ∀ as : List (String × Json), sameMembers as as = true
  | [] => rfl
  | (k, a) :: as => by simp [sameMembers, same_self a, sameMembers_self as]

end

theorem same_iff {a b : Json} : same a b = true ↔ a = b :=
  ⟨eq_of_same a b, fun h => h ▸ same_self a⟩

instance : DecidableEq Json := fun _ _ => decidable_of_iff _ same_iff

/-- Puts a member into its place by key; a member of the same key is replaced. -/
def insertMember (key : String) (value : Json) : List (String × Json) → List (String × Json)
  | [] => [(key, value)]
  | (k, v) :: rest =>
    if key < k then (key, value) :: (k, v) :: rest
    else if key = k then (key, value) :: rest
    else (k, v) :: insertMember key value rest

/-- The members in their places; the last of a repeated key stays. -/
def sortMembers (members : List (String × Json)) : List (String × Json) :=
  members.foldl (fun ms (k, v) => insertMember k v ms) []

/-- An object of the given members, in any order. -/
def ofMembers (members : List (String × Json)) : Json :=
  .object (sortMembers members)

def ofNat (n : Nat) : Json := .int n

/-- A finite float; no other float has a JSON form, and `null` stands for it. -/
def ofFloat (x : Float) : Json :=
  if x.isFinite then .float x else .null

def ofOption {α : Type} (f : α → Json) : Option α → Json
  | none => .null
  | some a => f a

def isNull : Json → Bool
  | .null => true
  | _ => false

end Json

end Restock
