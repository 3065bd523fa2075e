/-! Blank text.

White space is the Unicode property White_Space, so a name of ideographic or
no-break spaces is as blank as an empty one, while the zero-width characters,
which are not white space, make a name of their own. `isBlank_iff` says that a
blank text is one whose every character is white space. -/
namespace Restock.Text

/-- The ranges of the property White_Space, both ends included. -/
def whiteSpace : List (Nat × Nat) :=
  [(0x09, 0x0D), (0x20, 0x20), (0x85, 0x85), (0xA0, 0xA0), (0x1680, 0x1680), (0x2000, 0x200A),
   (0x2028, 0x2029), (0x202F, 0x202F), (0x205F, 0x205F), (0x3000, 0x3000)]

def isWhite (c : Char) : Bool :=
  whiteSpace.any fun (low, high) => low ≤ c.toNat && c.toNat ≤ high

/-- Nothing is left of the text once white space is trimmed from both ends. -/
def isBlank (s : String) : Bool :=
  s.toList.all isWhite

theorem isBlank_iff (s : String) : isBlank s = true ↔ ∀ c ∈ s.toList, isWhite c = true := by
  simp [isBlank, List.all_eq_true]

end Restock.Text
