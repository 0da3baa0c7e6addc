/-
**Ranges of code points.**

Properties of characters come from the Unicode character database as lists of ranges of code points.

Main definitions:

* `CodeRange`, `CodeRange.Contains` — a range, and the code points in it;
* `CodeRange.anyContains` — a code point lies in one of some ranges.
-/

set_option relaxedAutoImplicit false
set_option autoImplicit false

namespace AttributeWire

/-- A range of code points, with its first and its last. -/
abbrev CodeRange : Type := Nat × Nat

namespace CodeRange

/-- The code point lies in the range. -/
def Contains (range : CodeRange) (code : Nat) : Prop := range.1 ≤ code ∧ code ≤ range.2

instance (range : CodeRange) (code : Nat) : Decidable (range.Contains code) :=
  inferInstanceAs (Decidable (_ ∧ _))

/-- The code point lies in one of the ranges. -/
def anyContains (ranges : Array CodeRange) (code : Nat) : Bool :=
  ranges.any fun range => range.Contains code

end CodeRange

end AttributeWire
