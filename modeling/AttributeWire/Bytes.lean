/-
**Byte strings.**

Names, values and everything that travels on the wire are byte strings, with no promise that they
are text.  They are lists, so that a codec recurses on its input and a property of all byte strings
is an induction.

Main definitions:

* `Bytes` — a byte string;
* `Bytes.ofText` — the UTF-8 form of a text.
-/

set_option relaxedAutoImplicit false
set_option autoImplicit false

namespace AttributeWire

/-- A byte string. -/
abbrev Bytes : Type := List UInt8

namespace Bytes

/-- The UTF-8 form of a text. -/
def ofText (text : String) : Bytes := text.toByteArray.data.toList

/-- The colon, which ends the name of an attribute. -/
abbrev colon : UInt8 := 58

/-- The newline, which ends an attribute and, on an empty line, a list of attributes. -/
abbrev newline : UInt8 := 10

theorem colon_ne_newline : colon ≠ newline := by decide

@[simp] theorem ofText_empty : ofText "" = [] := rfl

end Bytes

end AttributeWire
