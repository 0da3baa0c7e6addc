/-
**Hexadecimal digits.**

Escapes in several formats give a character by its code point in base sixteen, with digits of either
case.

Main definitions:

* `Hexadecimal.digit?` — the value of a digit;
* `Hexadecimal.char?` — the character with a code point.
-/

set_option relaxedAutoImplicit false
set_option autoImplicit false

namespace AttributeWire

namespace Hexadecimal

/-- The value of a digit. -/
def digit? (c : Char) : Option Nat :=
  if c.isDigit then some (c.toNat - 48)
  else if 'a' ≤ c ∧ c ≤ 'f' then some (c.toNat - 87)
  else if 'A' ≤ c ∧ c ≤ 'F' then some (c.toNat - 55)
  else none

/-- The character with a code point, if it is a scalar value. -/
def char? (code : Nat) : Option Char :=
  if code < 0xD800 ∨ (0xDFFF < code ∧ code < 0x110000) then some (Char.ofNat code) else none

end Hexadecimal

end AttributeWire
