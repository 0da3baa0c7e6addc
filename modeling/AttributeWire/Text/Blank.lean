/-
**Blank characters.**

The characters with the White_Space property of the Unicode character database: the five controls
from tab to carriage return, the space, the next-line control, and the spaces and separators of
other scripts.

Main definitions:

* `Blank.isBlank` — the character is blank.
-/

set_option relaxedAutoImplicit false
set_option autoImplicit false

namespace AttributeWire

namespace Blank

/-- The character is blank. -/
def isBlank (c : Char) : Bool :=
  let n := c.toNat
  9 ≤ n && n ≤ 13 || n == 0x20 || n == 0x85 || n == 0xA0 || n == 0x1680 ||
    0x2000 ≤ n && n ≤ 0x200A || n == 0x2028 || n == 0x2029 || n == 0x202F || n == 0x205F ||
    n == 0x3000

end Blank

end AttributeWire
