/-
**Quoted text in messages.**

A text that is quoted in a message stands between quotation marks, with the mark itself, the
backslash and whatever does not print written as an escape: a letter for the commonest control
characters, and the hexadecimal code point in braces for the rest.

Main definitions:

* `Quoted.escape` — a character as it stands between the given marks;
* `Quoted.char`, `Quoted.string` — a quoted character, and a quoted text.
-/

import AttributeWire.Text.Printable

set_option relaxedAutoImplicit false
set_option autoImplicit false

namespace AttributeWire

namespace Quoted

/-- A character as it stands between two marks. -/
def escape (mark : Char) (c : Char) : List Char :=
  if c = mark ∨ c = '\\' then ['\\', c]
  else if c = '\n' then ['\\', 'n']
  else if c = '\r' then ['\\', 'r']
  else if c = '\t' then ['\\', 't']
  else if c = '\x00' then ['\\', '0']
  else if Printable.isPrintable c then [c]
  else ['\\', 'u', '\x7b'] ++ Nat.toDigits 16 c.toNat ++ ['\x7d']

/-- A character in single quotation marks. -/
def char (c : Char) : String := String.ofList ('\'' :: escape '\'' c ++ ['\''])

/-- A text in double quotation marks. -/
def string (text : List Char) : String :=
  String.ofList ('"' :: text.flatMap (escape '"') ++ ['"'])

end Quoted

end AttributeWire
