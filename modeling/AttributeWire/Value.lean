/-
**Typed values.**

The value of an attribute is a byte string on the wire.  Those who write and read it give it one of
three kinds: a number of 32 bits, a number of 64 bits, both in decimal, or any byte string.

Main definitions:

* `Value` — a value of one of the kinds;
* `Value.text` — the byte string that stands for it;
* `Value.read?` — the value of the same kind that a byte string stands for.

Main results:

* `Value.read?_text` — what is written for a value is read back as that value.
-/

import AttributeWire.Decimal

set_option relaxedAutoImplicit false
set_option autoImplicit false

namespace AttributeWire

/-- A value of one of three kinds. -/
inductive Value where
  /-- A number below 2^32. -/
  | uint (number : UInt32)
  /-- A number below 2^64. -/
  | ulong (number : UInt64)
  /-- Any byte string. -/
  | str (bytes : Bytes)
deriving DecidableEq, Repr

namespace Value

/-- The word for the kind of a value in messages. -/
def kindText : Value → String
  | uint _ => "number"
  | ulong _ => "number"
  | str _ => "string"

/-- The byte string that stands for a value. -/
def text : Value → Bytes
  | uint number => Decimal.encode number.toNat
  | ulong number => Decimal.encode number.toNat
  | str bytes => bytes

/-- The value of the same kind that a byte string stands for. -/
def read? : Value → Bytes → Option Value
  | uint _, bytes =>
      match Decimal.uint32? bytes with
      | some number => some (uint number)
      | none => none
  | ulong _, bytes =>
      match Decimal.uint64? bytes with
      | some number => some (ulong number)
      | none => none
  | str _, bytes => some (str bytes)

/-- The two values have one kind. -/
def SameKind : Value → Value → Prop
  | uint _, uint _ => True
  | ulong _, ulong _ => True
  | str _, str _ => True
  | _, _ => False

/-- **What is written for a value is read back as that value.** -/
theorem read?_text {held value : Value} (h : held.SameKind value) :
    held.read? value.text = some value := by
  cases held <;> cases value <;> simp_all [SameKind, read?, text]

end Value

end AttributeWire
