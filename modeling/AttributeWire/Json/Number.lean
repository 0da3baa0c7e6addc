/-
**Numbers in JSON.**

A numeral without fraction and exponent that fits into 64 bits is an integer and exact.  Every other
numeral is a floating-point number, computed in the fast way: its leading digits, as many as fit
into 64 bits, are rounded to a floating-point number, and that is multiplied or divided once by a
rounded power of ten.  The result may differ from the nearest number in the last bit.  A numeral
beyond the largest number is out of range.

Main definitions:

* `Json.Numeral`, `Json.Numeral.ofChars?` — a numeral taken apart;
* `Json.Number`, `Json.Numeral.value?` — the number it stands for, if it is in range.
-/

import AttributeWire.Binary64
import AttributeWire.Decimal

set_option relaxedAutoImplicit false
set_option autoImplicit false

namespace AttributeWire

namespace Json

/-! ### Numerals -/

/-- A numeral taken apart. -/
structure Numeral where
  /-- There is a minus sign in front. -/
  negative : Bool
  /-- The digits before the point. -/
  whole : List Nat
  /-- The digits after the point. -/
  fraction : List Nat
  /-- Whether the exponent is negative, and its digits. -/
  exponent : Option (Bool × List Nat)
deriving DecidableEq, Repr

/-- The digits at the beginning of a text, and what follows them. -/
def spanDigits : List Char → List Nat × List Char
  | [] => ([], [])
  | c :: rest =>
      if c.isDigit then
        let (digits, rest) := spanDigits rest
        ((c.toNat - 48) :: digits, rest)
      else ([], c :: rest)

/-- An exponent, up to the end of the numeral. -/
def exponentOf? : List Char → Option (Option (Bool × List Nat))
  | [] => some none
  | e :: rest =>
      let (negative, rest) := match rest with
        | '-' :: rest => (true, rest)
        | '+' :: rest => (false, rest)
        | rest => (false, rest)
      match spanDigits rest with
      | ([], _) => none
      | (digits, []) => if e = 'e' ∨ e = 'E' then some (some (negative, digits)) else none
      | _ => none

/-- A numeral after its sign. -/
def Numeral.unsigned? (negative : Bool) (text : List Char) : Option Numeral :=
  match spanDigits text with
  | ([], _) => none
  | (0 :: _ :: _, _) => none
  | (whole, '.' :: rest) =>
      match spanDigits rest with
      | ([], _) => none
      | (fraction, rest) => (exponentOf? rest).map fun e => ⟨negative, whole, fraction, e⟩
  | (whole, rest) => (exponentOf? rest).map fun e => ⟨negative, whole, [], e⟩

/-- The numeral a text is: digits without a leading zero, possibly with a sign, a fraction and an
exponent. -/
def Numeral.ofChars? : List Char → Option Numeral
  | '-' :: rest => unsigned? true rest
  | text => unsigned? false text

/-! ### Numbers -/

/-- The number a numeral stands for. -/
inductive Number where
  /-- An integer below 2^64. -/
  | natural (n : UInt64)
  /-- A negative integer from -2^63 on; its absolute value is given. -/
  | negative (n : Nat)
  /-- Any other number. -/
  | real (value : Binary64)
deriving DecidableEq, Repr

/-- Takes on digits as long as the number fits into 64 bits.  The digits that are left come
second. -/
def absorb (significand : Nat) : List Nat → Nat × List Nat
  | [] => (significand, [])
  | d :: ds =>
      if significand * 10 + d < UInt64.size then absorb (significand * 10 + d) ds
      else (significand, d :: ds)

/-- A power of ten as a floating-point number. -/
def tenTo (power : Nat) : Binary64 := .ofDecimal false 1 power

/-- The number is zero. -/
def isZero : Binary64 → Bool
  | .finite _ 0 _ => true
  | _ => false

/-- Divides by a power of ten, in steps of at most the largest one there is. -/
def divideByTen (value : Binary64) (power : Nat) : Binary64 :=
  if power ≤ 308 then value.div (tenTo power)
  else if isZero value then value
  else divideByTen (value.div (tenTo 308)) (power - 308)
termination_by power

/-- The number `significand * 10 ^ exponent`, unless it is out of range. -/
def realOf? (negative : Bool) (significand : Nat) (exponent : Int) : Option Binary64 :=
  let value := Binary64.ofNat significand
  let scaled :=
    if isZero value then some value
    else if 308 < exponent then none
    else if 0 ≤ exponent then
      let product := value.mul (tenTo exponent.toNat)
      if product.isFinite then some product else none
    else some (divideByTen value (-exponent).toNat)
  scaled.map fun value => if negative then value.neg else value

/-- The number of an integer numeral whose digits all fit into 64 bits. -/
def integerOf (negative : Bool) (n : Nat) : Number :=
  if !negative then .natural (UInt64.ofNat n)
  -- minus zero and what is below the least integer are kept as floating-point numbers
  else if n = 0 ∨ UInt64.size / 2 < n then .real (Binary64.ofNat n).neg
  else .negative n

/-- The number a numeral stands for, unless it is out of range. -/
def Numeral.value? (numeral : Numeral) : Option Number :=
  let (significand, dropped) := absorb 0 numeral.whole
  match numeral.fraction, numeral.exponent, dropped with
  | [], none, [] => some (integerOf numeral.negative significand)
  | fraction, exponent, _ =>
      let (significand, unused) := absorb significand fraction
      let power := (dropped.length : Int) - (fraction.length - unused.length : Nat)
      match exponent with
      | none => (realOf? numeral.negative significand power).map .real
      | some (down, digits) =>
          let e := Decimal.value digits
          -- an exponent of this size is not added up, but decides by its sign
          if UInt32.size / 2 ≤ e then
            if significand ≠ 0 ∧ !down then none
            else some (.real (.finite numeral.negative 0 (-1074)))
          else
            (realOf? numeral.negative significand (if down then power - e else power + e)).map .real

end Json

end AttributeWire
