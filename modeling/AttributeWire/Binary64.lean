/-
**Binary floating-point numbers of 64 bits.**

A number is kept by its exact value, a natural number times a power of two, together with its sign;
the operations work on exact ratios and round once, to the nearest number and in a tie to the one
with the even significand.  Significands have at most 53 bits, and exponents go down to -1074.

Main definitions:

* `roundHalfEven` — the quotient of two natural numbers, rounded;
* `Binary64` — a number, an infinity, or not a number;
* `Binary64.ofRatio` — the nearest number to a ratio;
* `Binary64.ofDecimal` — the nearest number to a decimal numeral;
* `Binary64.mul`, `Binary64.div` — the rounded product and quotient.
-/

set_option relaxedAutoImplicit false
set_option autoImplicit false

namespace AttributeWire

/-- The quotient rounded to the nearest natural number, a half to the even neighbour. -/
def roundHalfEven (num den : Nat) : Nat :=
  let q := num / den
  let twice := 2 * (num % den)
  if twice < den then q
  else if den < twice then q + 1
  else if q % 2 = 0 then q
  else q + 1

/-- A number, an infinity, or not a number. -/
inductive Binary64 where
  /-- Not a number. -/
  | nan
  /-- An infinity. -/
  | infinity (negative : Bool)
  /-- The number `significand * 2 ^ exponent`, negated if `negative`. -/
  | finite (negative : Bool) (significand : Nat) (exponent : Int)
deriving DecidableEq, Repr

namespace Binary64

/-- A power as the numerator of a ratio, if the exponent is not negative. -/
def numPow (base : Nat) (exponent : Int) : Nat := Nat.pow base exponent.toNat

/-- A power as the denominator of a ratio, if the exponent is negative. -/
def denPow (base : Nat) (exponent : Int) : Nat := Nat.pow base (-exponent).toNat

/-- The exponent of the largest power of two that is at most the ratio. -/
def floorLog2 (num den : Nat) : Int :=
  let d : Int := (Nat.log2 num : Int) - (Nat.log2 den : Int)
  if den * numPow 2 d ≤ num * denPow 2 d then d else d - 1

/-- The least significand of a number that is not kept with less than full precision, 2^52. -/
def leastNormal : Nat := 4503599627370496

/-- The number with a sign and a significand of up to 2^53, as it is kept. -/
def ofRounded (negative : Bool) (significand : Nat) (exponent : Int) : Binary64 :=
  let (significand, exponent) :=
    if significand = 2 * leastNormal then (leastNormal, exponent + 1) else (significand, exponent)
  if 971 < exponent then infinity negative else finite negative significand exponent

/-- The nearest number to a ratio. -/
def ofRatio (negative : Bool) (num den : Nat) : Binary64 :=
  if num = 0 then finite negative 0 (-1074)
  else
    let exponent := max (floorLog2 num den - 52) (-1074)
    ofRounded negative (roundHalfEven (num * denPow 2 exponent) (den * numPow 2 exponent)) exponent

/-- The number of decimal digits of a natural number. -/
def decimalLength (n : Nat) : Nat := (Nat.toDigits 10 n).length

/-- The nearest number to `significand * 10 ^ exponent`.  Numerals far out of range are decided by
their number of digits alone. -/
def ofDecimal (negative : Bool) (significand : Nat) (exponent : Int) : Binary64 :=
  let magnitude := (decimalLength significand : Int) + exponent
  if significand = 0 ∨ magnitude < -330 then finite negative 0 (-1074)
  else if 310 < magnitude then infinity negative
  else ofRatio negative (significand * numPow 10 exponent) (denPow 10 exponent)

/-- The nearest number to a natural number. -/
def ofNat (n : Nat) : Binary64 := ofRatio false n 1

/-- The number with the other sign. -/
def neg : Binary64 → Binary64
  | nan => nan
  | infinity negative => infinity (!negative)
  | finite negative significand exponent => finite (!negative) significand exponent

/-- The product of two finite numbers, rounded. -/
def mul : Binary64 → Binary64 → Binary64
  | finite s m e, finite t n f =>
      ofRatio (s != t) (m * n * numPow 2 (e + f)) (denPow 2 (e + f))
  | infinity s, finite t _ _ => infinity (s != t)
  | finite s _ _, infinity t => infinity (s != t)
  | infinity s, infinity t => infinity (s != t)
  | _, _ => nan

/-- The quotient of two finite numbers, of which the second is not zero, rounded. -/
def div : Binary64 → Binary64 → Binary64
  | finite s m e, finite t n f =>
      ofRatio (s != t) (m * numPow 2 (e - f)) (n * denPow 2 (e - f))
  | infinity s, finite t _ _ => infinity (s != t)
  | finite s _ _, infinity t => finite (s != t) 0 (-1074)
  | _, _ => nan

/-- The number is finite. -/
def isFinite : Binary64 → Bool
  | finite .. => true
  | _ => false

end Binary64

end AttributeWire
