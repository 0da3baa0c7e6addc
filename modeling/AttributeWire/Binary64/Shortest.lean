/-
**Shortest decimal text of a floating-point number.**

A number is shown with the fewest decimal digits that round to it again.  Everything between the
midpoints to its two neighbours rounds to the number, the midpoints themselves if its significand is
even.  For each count of digits the two decimals on either side of the number are tried; the first
count with one in that range wins, and of two the nearer.  Halfway between two it is the upper one.

Main definitions:

* `Binary64.Interval` — the ratios that round to a number;
* `Binary64.shortest` — the digits, as a natural number, and the power of ten they are multiples of;
* `Binary64.text` — the number without an exponent, and with a point.
-/

import AttributeWire.Binary64

set_option relaxedAutoImplicit false
set_option autoImplicit false

namespace AttributeWire

namespace Binary64

/-! ### What rounds to a number -/

/-- A number and the ends of what rounds to it, as multiples of `2 ^ scale`. -/
structure Interval where
  /-- The lower end. -/
  low : Nat
  /-- The number itself. -/
  middle : Nat
  /-- The upper end. -/
  high : Nat
  /-- The power of two. -/
  scale : Int
  /-- The ends round to the number too. -/
  closed : Bool

/-- The ratios that round to `significand * 2 ^ exponent`.  Below a power of two the next number is
nearer than above it. -/
def interval (significand : Nat) (exponent : Int) : Interval :=
  let below := if significand = leastNormal ∧ -1074 < exponent then 1 else 2
  ⟨4 * significand - below, 4 * significand, 4 * significand + 2, exponent - 2,
    significand % 2 = 0⟩

/-- The decimal `digits * 10 ^ power` lies in the interval. -/
def Interval.contains (i : Interval) (digits : Nat) (power : Int) : Bool :=
  let decimal := digits * numPow 10 power * denPow 2 i.scale
  let unit := numPow 2 i.scale * denPow 10 power
  if i.closed then i.low * unit ≤ decimal && decimal ≤ i.high * unit
  else i.low * unit < decimal && decimal < i.high * unit

/-! ### The fewest digits -/

/-- The decimals with this unit on either side of the number, and whether the upper is at least as
near as the lower. -/
def Interval.neighbours (i : Interval) (power : Int) : Nat × Bool :=
  let num := i.middle * numPow 2 i.scale * denPow 10 power
  let den := numPow 10 power * denPow 2 i.scale
  (num / den, den ≤ 2 * (num % den))

/-- The decimal of the unit that is in the interval, the nearer one if two are. -/
def Interval.pick? (i : Interval) (power : Int) : Option Nat :=
  let (lower, upperNearer) := i.neighbours power
  match i.contains lower power, i.contains (lower + 1) power with
  | true, true => some (if upperNearer then lower + 1 else lower)
  | true, false => some lower
  | false, true => some (lower + 1)
  | false, false => none

/-- The number of digits before the point of a number: the least power of ten above it. -/
def Interval.magnitude (i : Interval) : Int :=
  let low := (floorLog2 (i.middle * numPow 2 i.scale) (denPow 2 i.scale)) * 30103 / 100000
  let above := fun (power : Int) =>
    i.middle * numPow 2 i.scale * denPow 10 power < numPow 10 power * denPow 2 i.scale
  if above low then low else if above (low + 1) then low + 1 else low + 2

/-- The first power of ten, from `power` down, with a decimal in the interval. -/
def Interval.search (i : Interval) : Nat → Int → Nat × Int
  | 0, power => ((i.neighbours power).1, power)
  | fuel + 1, power =>
      match i.pick? power with
      | some digits => (digits, power)
      | none => i.search fuel (power - 1)

/-- The fewest digits that round to a positive number, and the power of ten they are multiples of.
The least power of ten above the number may be in the interval itself, and from there on seventeen
digits always suffice. -/
def shortest (significand : Nat) (exponent : Int) : Nat × Int :=
  let i := interval significand exponent
  i.search 18 i.magnitude

/-! ### Text -/

/-- The text of `digits * 10 ^ power`, with a point and at least one digit on either side. -/
def decimalText (digits : Nat) (power : Int) : String :=
  let ds := Nat.toDigits 10 digits
  if 0 ≤ power then String.ofList (ds ++ List.replicate power.toNat '0') ++ ".0"
  else
    let places := (-power).toNat
    let padded := List.replicate (places + 1 - ds.length) '0' ++ ds
    String.ofList (padded.take (padded.length - places)) ++ "."
      ++ String.ofList (padded.drop (padded.length - places))

/-- The text of a number, in full and without an exponent. -/
def text : Binary64 → String
  | nan => "NaN"
  | infinity negative => if negative then "-inf" else "inf"
  | finite negative significand exponent =>
      let sign := if negative then "-" else ""
      if significand = 0 then sign ++ "0.0"
      else
        let (digits, power) := shortest significand exponent
        sign ++ decimalText digits power

end Binary64

end AttributeWire
