/-
**Spans of time.**

A duration is a number of nanoseconds that fits into 64 bits of whole seconds.  The text in this
module is the one for diagnostics, in the largest of the units second, millisecond, microsecond and
nanosecond that the duration reaches; the text for configuration files is
`AttributeWire.Duration.Units`.

Main definitions:

* `Duration` — a span of time;
* `Duration.ofParts?`, `Duration.ofSeconds` — durations from seconds and nanoseconds;
* `Duration.text` — the text for diagnostics;
* `Decimal.fractionDigits` — the digits after the point, without trailing zeros.
-/

import AttributeWire.Decimal

set_option relaxedAutoImplicit false
set_option autoImplicit false

namespace AttributeWire

/-- The digits of `part / 10 ^ places` after the point, without trailing zeros. -/
def Decimal.fractionDigits : Nat → Nat → List Nat
  | 0, _ => []
  | places + 1, part =>
      if part = 0 then []
      else part / Nat.pow 10 places :: fractionDigits places (part % Nat.pow 10 places)

/-- Digits as text. -/
def Decimal.digitText (ds : List Nat) : String := String.ofList (ds.map Nat.digitChar)

/-- How many nanoseconds make a second. -/
abbrev Duration.second : Nat := 1000000000

/-- How many nanoseconds make a millisecond. -/
abbrev Duration.millisecond : Nat := 1000000

/-- How many nanoseconds make a microsecond. -/
abbrev Duration.microsecond : Nat := 1000

/-- A span of time. -/
structure Duration where
  /-- The whole of it in nanoseconds. -/
  nanoseconds : Nat
  /-- The whole seconds fit into 64 bits. -/
  bounded : nanoseconds < UInt64.size * Duration.second
deriving DecidableEq, Repr

namespace Duration

/-- No time. -/
def zero : Duration := ⟨0, by decide⟩

instance : Inhabited Duration := ⟨zero⟩

/-- A number of whole seconds. -/
def ofSeconds (seconds : UInt64) : Duration :=
  ⟨seconds.toNat * second, Nat.mul_lt_mul_of_pos_right seconds.toNat_lt (by decide)⟩

/-- A number of nanoseconds, if the whole seconds fit. -/
def ofNanoseconds? (nanoseconds : Nat) : Option Duration :=
  if h : nanoseconds < UInt64.size * second then some ⟨nanoseconds, h⟩ else none

/-- The whole seconds. -/
def seconds (d : Duration) : Nat := d.nanoseconds / second

/-- The nanoseconds beyond the whole seconds. -/
def subsecond (d : Duration) : Nat := d.nanoseconds % second

/-- A whole number and the digits after the point, if there are any. -/
def pointText (whole places part : Nat) : String :=
  match Decimal.fractionDigits places part with
  | [] => toString whole
  | ds => toString whole ++ "." ++ Decimal.digitText ds

/-- The text for diagnostics. -/
def text (d : Duration) : String :=
  let ns := d.nanoseconds
  if second ≤ ns then pointText (ns / second) 9 (ns % second) ++ "s"
  else if millisecond ≤ ns then pointText (ns / millisecond) 6 (ns % millisecond) ++ "ms"
  else if microsecond ≤ ns then pointText (ns / microsecond) 3 (ns % microsecond) ++ "µs"
  else pointText ns 0 0 ++ "ns"

theorem seconds_mul_add_subsecond (d : Duration) :
    d.seconds * second + d.subsecond = d.nanoseconds :=
  Nat.div_add_mod' d.nanoseconds second

theorem seconds_lt (d : Duration) : d.seconds < UInt64.size :=
  Nat.div_lt_of_lt_mul (Nat.mul_comm _ _ ▸ d.bounded)

end Duration

end AttributeWire
