/-
**Durations from a number of seconds.**

A duration may be given as a floating-point number of seconds.  Its exact value is rounded to the
nearest nanosecond, a half to the even one.

Main definitions:

* `SecondsError`, `SecondsError.message` — why a number of seconds is no duration;
* `Duration.ofFloatSeconds` — the duration of a number of seconds.
-/

import AttributeWire.Binary64
import AttributeWire.Duration

set_option relaxedAutoImplicit false
set_option autoImplicit false

namespace AttributeWire

/-- Why a number of seconds is no duration. -/
inductive SecondsError where
  /-- It is below zero. -/
  | negative
  /-- It is too big, or not a number. -/
  | notRepresentable
deriving DecidableEq, Repr

/-- The text of an error. -/
def SecondsError.message : SecondsError → String
  | .negative => "cannot convert float seconds to Duration: value is negative"
  | .notRepresentable =>
      "cannot convert float seconds to Duration: value is either too big or NaN"

/-- The duration of a number of seconds. -/
def Duration.ofFloatSeconds : Binary64 → Except SecondsError Duration
  | .nan => .error .notRepresentable
  | .infinity negative => .error (if negative then .negative else .notRepresentable)
  | .finite negative significand exponent =>
      if negative ∧ significand ≠ 0 then .error .negative
      else
        let num := significand * Duration.second * Binary64.numPow 2 exponent
        match Duration.ofNanoseconds? (roundHalfEven num (Binary64.denPow 2 exponent)) with
        | some duration => .ok duration
        | none => .error .notRepresentable

end AttributeWire
