/-
**Durations in words.**

Configuration files give a duration as a sequence of numbers with units, all added up: `1h 30m` or
`1.5s`.  A number may have a fraction if that makes whole nanoseconds, or whole seconds for the
units from the hour up.  Blanks may stand nearly everywhere, even inside a number.  A duration is
written with each unit at most once, the largest first; a month and a year are a twelfth and the
whole of 365.25 days, and so have no whole number of days.

Reading goes one character at a time, since errors name the position of the character at which they
were noticed, counted in bytes.

Main definitions:

* `TimeUnit`, `TimeUnit.scale`, `TimeUnit.ofName?` — the units, their lengths and their names;
* `DurationError`, `DurationError.message` — why a text is no duration;
* `Duration.Reading` — where a reader stands between two characters;
* `Duration.ofWords`, `Duration.words` — the duration of a text, and the text of a duration.
-/

import AttributeWire.Duration
import AttributeWire.Text.Blank

set_option relaxedAutoImplicit false
set_option autoImplicit false

namespace AttributeWire

/-! ### Units -/

/-- A unit of time. -/
inductive TimeUnit where
  | nanosecond
  | microsecond
  | millisecond
  | second
  | minute
  | hour
  | day
  | week
  | month
  | year
deriving DecidableEq, Repr

/-- A length of time as a number of nanoseconds or of seconds. -/
inductive Scale where
  /-- So many nanoseconds. -/
  | nanoseconds (count : Nat)
  /-- So many seconds. -/
  | seconds (count : Nat)
deriving DecidableEq, Repr

namespace TimeUnit

/-- The length of a unit. -/
def scale : TimeUnit → Scale
  | nanosecond => .nanoseconds 1
  | microsecond => .nanoseconds 1000
  | millisecond => .nanoseconds 1000000
  | second => .seconds 1
  | minute => .seconds 60
  | hour => .seconds 3600
  | day => .seconds 86400
  | week => .seconds 604800
  | month => .seconds 2630016
  | year => .seconds 31557600

/-- The length in which a fraction of a unit has to come out even.  A nanosecond has no
fractions. -/
def fractionScale : TimeUnit → Option Scale
  | nanosecond => none
  | microsecond => some (.nanoseconds 1000)
  | millisecond => some (.nanoseconds 1000000)
  | second => some (.nanoseconds 1000000000)
  | minute => some (.nanoseconds 60000000000)
  | unit => some unit.scale

/-- The names of a unit. -/
def names : List (TimeUnit × List String) :=
  [(nanosecond, ["nanos", "nsec", "ns"]), (microsecond, ["usec", "us", "µs"]),
    (millisecond, ["millis", "msec", "ms"]),
    (second, ["seconds", "second", "secs", "sec", "s"]),
    (minute, ["minutes", "minute", "min", "mins", "m"]),
    (hour, ["hours", "hour", "hr", "hrs", "h"]), (day, ["days", "day", "d"]),
    (week, ["weeks", "week", "wk", "wks", "w"]), (month, ["months", "month", "M"]),
    (year, ["years", "year", "yr", "yrs", "y"])]

/-- The unit of a name. -/
def ofName? (name : String) : Option TimeUnit :=
  (names.find? fun entry => entry.2.contains name).map Prod.fst

end TimeUnit

/-! ### Errors -/

/-- Why a text is no duration. -/
inductive DurationError where
  /-- There is nothing but blanks. -/
  | empty
  /-- Something else stands where a number is expected, from this position on. -/
  | numberExpected (offset : Nat)
  /-- A character that has no place there, noticed at this position. -/
  | invalidCharacter (offset : Nat)
  /-- A number has no unit. -/
  | missingUnit (number : Nat)
  /-- No unit has this name. -/
  | unknownUnit (name : String)
  /-- A number or the sum is too large, or a fraction does not come out even. -/
  | overflow
deriving DecidableEq, Repr

/-- The text of an error. -/
def DurationError.message : DurationError → String
  | .empty => "value was empty"
  | .numberExpected offset => s!"expected number at {offset}"
  | .invalidCharacter offset => s!"invalid character at {offset}"
  | .missingUnit number => s!"time unit needed, for example {number}sec or {number}ms"
  | .unknownUnit name =>
      "unknown time unit \"" ++ name ++ "\", supported units: ns, us/µs, ms, sec, min, hours, "
        ++ "days, weeks, months, years (and few variations)"
  | .overflow =>
      "number is too large or cannot be represented without a lack of precision "
        ++ "(values below 1ns are not supported)"

namespace Duration

/-! ### Adding up -/

/-- A number of 64 bits, if it is one. -/
def word? (n : Nat) : Except DurationError Nat :=
  if n < UInt64.size then .ok n else .error .overflow

/-- A sum of nanoseconds, if it is a duration. -/
def ofSum (nanoseconds : Nat) : Except DurationError Duration :=
  match ofNanoseconds? nanoseconds with
  | some d => .ok d
  | none => .error .overflow

/-- The duration later by `count` units of a length.  The nanoseconds are added to those beyond the
whole seconds, and must not exceed 64 bits with them. -/
def addScaled (d : Duration) (count : Nat) : Scale → Except DurationError Duration
  | .nanoseconds size =>
      if UInt64.size ≤ d.subsecond + count * size then .error .overflow
      else ofSum (d.nanoseconds + count * size)
  | .seconds size => ofSum (d.nanoseconds + count * size * second)

/-- A fraction `numerator / denominator`, whose denominator is a power of ten. -/
structure Fraction where
  /-- The digits after the point. -/
  numerator : Nat
  /-- The power of ten with as many zeros as there are digits. -/
  denominator : Nat
deriving DecidableEq, Repr

/-- The duration later by a fraction of a unit, if that comes out even. -/
def addFraction (d : Duration) (fraction : Fraction) (unit : TimeUnit) :
    Except DurationError Duration :=
  match unit.fractionScale with
  | none => .error .overflow
  | some (.nanoseconds size) =>
      if UInt64.size ≤ fraction.numerator * size then .error .overflow
      else if fraction.numerator * size % fraction.denominator ≠ 0 then .error .overflow
      else d.addScaled (fraction.numerator * size / fraction.denominator) (.nanoseconds 1)
  | some (.seconds size) =>
      if UInt64.size ≤ fraction.numerator * size then .error .overflow
      else if fraction.numerator * size % fraction.denominator ≠ 0 then .error .overflow
      else d.addScaled (fraction.numerator * size / fraction.denominator) (.seconds 1)

/-- The duration later by a number, with or without a fraction, of the unit of a name. -/
def addNamed (d : Duration) (number : Nat) (fraction : Option Fraction) (name : List Char) :
    Except DurationError Duration :=
  if name = [] then .error (.missingUnit number)
  else match TimeUnit.ofName? (String.ofList name) with
    | none => .error (.unknownUnit (String.ofList name))
    | some unit =>
        match d.addScaled number unit.scale, fraction with
        | .error e, _ => .error e
        | .ok d, none => .ok d
        | .ok d, some fraction => d.addFraction fraction unit

/-! ### Reading -/

/-- What the next character belongs to. -/
inductive Phase where
  /-- A number is expected; `start` is the position where it may begin, and `first` says that there
  was none before. -/
  | expecting (start : Nat) (first : Bool)
  /-- A number. -/
  | number (value : Nat)
  /-- The fraction of a number; `noticed` is the position an error would name. -/
  | fraction (value : Nat) (fraction : Fraction) (noticed : Nat)
  /-- The name of a unit, of which some characters have been read. -/
  | unit (value : Nat) (fraction : Option Fraction) (name : List Char)
deriving DecidableEq, Repr

/-- Where a reader stands between two characters. -/
structure Reading where
  /-- The sum so far. -/
  sum : Duration
  /-- What comes next. -/
  phase : Phase
deriving DecidableEq, Repr

/-- The value of an ASCII digit. -/
def digit? (c : Char) : Option Nat := if c.isDigit then some (c.toNat - 48) else none

/-- A character that may stand in the name of a unit. -/
def isUnitChar (c : Char) : Bool := c.isAlpha || c == 'µ'

/-- One more digit in the fraction. -/
def Fraction.push (f : Fraction) (digit : Nat) : Except DurationError Fraction :=
  match word? (f.denominator * 10), word? (f.numerator * 10 + digit) with
  | .ok denominator, .ok numerator => .ok ⟨numerator, denominator⟩
  | _, _ => .error .overflow

/-- Reads the character at a position. -/
def Reading.step (r : Reading) (offset : Nat) (c : Char) : Except DurationError Reading :=
  match r.phase with
  | .expecting start first =>
      match digit? c with
      | some digit => .ok ⟨r.sum, .number digit⟩
      | none =>
          if Blank.isBlank c then .ok ⟨r.sum, .expecting start first⟩
          else .error (.numberExpected start)
  | .number value =>
      match digit? c with
      | some digit => (word? (value * 10 + digit)).map fun value => ⟨r.sum, .number value⟩
      | none =>
          if Blank.isBlank c then .ok r
          else if isUnitChar c then .ok ⟨r.sum, .unit value none [c]⟩
          else if c = '.' then .ok ⟨r.sum, .fraction value ⟨0, 1⟩ offset⟩
          else .error (.invalidCharacter offset)
  | .fraction value fraction noticed =>
      match digit? c with
      | some digit =>
          (fraction.push digit).map fun fraction =>
            ⟨r.sum, .fraction value fraction (offset + c.utf8Size)⟩
      | none =>
          if Blank.isBlank c then .ok ⟨r.sum, .fraction value fraction (offset + c.utf8Size)⟩
          else if isUnitChar c ∧ fraction.denominator ≠ 1 then
            .ok ⟨r.sum, .unit value (some fraction) [c]⟩
          else .error (.invalidCharacter noticed)
  | .unit value fraction name =>
      match digit? c with
      | some digit =>
          (r.sum.addNamed value fraction name).map fun sum => ⟨sum, .number digit⟩
      | none =>
          if Blank.isBlank c then
            (r.sum.addNamed value fraction name).map fun sum =>
              ⟨sum, .expecting (offset + c.utf8Size) false⟩
          else if isUnitChar c then .ok ⟨r.sum, .unit value fraction (name ++ [c])⟩
          else .error (.invalidCharacter offset)

/-- What was read, once there are no more characters. -/
def Reading.finish (r : Reading) : Except DurationError Duration :=
  match r.phase with
  | .expecting _ first => if first then .error .empty else .ok r.sum
  | .number value => .error (.missingUnit value)
  | .fraction value fraction noticed =>
      if fraction.denominator = 1 then .error (.invalidCharacter noticed)
      else .error (.missingUnit value)
  | .unit value fraction name => r.sum.addNamed value fraction name

/-- Reads the characters from a position on. -/
def Reading.run (r : Reading) (offset : Nat) : List Char → Except DurationError Duration
  | [] => r.finish
  | c :: rest =>
      match r.step offset c with
      | .ok r => r.run (offset + c.utf8Size) rest
      | .error e => .error e

/-- The duration of a text.  A lone zero needs no unit. -/
def ofWords (text : List Char) : Except DurationError Duration :=
  if text = ['0'] then .ok zero else Reading.run ⟨zero, .expecting 0 true⟩ 0 text

/-! ### Writing -/

/-- A number with the name of a unit, in the plural unless the number is one. -/
def pluralPart (number : Nat) (name : String) : String :=
  toString number ++ name ++ (if number = 1 then "" else "s")

/-- The parts of a duration with their units, those that are zero left out. -/
def parts (d : Duration) : List String :=
  let inYear := d.seconds % 31557600
  let inMonth := inYear % 2630016
  let inDay := inMonth % 86400
  let plural := [(d.seconds / 31557600, "year"), (inYear / 2630016, "month"),
    (inMonth / 86400, "day")]
  let plain := [(inDay / 3600, "h"), (inDay % 3600 / 60, "m"), (inDay % 60, "s"),
    (d.subsecond / 1000000, "ms"), (d.subsecond / 1000 % 1000, "us"), (d.subsecond % 1000, "ns")]
  (plural.filter fun part => part.1 ≠ 0).map (fun part => pluralPart part.1 part.2) ++
    (plain.filter fun part => part.1 ≠ 0).map fun part => toString part.1 ++ part.2

/-- The text of a duration. -/
def words (d : Duration) : String :=
  if d = zero then "0s" else " ".intercalate d.parts

end Duration

end AttributeWire
