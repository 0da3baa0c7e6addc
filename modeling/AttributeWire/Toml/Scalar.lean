/-
**Scalars of TOML.**

What stands unquoted where a value is expected is a truth value, an integer, a floating-point
number, or a date, a time or both.  Underscores may stand between digits, and a decimal numeral has
no leading zeros.  Some texts have the form of an integer without being a number, such as the mark
of a base without digits.  A date has to exist in the calendar, and the sixtieth second is allowed.

Main definitions:

* `Toml.Scalar` — an unquoted value, or a string;
* `Toml.integer?`, `Toml.float?`, `Toml.isDateTime` — the kinds of unquoted value;
* `Toml.scalar?` — the value of an unquoted text.
-/

import AttributeWire.Binary64
import AttributeWire.Decimal
import AttributeWire.Toml.Token

set_option relaxedAutoImplicit false
set_option autoImplicit false

namespace AttributeWire

namespace Toml

/-- A value without parts. -/
inductive Scalar where
  | string (chars : List Char)
  | boolean (value : Bool)
  | integer (value : Int)
  /-- A text in the form of an integer that is no number. -/
  | noInteger
  | float (value : Binary64)
  /-- A numeral beyond the largest floating-point number. -/
  | hugeFloat
  /-- A date, a time, or both. -/
  | dateTime
deriving DecidableEq, Repr

/-! ### Numerals -/

/-- A text cut before its first character of a kind. -/
def cutBefore (p : Char → Bool) (text : List Char) : List Char × List Char :=
  text.span fun c => !p c

/-- Whether a text starts with a minus, and what follows its sign, if it has one. -/
def splitSign : List Char → Bool × List Char
  | '-' :: rest => (true, rest)
  | '+' :: rest => (false, rest)
  | text => (false, text)

/-- A text without its underscores, of which each has a digit on either side.  `afterDigit` says
that the character before the text is a digit. -/
def joinedFrom? (isDigit : Char → Bool) (afterDigit : Bool) : List Char → Option (List Char)
  | [] => some []
  | c :: rest =>
      if c = '_' then
        if afterDigit && (rest.head?.map isDigit).getD false then joinedFrom? isDigit false rest
        else none
      else (joinedFrom? isDigit (isDigit c) rest).map (c :: ·)

/-- A text without its underscores, of which each has a digit on either side. -/
def joined? (isDigit : Char → Bool) (text : List Char) : Option (List Char) :=
  joinedFrom? isDigit false text

/-- The digits that the characters of a text are in a base. -/
def digits? (base : Nat) (text : List Char) : Option (List Nat) :=
  match text.mapM Hexadecimal.digit? with
  | some digits => if digits.all (· < base) then some digits else none
  | none => none

/-- The digits of a text in base ten, at least one. -/
def someDigits? (text : List Char) : Option (List Nat) :=
  if text = [] then none else digits? 10 text

/-- The number that digits in a base stand for. -/
def valueIn (base : Nat) (digits : List Nat) : Nat := digits.foldl (fun n d => n * base + d) 0

/-- A natural number with a sign. -/
def signed (negative : Bool) (n : Nat) : Int := if negative then -(n : Int) else n

/-! ### Integers -/

/-- A digit of some base. -/
def isAnyDigit (c : Char) : Bool := (Hexadecimal.digit? c).isSome

/-- An integer after the mark of its base.  Without digits it is no number. -/
def basedInteger? (base : Nat) (text : List Char) : Option Scalar :=
  match joined? isAnyDigit text with
  | none => none
  | some plain =>
      (digits? base plain).map fun digits =>
        if digits = [] then .noInteger else .integer (valueIn base digits)

/-- An integer in base ten.  An underscore gives the text the form of an integer whatever follows,
as long as it is not that of a floating-point number, and underscores are put between digits of any
base. -/
def decimalInteger? (text : List Char) : Option Scalar :=
  let (negative, rest) := splitSign text
  let (_, more) := cutBefore (fun c => !c.isDigit) rest
  if more ≠ [] ∧ more.head? ≠ some '_' then none
  else if more.any ['.', 'e', 'E'].contains then none
  else if rest.head? = some '0' ∧ 1 < rest.length then none
  else
    match joined? isAnyDigit rest with
    | none => none
    | some [] => none
    | some plain =>
        match digits? 10 plain with
        | some digits => some (.integer (signed negative (valueIn 10 digits)))
        | none => some .noInteger

/-- An integer; a base other than ten has a mark of its own and no sign. -/
def integer? (text : List Char) : Option Scalar :=
  match text with
  | '0' :: 'x' :: rest => basedInteger? 16 rest
  | '0' :: 'o' :: rest => basedInteger? 8 rest
  | '0' :: 'b' :: rest => basedInteger? 2 rest
  | text => decimalInteger? text

/-! ### Floating-point numbers -/

/-- An exponent with its mark, up to the end of the text. -/
def exponent? : List Char → Option Int
  | [] => some 0
  | _ :: rest =>
      let (negative, rest) := splitSign rest
      (someDigits? rest).map fun digits => signed negative (valueIn 10 digits)

/-- A fraction with its point, if there is one. -/
def fraction? : List Char → Option (List Nat)
  | [] => some []
  | _ :: rest => someDigits? rest

/-- A floating-point number without underscores, which has a fraction, an exponent, or both. -/
def plainFloat? (negative : Bool) (text : List Char) : Option Scalar :=
  let (mantissa, exponent) := cutBefore (fun c => c == 'e' || c == 'E') text
  let (whole, fraction) := cutBefore (· == '.') mantissa
  if fraction = [] ∧ exponent = [] then none
  else
    match someDigits? whole, fraction? fraction, exponent? exponent with
    | some ws, some fs, some e =>
        let value := Binary64.ofDecimal negative (valueIn 10 (ws ++ fs)) (e - fs.length)
        some (if value.isFinite then .float value else .hugeFloat)
    | _, _, _ => none

/-- There is a zero in front of other digits. -/
def hasLeadingZero : List Char → Bool
  | '0' :: c :: _ => c.isDigit || c == '_'
  | _ => false

/-- A floating-point number, or an infinity, or not a number. -/
def float? (text : List Char) : Option Scalar :=
  let (negative, rest) := splitSign text
  if rest = ['i', 'n', 'f'] then some (.float (.infinity negative))
  else if rest = ['n', 'a', 'n'] then some (.float .nan)
  else if hasLeadingZero rest then none
  else
    match joined? Char.isDigit rest with
    | some plain => plainFloat? negative plain
    | none => none

/-! ### Dates and times -/

/-- A number of exactly so many digits, and what follows it. -/
def fixed? : Nat → List Char → Option (Nat × List Char)
  | 0, text => some (0, text)
  | places + 1, c :: rest =>
      if c.isDigit then
        (fixed? places rest).map fun r => ((c.toNat - 48) * Nat.pow 10 places + r.1, r.2)
      else none
  | _ + 1, [] => none

/-- The number of days in a month. -/
def daysIn (year month : Nat) : Nat :=
  if month = 2 then if year % 4 = 0 ∧ (year % 100 ≠ 0 ∨ year % 400 = 0) then 29 else 28
  else if month = 4 ∨ month = 6 ∨ month = 9 ∨ month = 11 then 30
  else 31

/-- A date of the calendar, and what follows it. -/
def date? (text : List Char) : Option (List Char) :=
  match fixed? 4 text with
  | some (year, '-' :: rest) =>
      match fixed? 2 rest with
      | some (month, '-' :: rest) =>
          match fixed? 2 rest with
          | some (day, rest) =>
              if 1 ≤ month ∧ month ≤ 12 ∧ 1 ≤ day ∧ day ≤ daysIn year month then some rest
              else none
          | none => none
      | _ => none
  | _ => none

/-- Seconds with their fraction, if they are given, and what follows them. -/
def seconds? : List Char → Option (List Char)
  | ':' :: rest =>
      match fixed? 2 rest with
      | some (second, rest) =>
          if 60 < second then none
          else
            match rest with
            | '.' :: fraction =>
                let (digits, rest) := cutBefore (fun c => !c.isDigit) fraction
                if digits = [] then none else some rest
            | rest => some rest
      | none => none
  | text => some text

/-- A time of day, and what follows it. -/
def time? (text : List Char) : Option (List Char) :=
  match fixed? 2 text with
  | some (hour, ':' :: rest) =>
      match fixed? 2 rest with
      | some (minute, rest) => if hour ≤ 23 ∧ minute ≤ 59 then seconds? rest else none
      | none => none
  | _ => none

/-- The offset of a time zone, if it is given, up to the end of the text. -/
def isOffset : List Char → Bool
  | [] => true
  | ['Z'] => true
  | ['z'] => true
  | sign :: rest =>
      match fixed? 2 rest with
      | some (hour, ':' :: rest) =>
          match fixed? 2 rest with
          | some (minute, []) => (sign == '+' || sign == '-') && hour ≤ 23 && minute ≤ 59
          | _ => false
      | _ => false

/-- A date, a time, or a date with a time and possibly an offset. -/
def isDateTime (text : List Char) : Bool :=
  match date? text with
  | some [] => true
  | some (c :: rest) =>
      (c == 'T' || c == 't' || c == ' ') && ((time? rest).map isOffset).getD false
  | none => time? text == some []

/-- The text is a date, after which a time may follow. -/
def isDate (text : List Char) : Bool := date? text == some []

/-! ### Any scalar -/

/-- The value of an unquoted text. -/
def scalar? (text : List Char) : Option Scalar :=
  if text = ['t', 'r', 'u', 'e'] then some (.boolean true)
  else if text = ['f', 'a', 'l', 's', 'e'] then some (.boolean false)
  else
    match integer? text, float? text with
    | some n, _ => some n
    | none, some x => some x
    | none, none => if isDateTime text then some .dateTime else none

end Toml

end AttributeWire
