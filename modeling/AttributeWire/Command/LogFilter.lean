/-
**Filters for the log.**

A filter is a list of directives with commas between them.  A directive gives the least serious
level that is let through, `off` for none, and may be limited to the targets that begin with a text;
a target alone lets everything through.  Of several directives for one target the most specific
decides, and among equals the last.  Directives may also be limited to spans, within which nothing
is ever logged here, and to messages with certain fields.  The value asked of a field is a truth
value, a number, or else a pattern, which has to be one that can be used.  Without directives,
errors are let through.

Main definitions:

* `Threshold`, `Directive`, `LogFilter` — a level or `off`, a directive, and a filter;
* `FilterError`, `FilterError.causes` — why a text is no filter;
* `Directive.isPlainValue` — the value asked of a field is no pattern;
* `LogFilter.parse` — the filter of a text;
* `LogFilter.Enabled` — whether a message is let through.
-/

import AttributeWire.Pattern.Support
import AttributeWire.Scan.Report
import AttributeWire.Text.Letter
import AttributeWire.Text.Lines

set_option relaxedAutoImplicit false
set_option autoImplicit false

namespace AttributeWire

/-- The least serious level that is let through, `none` if no message is. -/
abbrev Threshold : Type := Option Level

/-- The level is at least as serious as the threshold. -/
def Level.Reaches (level : Level) : Threshold → Prop
  | none => False
  | some threshold => level.rank ≤ threshold.rank

instance (level : Level) : (threshold : Threshold) → Decidable (level.Reaches threshold)
  | none => inferInstanceAs (Decidable False)
  | some threshold => inferInstanceAs (Decidable (level.rank ≤ threshold.rank))

/-- One directive of a filter. -/
structure Directive where
  /-- The beginning of the targets that are meant; without it, all. -/
  target : Option (List Char)
  /-- The directive is limited to a span, or to a value of a field. -/
  withinSpan : Bool
  /-- The fields that a message must have. -/
  fields : List (List Char)
  /-- What is let through. -/
  threshold : Threshold
deriving DecidableEq, Repr

/-- A filter. -/
structure LogFilter where
  /-- The directives, in order. -/
  directives : List Directive
deriving DecidableEq, Repr

/-- Why a text is no filter. -/
inductive FilterError where
  /-- A directive has another form. -/
  | directive
  /-- A level has another name. -/
  | level
  /-- The value asked of a field is no pattern. -/
  | field (fault : PatternFault)
deriving DecidableEq, Repr

/-- The texts of an error, the outermost first. -/
def FilterError.causes : FilterError → List String
  | directive => ["invalid filter directive"]
  | level =>
      let text := "error parsing level filter: expected one of \"off\", \"error\", \"warn\", "
        ++ "\"info\", \"debug\", \"trace\", or a number 0-5"
      [text, text]
  | field fault =>
      match fault.causes with
      | [] => []
      | cause :: causes => ("invalid field filter: " ++ cause) :: cause :: causes

/-! ### Levels -/

/-- The thresholds by number. -/
def Threshold.ofNumber? : Nat → Option Threshold
  | 0 => some none
  | 1 => some (some .error)
  | 2 => some (some .warn)
  | 3 => some (some .info)
  | 4 => some (some .debug)
  | 5 => some (some .trace)
  | _ => none

/-- The number of a text of digits, which may have a plus sign. -/
def Threshold.number? (text : List Char) : Option Nat :=
  match text with
  | '+' :: digits => Decimal.decode? (Bytes.ofText (String.ofList digits))
  | digits => Decimal.decode? (Bytes.ofText (String.ofList digits))

/-- The thresholds by name, in whatever case. -/
def Threshold.ofName? (name : List Char) : Option Threshold :=
  let lower := name.map Char.toLower
  if lower = "off".toList then some none
  else if lower = "error".toList then some (some .error)
  else if lower = "warn".toList then some (some .warn)
  else if lower = "info".toList then some (some .info)
  else if lower = "debug".toList then some (some .debug)
  else if lower = "trace".toList then some (some .trace)
  else none

/-- The threshold of a name or number. -/
def Threshold.parse? (text : List Char) : Option Threshold :=
  match (Threshold.number? text).bind Threshold.ofNumber? with
  | some threshold => some threshold
  | none => Threshold.ofName? text

/-! ### Fields -/

namespace Directive

/-- What follows a sign, if there is one. -/
def unsigned : List Char → List Char
  | '+' :: rest => rest
  | '-' :: rest => rest
  | text => text

/-- Digits, at least one. -/
def isDigits (text : List Char) : Bool := !text.isEmpty && text.all Char.isDigit

/-- Digits with a point among them, or none, and at most an exponent after them. -/
def isNumeral (text : List Char) : Bool :=
  let (whole, rest) := text.span Char.isDigit
  let (fraction, rest) := match rest with
    | '.' :: more => more.span Char.isDigit
    | more => ([], more)
  let ends := match rest with
    | [] => true
    | mark :: more => (mark == 'e' || mark == 'E') && isDigits (unsigned more)
  !(whole.isEmpty && fraction.isEmpty) && ends

/-- The value asked of a field is a truth value or a number, infinite ones and none included, and no
pattern. -/
def isPlainValue (text : List Char) : Bool :=
  let number := unsigned text
  ["true", "false"].contains (String.ofList text) || isNumeral number ||
    ["inf", "infinity", "nan"].contains (String.ofList (number.map Char.toLower))

/-- Why the value asked of a field, if there is one, cannot be asked.  A second equals sign ends
it. -/
def fieldFault? (field : List Char) : Option PatternFault :=
  match Lines.splitOnce? '=' field with
  | none => none
  | some (_, rest) =>
      let value := rest.takeWhile (· != '=')
      if isPlainValue value then none else Pattern.fault? value

/-! ### Directives -/

/-- What is left of a text after so many bytes. -/
def dropBytes (count : Nat) : List Char → List Char
  | [] => []
  | c :: rest => if count = 0 then c :: rest else dropBytes (count - c.utf8Size) rest

/-- The first so many bytes of a text. -/
def takeBytes (count : Nat) : List Char → List Char
  | [] => []
  | c :: rest => if count = 0 then [] else c :: takeBytes (count - c.utf8Size) rest

/-- A directive, whose form is looked at without the blanks around it while its parts are cut out of
the whole text: blanks in front shift what is taken for a part by as many bytes as they have. -/
structure Source where
  /-- The text. -/
  text : List Char
  /-- The text without the blanks around it. -/
  trimmed : List Char

namespace Source

/-- The directive of a text. -/
def ofText (text : List Char) : Source := ⟨text, Lines.trimBlanks text⟩

/-- The number of bytes in front of a position. -/
def offset (s : Source) (position : Nat) : Nat :=
  (Bytes.ofText (String.ofList (s.trimmed.take position))).length

/-- What is taken for the part from a position on. -/
def part (s : Source) (first : Nat) : List Char := dropBytes (s.offset first) s.text

/-- What is taken for the part between two positions. -/
def between (s : Source) (first last : Nat) : List Char :=
  takeBytes (s.offset last - s.offset first) (s.part first)

/-- The character at a position. -/
def char? (s : Source) (position : Nat) : Option Char := s.trimmed[position]?

/-- The first position from `first` on with a character of a kind. -/
def find? (s : Source) (p : Char → Bool) (first : Nat) : Option Nat :=
  ((s.trimmed.drop first).findIdx? p).map (· + first)

end Source

/-- The threshold that ends a directive; an empty one lets everything through. -/
def thresholdOf (text : List Char) : Except FilterError Threshold :=
  if text = [] then .ok (some .trace)
  else
    match Threshold.parse? text with
    | some threshold => .ok threshold
    | none => .error .level

/-- A directive that is a level or a target alone. -/
def ofWord (text : List Char) : Directive :=
  match Threshold.parse? text with
  | some threshold => ⟨none, false, [], threshold⟩
  | none => ⟨some text, false, [], some .trace⟩

/-- What follows the closing bracket at a position: nothing, or a level. -/
def afterSpan (s : Source) (position : Nat) (d : Directive) : Except FilterError Directive :=
  match s.char? position with
  | none => .ok d
  | some c =>
      if c = '=' then
        (thresholdOf (s.part (position + 1))).map fun t => { d with threshold := t }
      else .error .directive

/-- What follows an opening brace before a position: a field, and the closing brace. -/
def ofField (s : Source) (position : Nat) (target : Option (List Char)) (hasSpan : Bool) :
    Except FilterError Directive :=
  match s.find? (· == '\x7d') position with
  | none => .error .directive
  | some close =>
      let field := s.between position close
      if field = [] then .error .directive
      else
        match fieldFault? field with
        | some fault => .error (.field fault)
        | none =>
            if s.char? (close + 1) ≠ some ']' then .error .directive
            else
              -- braces alone limit the messages, and do not make it a matter of spans
              afterSpan s (close + 2) ⟨target, hasSpan || field.contains '=', [field], some .trace⟩

/-- What follows the opening bracket before a position: a span, fields in braces, or both. -/
def ofSpan (s : Source) (position : Nat) (target : Option (List Char)) :
    Except FilterError Directive :=
  match s.find? (fun c => c == ']' || c == '\x7b') position with
  | none => .error .directive
  | some stop =>
      if s.char? stop = some ']' then afterSpan s (stop + 1) ⟨target, true, [], some .trace⟩
      else ofField s (stop + 1) target !(s.between position stop).isEmpty

/-- A character that a directive may begin with. -/
def mayBegin (c : Char) : Bool := Letter.isLetterOrNumeral c || ['-', ':', '_'].contains c

/-- The directive of a text. -/
def parse (text : List Char) : Except FilterError Directive :=
  let s := Source.ofText text
  match s.char? 0 with
  | none => .error .directive
  | some '[' => ofSpan s 1 none
  | some c =>
      if !mayBegin c then .error .directive
      else
        match s.find? (fun c => c == '=' || c == '[') 1 with
        | none => .ok (ofWord text)
        | some stop =>
            let target := some (s.between 0 stop)
            if s.char? stop = some '=' then
              (thresholdOf (s.part (stop + 1))).map fun t => ⟨target, false, [], t⟩
            else ofSpan s (stop + 1) target

/-- The directive is about messages to a target.  A message has no field but its text. -/
def Concerns (d : Directive) (target : List Char) : Prop :=
  d.withinSpan = false ∧ (d.target.getD []).isPrefixOf target = true ∧
    ∀ field ∈ d.fields, field = "message".toList

instance (d : Directive) (target : List Char) : Decidable (d.Concerns target) :=
  inferInstanceAs (Decidable (_ ∧ _ ∧ _))

/-- How specific a directive is: by the length of its target, then by its fields. -/
def weight (d : Directive) : Nat × Nat := ((d.target.getD []).length, d.fields.length)

end Directive

/-! ### Filters -/

namespace LogFilter

/-- The directives of texts. -/
def parseAll : List (List Char) → Except FilterError (List Directive)
  | [] => .ok []
  | text :: texts =>
      match Directive.parse text with
      | .error e => .error e
      | .ok d => (parseAll texts).map (d :: ·)

/-- The filter of a text. -/
def parse (text : List Char) : Except FilterError LogFilter :=
  (parseAll ((Lines.pieces ',' text).filter fun piece => piece ≠ [])).map fun directives =>
    if directives = [] then ⟨[⟨none, false, [], some .error⟩]⟩ else ⟨directives⟩

/-- The more specific of two directives, the second if neither is. -/
def moreSpecific (current : Option Directive) (d : Directive) : Option Directive :=
  match current with
  | none => some d
  | some c =>
      -- of two that are equally specific the later one counts
      if d.weight.1 < c.weight.1 ∨ (d.weight.1 = c.weight.1 ∧ d.weight.2 < c.weight.2) then some c
      else some d

/-- The directive that decides about messages to a target. -/
def deciding? (filter : LogFilter) (target : List Char) : Option Directive :=
  (filter.directives.filter fun d => d.Concerns target).foldl moreSpecific none

/-- What is let through to a target. -/
def threshold (filter : LogFilter) (target : String) : Threshold :=
  (filter.deciding? target.toList).bind Directive.threshold

/-- A message is let through. -/
def Enabled (filter : LogFilter) (level : Level) (target : String) : Prop :=
  level.Reaches (filter.threshold target)

instance (filter : LogFilter) (level : Level) (target : String) :
    Decidable (filter.Enabled level target) :=
  inferInstanceAs (Decidable (level.Reaches _))

end LogFilter

end AttributeWire
