/-
**What may be wrong with a pattern.**

A pattern that is malformed, or asks for what is not to be had, is shown with its place marked: the
text, carets below the place, and below that what is wrong.  Some faults are about two places, of
which both are marked.  A text of several lines is shown between rows of tildes with its lines
numbered, and a place that goes over several lines is named below it instead.

Main definitions:

* `Pattern.Flaw`, `Pattern.Flaw.message` — what is wrong, and how it is said;
* `Pattern.PatternError` — what is wrong, and where;
* `Pattern.PatternError.report` — how it is shown.
-/

import AttributeWire.Text.Excerpt
import AttributeWire.Text.Lines

set_option relaxedAutoImplicit false
set_option autoImplicit false

namespace AttributeWire

namespace Pattern

/-- What is wrong with a pattern. -/
inductive Flaw where
  -- escapes
  | unfinishedEscape
  | unknownEscape
  | backreference
  | hexDigit
  | hexValue
  | propertyName
  | boundaryUnclosed
  | boundaryOrCount
  -- repetitions
  | nothingToRepeat
  | countUnclosed
  | countMissing
  | countTooLarge
  -- classes
  | classUnclosed
  | classItem
  | rangeEnd
  | rangeOrder
  -- groups
  | groupUnclosed
  | groupUnopened
  | lookAround
  | nameUnfinished
  | nameCharacter
  | nameEmpty
  | nameTaken
  | nesting
  -- flags
  | flagUnknown
  | flagRepeated
  | flagsUnfinished
  | minusRepeated
  | minusAlone
  -- what is not to be had
  | notBytes
  | notUnicode
  | noProperties
  | noShorthands
  | noCases
deriving DecidableEq, Repr

/-- How deep a pattern may be nested. -/
def nestingLimit : Nat := 250

/-- How a flaw is said. -/
def Flaw.message : Flaw → String
  | unfinishedEscape => "incomplete escape sequence, reached end of pattern prematurely"
  | unknownEscape => "unrecognized escape sequence"
  | backreference => "backreferences are not supported"
  | hexDigit => "invalid hexadecimal digit"
  | hexValue => "hexadecimal literal is not a Unicode scalar value"
  | propertyName => "invalid Unicode character class"
  | boundaryUnclosed =>
      "special word boundary assertion is either unclosed or contains an invalid character"
  | boundaryOrCount =>
      "found either the beginning of a special word boundary or a bounded repetition on a \\b "
        ++ "with an opening brace, but no closing brace"
  | nothingToRepeat => "repetition operator missing expression"
  | countUnclosed => "unclosed counted repetition"
  | countMissing => "repetition quantifier expects a valid decimal"
  | countTooLarge => "decimal literal invalid"
  | classUnclosed => "unclosed character class"
  | classItem => "invalid escape sequence found in character class"
  | rangeEnd => "invalid range boundary, must be a literal"
  | rangeOrder => "invalid character class range, the start must be <= the end"
  | groupUnclosed => "unclosed group"
  | groupUnopened => "unopened group"
  | lookAround => "look-around, including look-ahead and look-behind, is not supported"
  | nameUnfinished => "unclosed capture group name"
  | nameCharacter => "invalid capture group character"
  | nameEmpty => "empty capture group name"
  | nameTaken => "duplicate capture group name"
  | nesting =>
      s!"exceed the maximum number of nested parentheses/brackets ({nestingLimit})"
  | flagUnknown => "unrecognized flag"
  | flagRepeated => "duplicate flag"
  | flagsUnfinished => "expected flag but got end of regex"
  | minusRepeated => "flag negation operator repeated"
  | minusAlone => "dangling flag negation operator"
  | notBytes => "pattern can match invalid UTF-8"
  | notUnicode => "Unicode not allowed here"
  | noProperties => "Unicode property not found"
  | noShorthands =>
      "Unicode-aware Perl class not found (make sure the unicode-perl feature is enabled)"
  | noCases =>
      "Unicode-aware case insensitivity matching is not available "
        ++ "(make sure the unicode-case feature is enabled)"

/-- What is wrong with a pattern, and where. -/
structure PatternError where
  /-- What is wrong. -/
  flaw : Flaw
  /-- Where it is wrong. -/
  span : Span
  /-- What it is at odds with, if the flaw is about two places. -/
  other : Option Span
deriving DecidableEq, Repr

namespace PatternError

/-- A flaw that is about one place. -/
def single (flaw : Flaw) (start stop : Nat) : PatternError := ⟨flaw, ⟨start, stop⟩, none⟩

/-! ### Places by line and column -/

/-- A place by the lines and columns of its ends, all counted from zero. -/
structure Extent where
  /-- The line it begins on. -/
  firstLine : Nat
  /-- The column it begins at. -/
  firstColumn : Nat
  /-- The line it ends on. -/
  lastLine : Nat
  /-- The column it ends before. -/
  lastColumn : Nat
deriving DecidableEq, Repr

/-- The line and the column of a position. -/
def lineAndColumn (text : List Char) (position : Nat) : Nat × Nat :=
  let before := text.take position
  (before.count '\n', (before.reverse.takeWhile (· != '\n')).length)

/-- The extent of a run of characters. -/
def extentOf (text : List Char) (span : Span) : Extent :=
  let (firstLine, firstColumn) := lineAndColumn text span.start
  let (lastLine, lastColumn) := lineAndColumn text span.stop
  ⟨firstLine, firstColumn, lastLine, lastColumn⟩

/-- The place lies on one line. -/
def Extent.isOnOneLine (e : Extent) : Bool := e.firstLine == e.lastLine

/-- The extents that an error is about, in the order of the text. -/
def extents (e : PatternError) (text : List Char) : List Extent :=
  match e.other with
  | none => [extentOf text e.span]
  | some other =>
      if other.start < e.span.start then [extentOf text other, extentOf text e.span]
      else [extentOf text e.span, extentOf text other]

/-! ### The report -/

/-- A character so many times. -/
def times (n : Nat) (c : Char) : String := String.ofList (List.replicate n c)

/-- Carets below places on one line, of which the first columns have been passed.  A place of no
characters has a caret all the same. -/
def caretsFrom (column : Nat) : List Extent → String
  | [] => ""
  | e :: rest =>
      let width := max 1 (e.lastColumn - e.firstColumn)
      times (e.firstColumn - column) ' ' ++ times width '^'
        ++ caretsFrom (max column e.firstColumn + width) rest

/-- The lines of a text.  A newline at its end begins no line. -/
def shownLines (text : List Char) : List (List Char) :=
  let lines := Lines.lines text
  let complete := lines.dropLast.map fun line =>
    if line.getLast? = some '\r' then line.dropLast else line
  match lines.getLast? with
  | some (c :: rest) => complete ++ [c :: rest]
  | _ => complete

/-- A number at the end of so many columns. -/
def column (width n : Nat) : String :=
  times (width - (toString n).length) ' ' ++ toString n

/-- The lines of a text from one on, each with the carets below it. -/
def marked (width : Nat) (places : List Extent) (row : Nat) : List (List Char) → List String
  | [] => []
  | line :: lines =>
      let front := if width = 0 then "    " else column width (row + 1) ++ ": "
      let here := places.filter fun e => e.isOnOneLine && e.firstLine == row
      let carets :=
        if here.isEmpty then [] else [times front.length ' ' ++ caretsFrom 0 here]
      (front ++ String.ofList line) :: carets ++ marked width places (row + 1) lines

/-- The note on a place that goes over several lines. -/
def note (e : Extent) : String :=
  s!"on line {e.firstLine + 1} (column {e.firstColumn + 1}) "
    ++ s!"through line {e.lastLine + 1} (column {e.lastColumn})"

/-- How an error is shown. -/
def report (e : PatternError) (text : List Char) : String :=
  let places := e.extents text
  let title := "regex parse error:"
  let last := "error: " ++ e.flaw.message
  let lines :=
    if text.contains '\n' then
      let width := (toString (Lines.lines text).length).length
      let divider := times 79 '~'
      [title, divider] ++ marked width places 0 (shownLines text) ++ [divider]
        ++ (places.filter fun e => !e.isOnOneLine).map note ++ [last]
    else [title] ++ marked 0 places 0 (shownLines text) ++ [last]
  String.intercalate "\n" lines

end PatternError

end Pattern

end AttributeWire
