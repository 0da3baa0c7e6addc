/-
**Pointing out a place in a text.**

A place is a run of characters.  It is pointed out by the line it begins on, under which a row of
carets stands: as many as the place has bytes, though never beyond the end of the line, and never
none.  Bars keep the line apart from its number.

Main definitions:

* `Span` — a run of characters of a text;
* `Excerpt`, `Excerpt.ofSpan` — the line a run begins on, and where on it;
* `Excerpt.lines` — the three lines that point it out.
-/

import AttributeWire.Bytes

set_option relaxedAutoImplicit false
set_option autoImplicit false

namespace AttributeWire

/-- A run of characters of a text, from a position on and up to another. -/
structure Span where
  /-- How many characters stand before the run. -/
  start : Nat
  /-- How many characters stand before what follows the run. -/
  stop : Nat
deriving DecidableEq, Repr

namespace Span

/-- From the beginning of one run to the end of another. -/
def through (first last : Span) : Span := ⟨first.start, last.stop⟩

/-- The characters of a run. -/
def of (span : Span) (text : List Char) : List Char :=
  (text.take span.stop).drop span.start

end Span

/-- A line of a text with a place on it. -/
structure Excerpt where
  /-- How many lines stand before the line. -/
  row : Nat
  /-- How many characters of the line stand before the place. -/
  column : Nat
  /-- The characters of the line. -/
  content : List Char
  /-- How many bytes the place has. -/
  width : Nat
deriving DecidableEq, Repr

namespace Excerpt

/-- The number of bytes of a text. -/
def size (text : List Char) : Nat := (String.ofList text).utf8ByteSize

/-- The line on which a run of a text begins. -/
def ofSpan (text : List Char) (span : Span) : Excerpt :=
  let before := text.take span.start
  let left := (before.reverse.takeWhile (· != '\n')).reverse
  let right := (text.drop span.start).takeWhile (· != '\n')
  ⟨before.count '\n', left.length, left ++ right, size (span.of text)⟩

/-- How many carets point the place out. -/
def carets (e : Excerpt) : Nat := max 1 (min e.width (size e.content - e.column))

/-- A character so many times. -/
def repeated (n : Nat) (c : Char) : String := String.ofList (List.replicate n c)

/-- The lines that point a place out. -/
def lines (e : Excerpt) : List String :=
  let number := toString (e.row + 1)
  let gutter := repeated (number.length + 1) ' ' ++ "|"
  [gutter, number ++ " | " ++ String.ofList e.content,
    gutter ++ repeated (e.column + 1) ' ' ++ repeated e.carets '^']

end Excerpt

end AttributeWire
