/-
**Cutting texts.**

Texts are cut at characters: at the first of a kind, into two, or at every one, into pieces; the
pieces between newlines are lines.

Main definitions:

* `Lines.splitOnce?` — what stands before and after the first occurrence of a character;
* `Lines.pieces` — the pieces of a text between the occurrences of a character;
* `Lines.lines` — the lines of a text;
* `Lines.trimBlanks` — a text without the blanks at its ends.
-/

import AttributeWire.Text.Blank

set_option relaxedAutoImplicit false
set_option autoImplicit false

namespace AttributeWire

namespace Lines

/-- What stands before and after the first occurrence of a character. -/
def splitOnce? (mark : Char) : List Char → Option (List Char × List Char)
  | [] => none
  | c :: rest =>
      if c = mark then some ([], rest)
      else
        match splitOnce? mark rest with
        | some (before, after) => some (c :: before, after)
        | none => none

/-- The pieces of a text between the occurrences of a character.  There is always at least one. -/
def pieces (mark : Char) : List Char → List (List Char)
  | [] => [[]]
  | c :: rest =>
      if c = mark then [] :: pieces mark rest
      else
        match pieces mark rest with
        | [] => [[c]]
        | piece :: more => (c :: piece) :: more

/-- The lines of a text, without their ends. -/
def lines (text : List Char) : List (List Char) := pieces '\n' text

/-- A text without the blanks at its ends. -/
def trimBlanks (text : List Char) : List Char :=
  ((text.dropWhile Blank.isBlank).reverse.dropWhile Blank.isBlank).reverse

/-- The lines of a text as texts. -/
def linesOf (text : String) : List String := (lines text.toList).map String.ofList

end Lines

end AttributeWire
