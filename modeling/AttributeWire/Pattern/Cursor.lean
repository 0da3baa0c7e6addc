/-
**Reading a pattern.**

A pattern is read at a position, with what follows it at hand.  Where blanks mean nothing, they are
passed over together with comments, which begin with a number sign and end with the line.

Commas, equals signs and closing braces have meanings of their own where patterns stand, so none of
them is ever part of a pattern.  What an opening brace begins is therefore never complete.

Main definitions:

* `Pattern.Cursor` — a position in a pattern;
* `Pattern.Cursor.bump`, `Pattern.Cursor.advance` — one character further, and on past blanks;
* `Pattern.Cursor.fail` — an error from a position up to the cursor.
-/

import AttributeWire.Pattern.Error
import AttributeWire.Pattern.Expression
import AttributeWire.Text.Blank

set_option relaxedAutoImplicit false
set_option autoImplicit false

namespace AttributeWire

namespace Pattern

/-- The reading of a part, or what is wrong with it. -/
abbrev Reading (α : Type) : Type := Except PatternError α

/-- A position in a pattern. -/
structure Cursor where
  /-- How many characters were read. -/
  position : Nat
  /-- The characters to come. -/
  rest : List Char
deriving DecidableEq, Repr

namespace Cursor

/-- The place of the next character. -/
def charSpan (c : Cursor) : Span := ⟨c.position, c.position + 1⟩

/-- One character further. -/
def bump (c : Cursor) : Cursor :=
  match c.rest with
  | [] => c
  | _ :: rest => ⟨c.position + 1, rest⟩

/-- Past blanks and comments from a position on. -/
def skipFrom (inComment : Bool) (position : Nat) : List Char → Cursor
  | [] => ⟨position, []⟩
  | x :: rest =>
      if inComment then skipFrom (x != '\n') (position + 1) rest
      else if Blank.isBlank x then skipFrom false (position + 1) rest
      else if x = '#' then skipFrom true (position + 1) rest
      else ⟨position, x :: rest⟩

/-- Past blanks and comments, where they mean nothing. -/
def skip (spaced : Bool) (c : Cursor) : Cursor :=
  if spaced then skipFrom false c.position c.rest else c

/-- One character further, and on past blanks where they mean nothing. -/
def advance (spaced : Bool) (c : Cursor) : Cursor := c.bump.skip spaced

/-- The character after the next one, blanks aside where they mean nothing. -/
def second? (spaced : Bool) (c : Cursor) : Option Char :=
  let rest := c.rest.drop 1
  if spaced then
    -- of a comment only the sign is passed over
    let significant := match rest.dropWhile Blank.isBlank with
      | '#' :: more => more.dropWhile Blank.isBlank
      | more => more
    if significant = [] then rest.head? else significant.head?
  else rest.head?

/-- An error from a position up to the cursor. -/
def fail {α : Type} (c : Cursor) (flaw : Flaw) (start : Nat) : Reading α :=
  .error (.single flaw start c.position)

/-- An error at the cursor, between two characters. -/
def failHere {α : Type} (c : Cursor) (flaw : Flaw) : Reading α := c.fail flaw c.position

/-- An error at the next character. -/
def failAtChar {α : Type} (c : Cursor) (flaw : Flaw) : Reading α :=
  .error (.single flaw c.position (c.position + 1))

end Cursor

end Pattern

end AttributeWire
