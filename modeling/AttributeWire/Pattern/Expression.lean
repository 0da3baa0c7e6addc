/-
**Patterns for texts.**

A pattern is an expression that is made of characters and classes of characters, and of edges
between them, by standing one after the other, alternatives, repetition and groups.  Flags change
what the parts after them mean.  Only what decides whether a pattern can be used is kept, together
with the place of each part in the text.

Main definitions:

* `Pattern.Flag`, `Pattern.FlagItem` — the flags, and an item in a list of them;
* `Pattern.Atom` — a part without parts;
* `Pattern.Class` — a class of characters in brackets;
* `Pattern.Expr` — a pattern.
-/

import AttributeWire.Text.Excerpt

set_option relaxedAutoImplicit false
set_option autoImplicit false

namespace AttributeWire

namespace Pattern

/-! ### Flags -/

/-- A flag. -/
inductive Flag where
  /-- Letters of either case are the same. -/
  | anyCase
  /-- Lines have edges. -/
  | lines
  /-- A point is a newline too. -/
  | pointIsAny
  /-- Repetitions are short unless they are marked to be long. -/
  | shortFirst
  /-- Characters are those of all scripts. -/
  | unicode
  /-- Carriage returns end lines. -/
  | carriage
  /-- Blanks and comments mean nothing. -/
  | spaced
deriving DecidableEq, Repr

/-- An item in a list of flags. -/
inductive FlagItem where
  /-- The flag is switched on, or off after a minus. -/
  | flag (flag : Flag)
  /-- The minus. -/
  | minus
deriving DecidableEq, Repr

/-- What a list of flags says about one of them, if it names it. -/
def stateOf? (flag : Flag) : List FlagItem → Option Bool
  | [] => none
  | .minus :: items => if items.contains (.flag flag) then some false else none
  | .flag other :: items => if other = flag then some true else stateOf? flag items

/-! ### Parts without parts -/

/-- A character that stands for itself, or is written by an escape. -/
structure Literal where
  /-- Its place in the text. -/
  span : Span
  /-- The character. -/
  char : Char
  /-- It is written by two digits, which may stand for a byte. -/
  isByte : Bool
deriving DecidableEq, Repr

/-- A part without parts. -/
inductive Atom where
  | literal (literal : Literal)
  /-- A point, for any character. -/
  | point (span : Span)
  /-- An edge of the text or of a line. -/
  | edge (span : Span)
  /-- An edge of a word, or a place that is none. -/
  | wordEdge (span : Span)
  /-- A letter for a class: digits, blanks, characters of words, or all others. -/
  | shorthand (span : Span) (negated : Bool)
  /-- A class by a property of its characters. -/
  | property (span : Span)
deriving DecidableEq, Repr

/-- The place of a part. -/
def Atom.span : Atom → Span
  | literal l => l.span
  | point span => span
  | edge span => span
  | wordEdge span => span
  | shorthand span _ => span
  | property span => span

/-! ### Classes -/

/-- A class in brackets, or a part of one. -/
inductive Class where
  /-- Nothing at all, where there could be something. -/
  | empty (span : Span)
  | literal (literal : Literal)
  | range (span : Span) (first last : Literal)
  /-- A class by its name. -/
  | named (span : Span) (negated : Bool)
  | shorthand (span : Span) (negated : Bool)
  | property (span : Span)
  /-- Brackets. -/
  | bracketed (span : Span) (negated : Bool) (inner : Class)
  /-- Several parts, of which any will do. -/
  | union (span : Span) (items : List Class)
  /-- What two parts have in common, or what only one of them has. -/
  | operation (span : Span) (left right : Class)

/-- The place of a class. -/
def Class.span : Class → Span
  | empty span => span
  | literal l => l.span
  | range span _ _ => span
  | named span _ => span
  | shorthand span _ => span
  | property span => span
  | bracketed span _ _ => span
  | union span _ => span
  | operation span _ _ => span

/-! ### Expressions -/

/-- A pattern, or a part of one. -/
inductive Expr where
  /-- Nothing at all. -/
  | empty (span : Span)
  /-- Flags for what follows. -/
  | flags (span : Span) (items : List FlagItem)
  | atom (atom : Atom)
  /-- A class in brackets. -/
  | bracketed (span : Span) (negated : Bool) (inner : Class)
  | repetition (span : Span) (inner : Expr)
  /-- A group, with flags that hold within it. -/
  | group (span : Span) (items : List FlagItem) (inner : Expr)
  | alternatives (span : Span) (branches : List Expr)
  /-- Parts one after the other. -/
  | sequence (span : Span) (parts : List Expr)

/-- The place of an expression. -/
def Expr.span : Expr → Span
  | empty span => span
  | flags span _ => span
  | atom a => a.span
  | bracketed span _ _ => span
  | repetition span _ => span
  | group span _ _ => span
  | alternatives span _ => span
  | sequence span _ => span

/-- The expression is something that can be repeated. -/
def Expr.isRepeatable : Expr → Bool
  | empty _ => false
  | flags _ _ => false
  | _ => true

end Pattern

end AttributeWire
