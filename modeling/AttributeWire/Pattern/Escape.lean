/-
**Escapes in a pattern.**

A backslash takes the meaning from a character that has one, and gives one to most letters: control
characters, characters by number, classes, and edges of texts and words.  Digits and the other
letters may not follow it.

Main definitions:

* `Pattern.escape` — what is written with a backslash;
* `Pattern.atom` — a part without parts.
-/

import AttributeWire.Pattern.Cursor
import AttributeWire.Text.Hexadecimal

set_option relaxedAutoImplicit false
set_option autoImplicit false

namespace AttributeWire

namespace Pattern

/-! ### Characters by number -/

/-- The number of digits after a letter. -/
def digitCount (letter : Char) : Nat :=
  if letter = 'x' then 2 else if letter = 'u' then 4 else 8

/-- The number that so many more digits give. -/
def hexFrom (spaced : Bool) : Nat → Nat → Cursor → Reading (Nat × Cursor)
  | 0, code, c => .ok (code, c)
  | left + 1, code, c =>
      match c.rest with
      | [] => c.failHere .unfinishedEscape
      | d :: _ =>
          match Hexadecimal.digit? d with
          | none => c.failAtChar .hexDigit
          | some value => hexFrom spaced left (code * 16 + value) (c.advance spaced)

/-- What is wrong with a number in braces, which are never closed: a character that is no digit, or
the end.  `left` bounds the number of characters to come. -/
def bracedHex {α : Type} (spaced : Bool) (brace : Nat) : Nat → Cursor → Reading α
  | 0, c => c.fail .unfinishedEscape brace
  | left + 1, c =>
      match c.rest with
      | [] => c.fail .unfinishedEscape brace
      | d :: _ =>
          match Hexadecimal.digit? d with
          | none => c.failAtChar .hexDigit
          | some _ => bracedHex spaced brace left (c.advance spaced)

/-- A character by number, from the letter on. -/
def numbered (spaced : Bool) (start : Nat) (letter : Char) (c : Cursor) : Reading (Atom × Cursor) :=
  let digits := c.advance spaced
  match digits.rest with
  | [] => digits.failHere .unfinishedEscape
  | '\x7b' :: _ =>
      bracedHex spaced digits.position digits.rest.length (digits.advance spaced)
  | _ =>
      match hexFrom spaced (digitCount letter) 0 digits with
      | .error e => .error e
      | .ok (code, after) =>
          match Hexadecimal.char? code with
          | none => after.fail .hexValue digits.position
          | some char =>
              .ok (.literal ⟨⟨start, after.position⟩, char, letter == 'x'⟩, after)

/-! ### Classes and edges -/

/-- A class by a property, from the letter on.  A name in braces is never complete. -/
def propertyClass (spaced : Bool) (start : Nat) (c : Cursor) : Reading (Atom × Cursor) :=
  let name := c.advance spaced
  match name.rest with
  | [] => name.failHere .unfinishedEscape
  | '\x7b' :: rest =>
      .error (.single .unfinishedEscape (name.position + 1 + rest.length)
        (name.position + 1 + rest.length))
  | '\\' :: _ => name.failAtChar .propertyName
  | _ =>
      let after := name.advance spaced
      .ok (.property ⟨start, after.position⟩, after)

/-- A character in the name of an edge. -/
def isEdgeName (c : Char) : Bool := c.isAlpha || c == '-'

/-- Past the name of an edge.  `left` bounds the number of characters to come. -/
def skipEdgeName (spaced : Bool) : Nat → Cursor → Cursor
  | 0, c => c
  | left + 1, c =>
      match c.rest with
      | x :: _ => if isEdgeName x then skipEdgeName spaced left (c.advance spaced) else c
      | [] => c

/-- The edge of a word, before a brace if there is one.  In the brace may stand the name of an edge,
which is then never complete, or a count, which is left alone. -/
def wordEdge (spaced : Bool) (start : Nat) (c : Cursor) : Reading (Atom × Cursor) :=
  let edge : Reading (Atom × Cursor) := .ok (.wordEdge ⟨start, c.position⟩, c)
  match c.rest with
  | '\x7b' :: _ =>
      let name := c.advance spaced
      match name.rest with
      | [] => name.fail .boundaryOrCount start
      | x :: _ =>
          if isEdgeName x then
            (skipEdgeName spaced name.rest.length name).fail .boundaryUnclosed c.position
          else edge
  | _ => edge

/-! ### Any escape -/

/-- A character that stands for itself after a backslash: any of ASCII that is no letter or digit,
but for angle brackets. -/
def isEscapable (c : Char) : Bool := c.toNat < 128 && !c.isAlphanum && c != '<' && c != '>'

/-- The control character with a letter. -/
def control? (letter : Char) : Option Char :=
  if letter = 'a' then some '\x07'
  else if letter = 'f' then some '\x0c'
  else if letter = 't' then some '\t'
  else if letter = 'n' then some '\n'
  else if letter = 'r' then some '\r'
  else if letter = 'v' then some '\x0b'
  else none

/-- What a character means after a backslash, from the character on. -/
def escaped (spaced : Bool) (start : Nat) (x : Char) (c : Cursor) : Reading (Atom × Cursor) :=
  let after := c.bump
  let span : Span := ⟨start, after.position⟩
  if x.isDigit then after.fail .backreference start
  else if ['x', 'u', 'U'].contains x then numbered spaced start x c
  else if x = 'p' ∨ x = 'P' then propertyClass spaced start c
  else if ['d', 's', 'w'].contains x then .ok (.shorthand span false, after)
  else if ['D', 'S', 'W'].contains x then .ok (.shorthand span true, after)
  else if isEscapable x then .ok (.literal ⟨span, x, false⟩, after)
  else if x = 'A' ∨ x = 'z' then .ok (.edge span, after)
  else if x = 'b' then wordEdge spaced start after
  else if ['B', '<', '>'].contains x then .ok (.wordEdge span, after)
  else
    match control? x with
    | some char => .ok (.literal ⟨span, char, false⟩, after)
    | none => after.fail .unknownEscape start

/-- What is written with a backslash, from the backslash on. -/
def escape (spaced : Bool) (c : Cursor) : Reading (Atom × Cursor) :=
  let next := c.bump
  match next.rest with
  | [] => next.fail .unfinishedEscape c.position
  | x :: _ => escaped spaced c.position x next

/-- A part without parts, from its first character on. -/
def atom (spaced : Bool) (x : Char) (c : Cursor) : Reading (Atom × Cursor) :=
  if x = '\\' then escape spaced c
  else if x = '.' then .ok (.point c.charSpan, c.bump)
  else if x = '^' ∨ x = '$' then .ok (.edge c.charSpan, c.bump)
  else .ok (.literal ⟨c.charSpan, x, false⟩, c.bump)

end Pattern

end AttributeWire
