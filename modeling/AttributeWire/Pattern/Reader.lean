/-
**Reading a whole pattern.**

Parts are read one after the other, and the groups that are open form a stack.  A bar begins an
alternative of the innermost group.  A sign for repetition is about the part before it.  Groups may
have names, and flags in a group hold up to its end.

Main definitions:

* `Pattern.Level`, `Pattern.OpenGroup` — what was read of a group, and a group around it;
* `Pattern.Reader` — where a reader stands between two parts;
* `Pattern.parse` — the expression a text is.
-/

import AttributeWire.Decimal
import AttributeWire.Pattern.Bracket
import AttributeWire.Text.Letter

set_option relaxedAutoImplicit false
set_option autoImplicit false

namespace AttributeWire

namespace Pattern

/-! ### States -/

/-- What was read of a group, or of the whole pattern. -/
structure Level where
  /-- Where the first alternative began, and the alternatives that are complete. -/
  branches : Option (Nat × List Expr)
  /-- Where the current alternative began. -/
  start : Nat
  /-- Its parts. -/
  parts : List Expr

namespace Level

/-- Nothing was read from a position on. -/
def empty (start : Nat) : Level := ⟨none, start, []⟩

/-- One more part. -/
def push (l : Level) (e : Expr) : Level := { l with parts := l.parts ++ [e] }

/-- The current alternative, up to a position. -/
def branch (l : Level) (stop : Nat) : Expr :=
  match l.parts with
  | [] => .empty ⟨l.start, stop⟩
  | [e] => e
  | parts => .sequence ⟨l.start, stop⟩ parts

/-- The whole, up to a position. -/
def toExpr (l : Level) (stop : Nat) : Expr :=
  match l.branches with
  | none => l.branch stop
  | some (start, branches) => .alternatives ⟨start, stop⟩ (branches ++ [l.branch stop])

/-- A bar at a position begins another alternative. -/
def turn (l : Level) (bar : Nat) : Level :=
  let (start, branches) := l.branches.getD (l.start, [])
  ⟨some (start, branches ++ [l.branch bar]), bar + 1, []⟩

end Level

/-- A group that is open. -/
structure OpenGroup where
  /-- Its opening parenthesis. -/
  opening : Span
  /-- The flags that hold within it. -/
  items : List FlagItem
  /-- Blanks mean nothing around it. -/
  spaced : Bool
  /-- What was read around it. -/
  outer : Level

/-- Where a reader stands between two parts. -/
structure Reader where
  /-- The position. -/
  cursor : Cursor
  /-- Blanks mean nothing. -/
  spaced : Bool
  /-- What was read of the innermost group. -/
  level : Level
  /-- The open groups, innermost first. -/
  groups : List OpenGroup
  /-- The names of groups, with their places. -/
  names : List (List Char × Span)

/-! ### Flags and names -/

/-- The flag with a letter. -/
def flag? (letter : Char) : Option Flag :=
  if letter = 'i' then some .anyCase
  else if letter = 'm' then some .lines
  else if letter = 's' then some .pointIsAny
  else if letter = 'U' then some .shortFirst
  else if letter = 'u' then some .unicode
  else if letter = 'R' then some .carriage
  else if letter = 'x' then some .spaced
  else none

/-- The item in a list of flags with a sign. -/
def flagItem? (sign : Char) : Option FlagItem :=
  if sign = '-' then some .minus else (flag? sign).map .flag

/-- What is wrong with an item that was there before. -/
def repeated : FlagItem → Flaw
  | .minus => .minusRepeated
  | .flag _ => .flagRepeated

/-- The flags up to a colon or a closing parenthesis, after some with their places.  No item may
come twice, and none be a minus at the end. -/
def flagsFrom (position : Nat) (seen : List (FlagItem × Span)) :
    List Char → Reading (List FlagItem × Cursor)
  | [] => .error (.single .flagsUnfinished position position)
  | x :: rest =>
      let span : Span := ⟨position, position + 1⟩
      if x = ':' ∨ x = ')' then
        match seen.getLast? with
        | some (.minus, span) => .error ⟨.minusAlone, span, none⟩
        | _ => .ok (seen.map Prod.fst, ⟨position, x :: rest⟩)
      else
        match flagItem? x with
        | none => .error ⟨.flagUnknown, span, none⟩
        | some item =>
            match seen.find? fun before => before.1 = item with
            | some before => .error ⟨repeated item, span, some before.2⟩
            | none => flagsFrom (position + 1) (seen ++ [(item, span)]) rest

/-- A character in the name of a group. -/
def isGroupName (isFirst : Bool) (c : Char) : Bool :=
  if isFirst then c == '_' || Letter.isLetter c
  else ['_', '.', '[', ']'].contains c || Letter.isLetterOrNumeral c

/-- The name of a group that began at `start`, up to an angle bracket, after some characters of
it. -/
def nameFrom (start position : Nat) (chars : List Char) : List Char → Reading (List Char × Cursor)
  | [] => .error (.single .nameUnfinished position position)
  | x :: rest =>
      if x = '>' then
        if chars = [] then .error (.single .nameEmpty start start)
        else .ok (chars, ⟨position + 1, rest⟩)
      else if isGroupName (position == start) x then
        nameFrom start (position + 1) (chars ++ [x]) rest
      else .error (.single .nameCharacter position (position + 1))

namespace Reader

/-! ### Groups -/

/-- The state at the beginning of a text. -/
def initial (text : List Char) : Reader := ⟨⟨0, text⟩, false, .empty 0, [], []⟩

/-- One more part, up to a position. -/
def add (r : Reader) (e : Expr) (cursor : Cursor) : Reader :=
  { r with cursor := cursor, level := r.level.push e }

/-- A group with flags opens. -/
def enter (r : Reader) (opening : Span) (items : List FlagItem) (cursor : Cursor) : Reader :=
  { r with
    cursor := cursor
    spaced := (stateOf? .spaced items).getD r.spaced
    level := .empty cursor.position
    groups := ⟨opening, items, r.spaced, r.level⟩ :: r.groups }

/-- Whether parts before or behind a position are asked for: the length of the sign for that. -/
def lookAround? (text : List Char) : Option Nat :=
  (["?=", "?!", "?<=", "?<!"].find? fun sign => sign.toList.isPrefixOf text).map String.length

/-- A name follows the opening parenthesis: how far behind it. -/
def nameOffset? (text : List Char) : Option Nat :=
  (["?P<", "?<"].find? fun sign => sign.toList.isPrefixOf text).map String.length

/-- A group with a name opens. -/
def enterNamed (r : Reader) (opening : Span) (name : Cursor) : Reading Reader :=
  match nameFrom name.position name.position [] name.rest with
  | .error e => .error e
  | .ok (chars, after) =>
      let span : Span := ⟨name.position, name.position + chars.length⟩
      match r.names.find? fun other => other.1 = chars with
      | some other => .error ⟨.nameTaken, span, some other.2⟩
      | none => .ok { r.enter opening [] after with names := r.names ++ [(chars, span)] }

/-- Flags stand behind the question mark before the cursor, alone or for a group. -/
def enterFlags (r : Reader) (opening : Span) (mark : Nat) (c : Cursor) : Reading Reader :=
  if c.rest.isEmpty then .error ⟨.groupUnclosed, opening, none⟩
  else
    match flagsFrom c.position [] c.rest with
    | .error e => .error e
    | .ok (items, last) =>
        let after := last.bump
        if last.rest.head? = some ':' then .ok (r.enter opening items after)
        else if items = [] then .error (.single .nothingToRepeat mark mark)
        else
          .ok { r.add (.flags ⟨opening.start, after.position⟩ items) after with
            spaced := (stateOf? .spaced items).getD r.spaced }

/-- A group opens at the cursor, or flags stand alone. -/
def openGroup (r : Reader) : Reading Reader :=
  let opening := r.cursor.charSpan
  let inner := r.cursor.advance r.spaced
  match lookAround? inner.rest with
  | some length => .error (.single .lookAround opening.start (inner.position + length))
  | none =>
      match nameOffset? inner.rest with
      | some offset => r.enterNamed opening ⟨inner.position + offset, inner.rest.drop offset⟩
      | none =>
          match inner.rest with
          | '?' :: _ => r.enterFlags opening inner.position inner.bump
          | _ => .ok (r.enter opening [] inner)

/-- The innermost group closes at the cursor. -/
def closeGroup (r : Reader) : Reading Reader :=
  match r.groups with
  | [] => r.cursor.failAtChar .groupUnopened
  | group :: groups =>
      let after := r.cursor.bump
      let e : Expr := .group ⟨group.opening.start, after.position⟩ group.items
        (r.level.toExpr r.cursor.position)
      .ok { r with
        cursor := after, spaced := group.spaced, level := group.outer.push e, groups := groups }

/-! ### Repetition -/

/-- The part before the cursor, and the level without it. -/
def last? (r : Reader) : Option (Expr × Level) :=
  match r.level.parts.getLast? with
  | some e =>
      if e.isRepeatable then some (e, { r.level with parts := r.level.parts.dropLast }) else none
  | none => none

/-- The part before the cursor is repeated.  A question mark after the sign says how. -/
def repeatLast (r : Reader) : Reading Reader :=
  match r.last? with
  | none => r.cursor.failHere .nothingToRepeat
  | some (e, level) =>
      let after := r.cursor.bump
      let after := if after.rest.head? = some '?' then after.bump else after
      .ok { r with
        cursor := after
        level := level.push (.repetition ⟨e.span.start, after.position⟩ e) }

/-- Digits of a count, of which `left` bounds the number, and what follows them. -/
def countDigits (spaced : Bool) : Nat → List Nat → Cursor → List Nat × Cursor
  | 0, digits, c => (digits, c)
  | left + 1, digits, c =>
      match c.rest with
      | x :: _ =>
          if x.isDigit then countDigits spaced left (digits ++ [x.toNat - 48]) (c.advance spaced)
          else (digits, c)
      | [] => (digits, c)

/-- The part before the cursor is repeated a number of times, which is never complete. -/
def countLast (r : Reader) : Reading Reader :=
  match r.last? with
  | none => r.cursor.failHere .nothingToRepeat
  | some _ =>
      let brace := r.cursor.position
      let inner := r.cursor.advance r.spaced
      let blanks := (inner.rest.takeWhile Blank.isBlank).length
      let first : Cursor := ⟨inner.position + blanks, inner.rest.drop blanks⟩
      let (digits, after) := countDigits r.spaced first.rest.length [] first
      let blanks := (after.rest.takeWhile Blank.isBlank).length
      let next := (⟨after.position + blanks, after.rest.drop blanks⟩ : Cursor).skip r.spaced
      if next.rest.isEmpty then next.fail .countUnclosed brace
      else if digits = [] then after.fail .countMissing first.position
      else if UInt32.size ≤ Decimal.value digits then after.fail .countTooLarge first.position
      else next.fail .countUnclosed brace

/-! ### Parts -/

/-- The part that begins with a character at the cursor. -/
def step (r : Reader) (x : Char) : Reading Reader :=
  if x = '(' then r.openGroup
  else if x = ')' then r.closeGroup
  else if x = '|' then
    .ok { r with cursor := r.cursor.bump, level := r.level.turn r.cursor.position }
  else if x = '[' then
    (bracket r.spaced r.cursor).map fun c => r.add (.bracketed c.span c.negated c.inner) c.after
  else if ['?', '*', '+'].contains x then r.repeatLast
  else if x = '\x7b' then r.countLast
  else (atom r.spaced x r.cursor).map fun (a, after) => r.add (.atom a) after

/-- The whole, at the end of the text. -/
def finish (r : Reader) : Reading Expr :=
  match r.groups with
  | [] => .ok (r.level.toExpr r.cursor.position)
  | group :: _ => .error ⟨.groupUnclosed, group.opening, none⟩

/-- Reads on up to the end.  Each part takes a character at least; `left` bounds their number. -/
def run : Nat → Reader → Reading Expr
  | 0, r => r.finish
  | left + 1, r =>
      let r := { r with cursor := r.cursor.skip r.spaced }
      match r.cursor.rest with
      | [] => r.finish
      | x :: _ =>
          match r.step x with
          | .error e => .error e
          | .ok r => run left r

end Reader

/-- The expression a text is. -/
def parse (text : List Char) : Reading Expr := Reader.run text.length (.initial text)

end Pattern

end AttributeWire
