/-
**Classes in brackets.**

Between brackets stand characters, ranges of characters, and classes, which may be in brackets of
their own or go by a name.  Pairs of signs between them keep what both sides have, or what one of
them has and the other has not, and join from left to right.  A closing bracket directly after the
opening one, and minuses there, stand for themselves, and so does a minus at the end.

Main definitions:

* `Pattern.Items` — the parts of a class so far;
* `Pattern.OpenClass` — brackets that are not closed yet;
* `Pattern.bracket` — a class in brackets.
-/

import AttributeWire.Pattern.Escape

set_option relaxedAutoImplicit false
set_option autoImplicit false

namespace AttributeWire

namespace Pattern

/-! ### Parts of a class -/

/-- The parts of a class so far. -/
structure Items where
  /-- Their place. -/
  span : Span
  /-- The parts, in order. -/
  items : List Class

namespace Items

/-- No parts at a position. -/
def none (position : Nat) : Items := ⟨⟨position, position⟩, []⟩

/-- One more part. -/
def push (i : Items) (item : Class) : Items :=
  let start := if i.items.isEmpty then item.span.start else i.span.start
  ⟨⟨start, item.span.stop⟩, i.items ++ [item]⟩

/-- The class of the parts. -/
def toClass (i : Items) : Class :=
  match i.items with
  | [] => .empty i.span
  | [item] => item
  | items => .union i.span items

end Items

/-- Brackets that are not closed yet. -/
structure OpenClass where
  /-- The place of the opening bracket and what belongs to it. -/
  opening : Span
  /-- The class has all other characters. -/
  negated : Bool
  /-- The parts of the class around it. -/
  outer : Items
  /-- The left side of the last pair of signs. -/
  left : Option Class

/-- The left side joined to the parts on the right. -/
def OpenClass.joined (o : OpenClass) (items : Items) : Class :=
  let right := items.toClass
  match o.left with
  | none => right
  | some left => .operation ⟨left.span.start, right.span.stop⟩ left right

/-! ### Items -/

/-- A part without parts as a part of a class; edges are none. -/
def Atom.toClass : Atom → Reading Class
  | .literal l => .ok (.literal l)
  | .shorthand span negated => .ok (.shorthand span negated)
  | .property span => .ok (.property span)
  | a => .error ⟨.classItem, a.span, none⟩

/-- A part without parts as the end of a range; only characters are one. -/
def Atom.toRangeEnd : Atom → Reading Literal
  | .literal l => .ok l
  | a => .error ⟨.rangeEnd, a.span, none⟩

/-- A character or an escape between brackets. -/
def classAtom (spaced : Bool) (c : Cursor) : Reading (Atom × Cursor) :=
  match c.rest with
  | '\\' :: _ => escape spaced c
  | x :: _ => .ok (.literal ⟨c.charSpan, x, false⟩, c.bump)
  | [] => c.failHere .classUnclosed

/-- A range between two parts that were read. -/
def rangeOf (first last : Atom) : Reading Class :=
  match first.toRangeEnd, last.toRangeEnd with
  | .error e, _ => .error e
  | .ok _, .error e => .error e
  | .ok a, .ok b =>
      let span : Span := ⟨a.span.start, b.span.stop⟩
      if a.char ≤ b.char then .ok (.range span a b) else .error ⟨.rangeOrder, span, none⟩

/-- A character, a range, or a class with a letter.  Without an end the brackets that began at
`opening` are unclosed. -/
def classItem (spaced : Bool) (opening : Span) (c : Cursor) : Reading (Class × Cursor) :=
  match classAtom spaced c with
  | .error e => .error e
  | .ok (first, after) =>
      let minus := after.skip spaced
      let alone : Reading (Class × Cursor) := first.toClass.map fun item => (item, minus)
      match minus.rest with
      | [] => .error ⟨.classUnclosed, opening, none⟩
      | '-' :: _ =>
          if minus.second? spaced = some ']' ∨ minus.second? spaced = some '-' then alone
          else
            let next := minus.advance spaced
            if next.rest.isEmpty then .error ⟨.classUnclosed, opening, none⟩
            else
              match classAtom spaced next with
              | .error e => .error e
              | .ok (last, after) => (rangeOf first last).map fun item => (item, after)
      | _ => alone

/-- The names of classes. -/
def classNames : List String :=
  ["alnum", "alpha", "ascii", "blank", "cntrl", "digit", "graph", "lower", "print", "punct",
    "space", "upper", "word", "xdigit"]

/-- A class by its name, between brackets and colons. -/
def namedClass? (c : Cursor) : Option (Class × Cursor) :=
  match c.rest with
  | '[' :: ':' :: inner =>
      let (negated, inner) := match inner with
        | '^' :: more => (true, more)
        | more => (false, more)
      match inner.dropWhile (· != ':') with
      | ':' :: ']' :: rest =>
          let stop := c.position + (c.rest.length - rest.length)
          if classNames.contains (String.ofList (inner.takeWhile (· != ':'))) then
            some (.named ⟨c.position, stop⟩ negated, ⟨stop, rest⟩)
          else none
      | _ => none
  | _ => none

/-! ### Brackets -/

/-- Minuses directly after an opening bracket at `start`.  `left` bounds the number of characters to
come. -/
def leadingMinuses (spaced : Bool) (start : Nat) : Nat → Items → Cursor → Reading (Items × Cursor)
  | 0, items, c => .ok (items, c)
  | left + 1, items, c =>
      match c.rest with
      | '-' :: _ =>
          let next := c.advance spaced
          if next.rest.isEmpty then .error (.single .classUnclosed start start)
          else
            leadingMinuses spaced start left (items.push (.literal ⟨c.charSpan, '-', false⟩)) next
      | _ => .ok (items, c)

/-- What stands directly after an opening bracket at `start` and means something of its own only
there. -/
def leadingItems (spaced : Bool) (start : Nat) (c : Cursor) : Reading (Items × Cursor) :=
  match leadingMinuses spaced start c.rest.length (.none c.position) c with
  | .error e => .error e
  | .ok (items, c) =>
      match items.items, c.rest with
      | [], ']' :: _ =>
          let next := c.advance spaced
          if next.rest.isEmpty then next.fail .classUnclosed start
          else .ok (items.push (.literal ⟨c.charSpan, ']', false⟩), next)
      | _, _ => .ok (items, c)

/-- An opening bracket, after the parts of a class around it. -/
def openClass (spaced : Bool) (outer : Items) (c : Cursor) : Reading (OpenClass × Items × Cursor) :=
  let inner := c.advance spaced
  match inner.rest with
  | [] => inner.fail .classUnclosed c.position
  | x :: _ =>
      let negated := x == '^'
      let body := if negated then inner.advance spaced else inner
      if body.rest.isEmpty then body.fail .classUnclosed c.position
      else
        (leadingItems spaced c.position body).map fun (items, after) =>
          (⟨⟨c.position, after.position⟩, negated, outer, none⟩, items, after)

/-- What stands between two signs, a pair of which joins what is on either side. -/
def joins (x : Char) : Bool := x == '&' || x == '-' || x == '~'

/-- A class in brackets that was closed, and what follows it. -/
structure ClosedClass where
  /-- The place of the class. -/
  span : Span
  /-- The class has all other characters. -/
  negated : Bool
  /-- What stands between the brackets. -/
  inner : Class
  /-- What follows. -/
  after : Cursor

/-- Reads on between brackets, of which `current` are the innermost and `around` the others.  `left`
bounds the number of characters to come. -/
def bracketFrom (spaced : Bool) :
    Nat → OpenClass → List OpenClass → Items → Cursor → Reading ClosedClass
  | 0, current, _, _, _ => .error ⟨.classUnclosed, current.opening, none⟩
  | left + 1, current, around, items, c =>
      let c := c.skip spaced
      match c.rest with
      | [] => .error ⟨.classUnclosed, current.opening, none⟩
      | '[' :: _ =>
          match namedClass? c with
          | some (item, after) => bracketFrom spaced left current around (items.push item) after
          | none =>
              match openClass spaced items c with
              | .error e => .error e
              | .ok (inner, first, after) =>
                  bracketFrom spaced left inner (current :: around) first after
      | ']' :: _ =>
          let span : Span := ⟨current.opening.start, c.position + 1⟩
          let inner := current.joined items
          match around with
          | [] => .ok ⟨span, current.negated, inner, c.bump⟩
          | outer :: around =>
              bracketFrom spaced left outer around
                (current.outer.push (.bracketed span current.negated inner)) c.bump
      | x :: rest =>
          if joins x ∧ rest.head? = some x then
            let after := c.bump.bump
            bracketFrom spaced left { current with left := some (current.joined items) } around
              (.none after.position) after
          else
            match classItem spaced current.opening c with
            | .error e => .error e
            | .ok (item, after) =>
                bracketFrom spaced left current around (items.push item) after

/-- A class in brackets, from the opening bracket on. -/
def bracket (spaced : Bool) (c : Cursor) : Reading ClosedClass :=
  match openClass spaced (.none c.position) c with
  | .error e => .error e
  | .ok (first, items, after) => bracketFrom spaced (after.rest.length + 1) first [] items after

end Pattern

end AttributeWire
