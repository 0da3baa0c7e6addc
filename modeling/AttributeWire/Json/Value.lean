/-
**JSON documents.**

A document is read from its tokens one at a time, with a stack of the arrays and objects that are
still open.  Members of an object stay in order and may repeat a name; numerals and strings keep
what was written, since whether they mean anything is for whoever uses them to say.

Main definitions:

* `Json.Value` — a document;
* `Json.Frame`, `Json.Place` — an open array or object, and what the next token has to be;
* `Json.parse?` — the document a text is.
-/

import AttributeWire.Json.Token

set_option relaxedAutoImplicit false
set_option autoImplicit false

namespace AttributeWire

namespace Json

/-- A document. -/
inductive Value where
  | null
  | boolean (value : Bool)
  | number (numeral : Numeral)
  | string (pieces : List Piece)
  | array (items : List Value)
  | object (members : List (List Piece × Value))

/-- An array or object that is still open. -/
inductive Frame where
  /-- An array with the items before the current one. -/
  | array (items : List Value)
  /-- An object with the members before the current one, and the name of that. -/
  | object (members : List (List Piece × Value)) (name : List Piece)

/-- What the next token has to be. -/
inductive Place where
  /-- A value. -/
  | value
  /-- The first item of an array, or its end. -/
  | firstItem
  /-- The first name in an object, or its end. -/
  | firstName
  /-- The name of a member after others. -/
  | name (members : List (List Piece × Value))
  /-- The colon after a name. -/
  | colon (members : List (List Piece × Value)) (name : List Piece)
  /-- What follows a value in the innermost array or object. -/
  | after (value : Value)

/-- Where a reader stands between two tokens. -/
structure State where
  /-- The open arrays and objects, innermost first. -/
  frames : List Frame
  /-- What the next token has to be. -/
  place : Place

/-- A token where a value has to be. -/
def beginValue (frames : List Frame) : Token → Option State
  | .null => some ⟨frames, .after .null⟩
  | .boolean b => some ⟨frames, .after (.boolean b)⟩
  | .number n => some ⟨frames, .after (.number n)⟩
  | .string s => some ⟨frames, .after (.string s)⟩
  | .openBracket => some ⟨.array [] :: frames, .firstItem⟩
  -- an object is put on the stack with its first name
  | .openBrace => some ⟨frames, .firstName⟩
  | _ => none

/-- A token after a value. -/
def endValue (value : Value) : List Frame → Token → Option State
  | .array items :: frames, .comma => some ⟨.array (items ++ [value]) :: frames, .value⟩
  | .array items :: frames, .closeBracket =>
      some ⟨frames, .after (.array (items ++ [value]))⟩
  | .object members name :: frames, .comma =>
      some ⟨frames, .name (members ++ [(name, value)])⟩
  | .object members name :: frames, .closeBrace =>
      some ⟨frames, .after (.object (members ++ [(name, value)]))⟩
  | _, _ => none

/-- One token. -/
def State.step (s : State) (token : Token) : Option State :=
  match s.place, token with
  | .value, token => beginValue s.frames token
  | .firstItem, .closeBracket => some ⟨s.frames.tail, .after (.array [])⟩
  | .firstItem, token => beginValue s.frames token
  | .firstName, .closeBrace => some ⟨s.frames, .after (.object [])⟩
  | .firstName, .string name => some ⟨s.frames, .colon [] name⟩
  | .name members, .string name => some ⟨s.frames, .colon members name⟩
  | .colon members name, .colon => some ⟨.object members name :: s.frames, .value⟩
  | .after value, token => endValue value s.frames token
  | _, _ => none

/-- The document of the tokens that follow. -/
def State.run (s : State) : List Token → Option Value
  | [] =>
      match s with
      | ⟨[], .after value⟩ => some value
      | _ => none
  | token :: rest =>
      match s.step token with
      | some s => s.run rest
      | none => none

/-- The document a text is. -/
def parse? (text : List Char) : Option Value :=
  match tokens? text with
  | some tokens => State.run ⟨[], .value⟩ tokens
  | none => none

end Json

end AttributeWire
