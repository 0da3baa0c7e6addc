/-
**Reading TOML.**

The tokens of a text are read one at a time.  A line is blank, a header, or a key with its value;
values may contain arrays and inline tables, of which the open ones form a stack.  Line ends are
free inside both, except between the parts of a dotted key.  How deep values may be nested is
limited, and so is the number of parts of a key.

Main definitions:

* `Toml.Frame`, `Toml.Place` — an open array or inline table, and what the next token has to be;
* `Toml.Reader` — where a reader stands between two tokens;
* `Toml.parse?` — the document a text is.
-/

import AttributeWire.Toml.Document

set_option relaxedAutoImplicit false
set_option autoImplicit false

namespace AttributeWire

namespace Toml

/-! ### States -/

/-- What a value being read is part of. -/
inductive Frame where
  /-- The pair of a line, whose key it is. -/
  | line (path : List KeyPart)
  /-- An array that begins with a bracket, after these items. -/
  | array (opening : Span) (items : List Node)
  /-- An inline table, after the pairs in it, as the value of a key. -/
  | inline (table : Table) (path : List KeyPart)

/-- What a key being read is part of. -/
inductive KeyUse where
  /-- The pair of a line. -/
  | line
  /-- A header that begins with a bracket. -/
  | header (opening : Span)
  /-- The header of an item. -/
  | item (opening : Span)
  /-- A pair in an inline table. -/
  | inline (table : Table)

/-- What the next token has to be. -/
inductive Place where
  /-- The beginning of a line. -/
  | line
  /-- What follows the opening bracket of a header. -/
  | bracket (opening : Span)
  /-- A part of a key, after these parts. -/
  | keyPart (use : KeyUse) (path : List KeyPart)
  /-- What follows a part of a key. -/
  | keyEnd (use : KeyUse) (path : List KeyPart)
  /-- The equals sign after a key of an inline table and a line end. -/
  | equals (table : Table) (path : List KeyPart)
  /-- The second closing bracket of the header of an item. -/
  | itemEnd (opening : Span) (path : List KeyPart)
  /-- A key of an inline table, or its end. -/
  | key (table : Table)
  /-- A value. -/
  | value
  /-- What follows some atoms and dots of an unquoted value. -/
  | scalar (span : Span) (text : List Char)
  /-- What follows a date and a space. -/
  | dateGap (span : Span) (text : List Char)
  /-- What follows a value in the innermost array or inline table. -/
  | after (node : Node)
  /-- The end of a line. -/
  | lineEnd

/-- Where a reader stands between two tokens. -/
structure Reader where
  /-- The pairs before the first header. -/
  pairs : List (List KeyPart × Node)
  /-- The sections so far, the current one last. -/
  sections : List Section
  /-- What a value being read is part of, innermost first. -/
  frames : List Frame
  /-- What the next token has to be. -/
  place : Place

namespace Reader

/-- The state at the beginning of a text. -/
def initial : Reader := ⟨[], [], [], .line⟩

/-- Goes on at another place. -/
def goto (r : Reader) (place : Place) : Reader := { r with place := place }

/-- How deep arrays and inline tables may be nested. -/
def depthLimit : Nat := 80

/-- How many parts a key may have. -/
def partLimit : Nat := 80

/-! ### Completed parts -/

/-- A pair of a line is complete. -/
def addPair (r : Reader) (path : List KeyPart) (node : Node) : Reader :=
  match r.sections.getLast? with
  | none => { r with pairs := r.pairs ++ [(path, node)] }
  | some s =>
      let grown : Section := { s with pairs := s.pairs ++ [(path, node)] }
      { r with sections := r.sections.dropLast ++ [grown] }

/-- A header is complete. -/
def addHeader (r : Reader) (isItem : Bool) (span : Span) (path : List KeyPart) : Reader :=
  { r with sections := r.sections ++ [⟨isItem, span, path, []⟩], place := .lineEnd }

/-- A value is complete.  The pair of a line is complete with it; in an array or inline table, what
follows decides. -/
def complete (r : Reader) (node : Node) : Reader :=
  match r.frames with
  | [.line path] => { r.addPair path node with frames := [], place := .lineEnd }
  | _ => r.goto (.after node)

/-! ### Keys -/

/-- The characters of a bare key. -/
def isBareKey (chars : List Char) : Bool :=
  chars.all fun c => c.isAlphanum || c == '_' || c == '-'

/-- The part of a key that a token is. -/
def keyPart? (lexeme : Lexeme) : Option KeyPart :=
  match lexeme.token with
  | .atom chars => if isBareKey chars then some ⟨chars, lexeme.span⟩ else none
  | .string chars false => some ⟨chars, lexeme.span⟩
  | _ => none

/-- A part of a key, after other parts. -/
def addPart (r : Reader) (use : KeyUse) (path : List KeyPart) (lexeme : Lexeme) : Option Reader :=
  if path.length < partLimit then
    (keyPart? lexeme).map fun part => r.goto (.keyEnd use (path ++ [part]))
  else none

/-- The equals sign between a key of an inline table and its value. -/
def assign (r : Reader) (table : Table) (path : List KeyPart) : Reader :=
  { r with frames := .inline table path :: r.frames, place := .value }

/-- What follows a part of a key. -/
def endKey (r : Reader) (use : KeyUse) (path : List KeyPart) (lexeme : Lexeme) : Option Reader :=
  match lexeme.token with
  | .blank _ => some r
  | .dot => some (r.goto (.keyPart use path))
  | .equals =>
      match use with
      | .line => some { r with frames := [.line path], place := .value }
      | .inline table => some (r.assign table path)
      | _ => none
  | .newline =>
      match use with
      | .inline table => some (r.goto (.equals table path))
      | _ => none
  | .closeBracket =>
      match use with
      | .header opening => some (r.addHeader false (opening.through lexeme.span) path)
      | .item opening => some (r.goto (.itemEnd opening path))
      | _ => none
  | _ => none

/-- What follows a key of an inline table and a line end. -/
def beginEquals (r : Reader) (table : Table) (path : List KeyPart) (lexeme : Lexeme) :
    Option Reader :=
  match lexeme.token with
  | .blank _ => some r
  | .newline => some r
  | .equals => some (r.assign table path)
  | _ => none

/-! ### Values -/

/-- The value being read is part of an array or inline table. -/
def isInside (r : Reader) : Bool :=
  match r.frames with
  | .array _ _ :: _ => true
  | .inline _ _ :: _ => true
  | _ => false

/-- A token where a value has to be, or, in an array, its end. -/
def beginValue (r : Reader) (lexeme : Lexeme) : Option Reader :=
  match lexeme.token with
  | .blank _ => some r
  | .newline => if r.isInside then some r else none
  | .string chars _ => some (r.complete (.scalar lexeme.span (.string chars)))
  | .atom chars => some (r.goto (.scalar lexeme.span chars))
  | .openBracket =>
      if r.frames.length ≤ depthLimit then
        some { r with frames := .array lexeme.span [] :: r.frames, place := .value }
      else none
  | .openBrace =>
      if r.frames.length ≤ depthLimit then some (r.goto (.key (.empty lexeme.span .inline)))
      else none
  | .closeBracket =>
      match r.frames with
      | .array opening items :: frames =>
          some ({ r with frames := frames }.complete (.array (opening.through lexeme.span) items))
      | _ => none
  | _ => none

/-- The value that an inline table is. -/
def inlineNode (table : Table) (closing : Span) : Node :=
  .table (table.span.through closing) .inline table.entries

/-- A token after a value in an array or inline table. -/
def endValue (r : Reader) (node : Node) (lexeme : Lexeme) : Option Reader :=
  match lexeme.token, r.frames with
  | .blank _, _ => some r
  | .newline, _ => some r
  | .comma, .array opening items :: frames =>
      some { r with frames := .array opening (items ++ [node]) :: frames, place := .value }
  | .closeBracket, .array opening items :: frames =>
      some ({ r with frames := frames }.complete
        (.array (opening.through lexeme.span) (items ++ [node])))
  | .comma, .inline table path :: frames =>
      (table.addPair path node).map fun table =>
        { r with frames := frames, place := .key table }
  | .closeBrace, .inline table path :: frames =>
      (table.addPair path node).map fun table =>
        { r with frames := frames }.complete (inlineNode table lexeme.span)
  | _, _ => none

/-- A token where a key of an inline table has to be, or the end of the table. -/
def beginKey (r : Reader) (table : Table) (lexeme : Lexeme) : Option Reader :=
  match lexeme.token with
  | .blank _ => some r
  | .newline => some r
  | .closeBrace => some (r.complete (inlineNode table lexeme.span))
  | _ => (keyPart? lexeme).map fun part => r.goto (.keyEnd (.inline table) [part])

/-! ### Tokens -/

/-- One token, where no unquoted value is being read. -/
def stepPlain (r : Reader) (lexeme : Lexeme) : Option Reader :=
  match r.place, lexeme.token with
  | .line, .blank _ => some r
  | .line, .newline => some r
  | .line, .openBracket => some (r.goto (.bracket lexeme.span))
  | .line, _ => (keyPart? lexeme).map fun part => r.goto (.keyEnd .line [part])
  | .bracket opening, .openBracket => some (r.goto (.keyPart (.item opening) []))
  | .bracket opening, .blank _ => some (r.goto (.keyPart (.header opening) []))
  | .bracket opening, _ =>
      (keyPart? lexeme).map fun part => r.goto (.keyEnd (.header opening) [part])
  | .keyPart _ _, .blank _ => some r
  | .keyPart use path, _ => r.addPart use path lexeme
  | .keyEnd use path, _ => r.endKey use path lexeme
  | .equals table path, _ => r.beginEquals table path lexeme
  | .itemEnd opening path, .closeBracket =>
      some (r.addHeader true (opening.through lexeme.span) path)
  | .key table, _ => r.beginKey table lexeme
  | .value, _ => r.beginValue lexeme
  | .after node, _ => r.endValue node lexeme
  | .lineEnd, .blank _ => some r
  | .lineEnd, .newline => some (r.goto .line)
  | _, _ => none

/-- An unquoted value is complete. -/
def completeScalar (r : Reader) (span : Span) (text : List Char) : Option Reader :=
  (scalar? text).map fun value => r.complete (.scalar span value)

/-- A token after an unquoted value, which is complete. -/
def leaveScalar (r : Reader) (span : Span) (text : List Char) (lexeme : Lexeme) : Option Reader :=
  match r.completeScalar span text with
  | some r => r.stepPlain lexeme
  | none => none

/-- One token. -/
def step (r : Reader) (lexeme : Lexeme) : Option Reader :=
  match r.place, lexeme.token with
  | .scalar span text, .atom chars =>
      some (r.goto (.scalar (span.through lexeme.span) (text ++ chars)))
  | .scalar span text, .dot => some (r.goto (.scalar (span.through lexeme.span) (text ++ ['.'])))
  -- a single space may join a date and a time
  | .scalar span text, .blank [' '] =>
      if isDate text then some (r.goto (.dateGap span text)) else r.completeScalar span text
  | .scalar span text, _ => r.leaveScalar span text lexeme
  | .dateGap span text, .atom chars =>
      some (r.goto (.scalar (span.through lexeme.span) (text ++ ' ' :: chars)))
  | .dateGap span text, _ => r.leaveScalar span text lexeme
  | _, _ => r.stepPlain lexeme

/-- The document, at the end of the text. -/
def finish (r : Reader) : Option Table :=
  let settled := match r.place with
    | .scalar span text => r.completeScalar span text
    | .dateGap span text => r.completeScalar span text
    | _ => some r
  match settled with
  | none => none
  | some r =>
      match r.place with
      | .line => assemble r.pairs r.sections
      | .lineEnd => assemble r.pairs r.sections
      | _ => none

/-- The document of the tokens that follow. -/
def run (r : Reader) : List Lexeme → Option Table
  | [] => r.finish
  | lexeme :: rest =>
      match r.step lexeme with
      | some r => r.run rest
      | none => none

end Reader

/-- The document a text is. -/
def parse? (text : List Char) : Option Table :=
  match tokens? text with
  | some lexemes => Reader.initial.run lexemes
  | none => none

end Toml

end AttributeWire
