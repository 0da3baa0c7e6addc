/-
**Tokens of TOML.**

A text is cut into tokens one character at a time.  Comments leave no token, strings are decoded,
and everything that is neither a string nor punctuation is an atom, a run of characters whose
meaning depends on where it stands.  Blanks are kept, because some things may be spaced out and
others may not.

A string stands between single or double quotation marks, of which a single one ends it on its line
and three let it run over lines.  A string over lines may end in one or two marks of its own, so its
end is known only at the character after it.

Main definitions:

* `Toml.Token`, `Toml.Quote` — a token, and the two kinds of quotation mark;
* `Toml.Mode`, `Toml.step` — what the next character belongs to, and one character of progress;
* `Toml.Lexeme` — a token with its place in the text;
* `Toml.tokens?` — the tokens of a text.
-/

import AttributeWire.Text.Excerpt
import AttributeWire.Text.Hexadecimal

set_option relaxedAutoImplicit false
set_option autoImplicit false

namespace AttributeWire

namespace Toml

/-- A token. -/
inductive Token where
  | blank (chars : List Char)
  | newline
  | dot
  | equals
  | comma
  | openBracket
  | closeBracket
  | openBrace
  | closeBrace
  | atom (chars : List Char)
  | string (chars : List Char) (multiline : Bool)
deriving DecidableEq, Repr

/-- A kind of quotation mark. -/
inductive Quote where
  /-- The double mark: backslashes begin escapes. -/
  | basic
  /-- The single mark: every character stands for itself. -/
  | literal
deriving DecidableEq, Repr

/-- The mark itself. -/
def Quote.mark : Quote → Char
  | basic => '"'
  | literal => '\''

/-- What the next character belongs to.  Characters that were read are kept last first. -/
inductive Mode where
  /-- A new token. -/
  | between
  /-- A run of blanks. -/
  | blank (chars : List Char)
  /-- An atom. -/
  | atom (chars : List Char)
  /-- A comment. -/
  | comment
  /-- A line end, after its carriage return. -/
  | carriage
  /-- A string, after one mark. -/
  | opened (quote : Quote)
  /-- A string, after two marks. -/
  | openedTwice (quote : Quote)
  /-- A string over lines, directly after its three marks. -/
  | openedThrice (quote : Quote)
  /-- The same after a carriage return. -/
  | openedCarriage (quote : Quote)
  /-- A string on one line. -/
  | single (quote : Quote) (chars : List Char)
  /-- A string over lines, after so many marks in a row. -/
  | multi (quote : Quote) (chars : List Char) (marks : Nat)
  /-- A string over lines, after a carriage return. -/
  | multiCarriage (quote : Quote) (chars : List Char)
  /-- After a backslash. -/
  | escape (multiline : Bool) (chars : List Char)
  /-- In the number of a character with so many digits to come. -/
  | hex (multiline : Bool) (chars : List Char) (left : Nat) (code : Nat)
  /-- In the space that a backslash at the end of a line takes out, before or after the line
  end. -/
  | fold (chars : List Char) (lineEnded : Bool)
  /-- The same after a carriage return. -/
  | foldCarriage (chars : List Char)
deriving DecidableEq, Repr

/-- What a character does. -/
structure Progress where
  /-- The token that ends before the character. -/
  before : Option Token
  /-- The token that ends with the character. -/
  upTo : Option Token
  /-- What the next character belongs to. -/
  next : Mode

/-- What a character does, if it may stand where it stands. -/
abbrev Step : Type := Option Progress

/-- The character completes no token. -/
def Step.go (mode : Mode) : Step := some ⟨none, none, mode⟩

/-- The character is the last of a token. -/
def Step.done (token : Token) : Step := some ⟨none, some token, .between⟩

/-- A token with its place in the text. -/
structure Lexeme where
  /-- The token. -/
  token : Token
  /-- Its place, to which belongs what was passed over in front of it. -/
  span : Span
deriving DecidableEq, Repr

/-! ### Characters -/

/-- A control character, which may stand nowhere. -/
def isForbidden (c : Char) : Bool := (c.toNat < 32 && c != '\t') || c.toNat == 127

/-- A character that ends an atom. -/
def isPunctuation (c : Char) : Bool :=
  [' ', '\t', '\n', '\r', '#', '.', '=', ',', '[', ']', '\x7b', '\x7d', '"', '\''].contains c

/-- The character of a short escape. -/
def shortEscape? (c : Char) : Option Char :=
  if c = '"' ∨ c = '\\' then some c
  else if c = 'b' then some '\x08'
  else if c = 't' then some '\t'
  else if c = 'n' then some '\n'
  else if c = 'f' then some '\x0c'
  else if c = 'r' then some '\r'
  else if c = 'e' then some '\x1b'
  else none

/-- The number of digits in an escape by number. -/
def escapeLength? (c : Char) : Option Nat :=
  if c = 'x' then some 2
  else if c = 'u' then some 4
  else if c = 'U' then some 8
  else none

/-! ### The machine -/

/-- The first character of a token. -/
def start (c : Char) : Step :=
  if c = ' ' ∨ c = '\t' then .go (.blank [c])
  else if c = '\n' then .done .newline
  else if c = '\r' then .go .carriage
  else if c = '#' then .go .comment
  else if c = '.' then .done .dot
  else if c = '=' then .done .equals
  else if c = ',' then .done .comma
  else if c = '[' then .done .openBracket
  else if c = ']' then .done .closeBracket
  else if c = '\x7b' then .done .openBrace
  else if c = '\x7d' then .done .closeBrace
  else if c = '"' then .go (.opened .basic)
  else if c = '\'' then .go (.opened .literal)
  else .go (.atom [c])

/-- Completes a token and begins the next one with the character. -/
def turn (token : Token) (c : Char) : Step :=
  (start c).map fun progress => { progress with before := some token }

/-- A string on one line goes on, or ends. -/
def stepSingle (quote : Quote) (chars : List Char) (c : Char) : Step :=
  if c = quote.mark then .done (.string chars.reverse false)
  else if c = '\\' ∧ quote = .basic then .go (.escape false chars)
  else if isForbidden c then none
  else .go (.single quote (c :: chars))

/-- A string over lines goes on with a character that is no mark. -/
def stepMulti (quote : Quote) (chars : List Char) (c : Char) : Step :=
  if c = '\\' ∧ quote = .basic then .go (.escape true chars)
  else if c = '\n' then .go (.multi quote (c :: chars) 0)
  else if c = '\r' then .go (.multiCarriage quote chars)
  else if isForbidden c then none
  else .go (.multi quote (c :: chars) 0)

/-- The characters of a string over lines with `marks` more marks at its end. -/
def withMarks (quote : Quote) (chars : List Char) (marks : Nat) : List Char :=
  List.replicate marks quote.mark ++ chars

/-- The token of a string over lines that ends in this many marks, of which three close it. -/
def multiToken (quote : Quote) (chars : List Char) (marks : Nat) : Token :=
  .string (withMarks quote chars (marks - 3)).reverse true

/-- A string goes on after an escape. -/
def resume (multiline : Bool) (chars : List Char) : Mode :=
  if multiline then .multi .basic chars 0 else .single .basic chars

/-- One character. -/
def step (mode : Mode) (c : Char) : Step :=
  match mode with
  | .between => start c
  | .blank chars =>
      if c = ' ' ∨ c = '\t' then .go (.blank (c :: chars)) else turn (.blank chars.reverse) c
  | .atom chars =>
      -- control characters stay in the atom, which then has no meaning
      if isPunctuation c then turn (.atom chars.reverse) c else .go (.atom (c :: chars))
  | .comment =>
      if c = '\n' then .done .newline
      else if c = '\r' then .go .carriage
      else if isForbidden c then none
      else .go .comment
  | .carriage => if c = '\n' then .done .newline else none
  | .opened quote =>
      if c = quote.mark then .go (.openedTwice quote) else stepSingle quote [] c
  | .openedTwice quote =>
      if c = quote.mark then .go (.openedThrice quote) else turn (.string [] false) c
  | .openedThrice quote =>
      if c = '\n' then .go (.multi quote [] 0)
      else if c = '\r' then .go (.openedCarriage quote)
      else if c = quote.mark then .go (.multi quote [] 1)
      else stepMulti quote [] c
  | .openedCarriage quote => if c = '\n' then .go (.multi quote [] 0) else none
  | .single quote chars => stepSingle quote chars c
  | .multi quote chars marks =>
      -- of five marks in a row two belong to the string and three end it
      if c = quote.mark ∧ marks < 5 then .go (.multi quote chars (marks + 1))
      else if 3 ≤ marks then turn (multiToken quote chars marks) c
      else stepMulti quote (withMarks quote chars marks) c
  | .multiCarriage quote chars =>
      if c = '\n' then .go (.multi quote ('\n' :: '\r' :: chars) 0) else none
  | .escape multiline chars =>
      match shortEscape? c, escapeLength? c with
      | some e, _ => .go (resume multiline (e :: chars))
      | none, some length => .go (.hex multiline chars length 0)
      | none, none =>
          if !multiline then none
          else if c = ' ' ∨ c = '\t' then .go (.fold chars false)
          else if c = '\n' then .go (.fold chars true)
          else if c = '\r' then .go (.foldCarriage chars)
          else none
  | .hex multiline chars left code =>
      match Hexadecimal.digit? c with
      | none => none
      | some d =>
          if 1 < left then .go (.hex multiline chars (left - 1) (code * 16 + d))
          else
            (Hexadecimal.char? (code * 16 + d)).map fun e =>
              ⟨none, none, resume multiline (e :: chars)⟩
  | .fold chars lineEnded =>
      if c = ' ' ∨ c = '\t' then .go (.fold chars lineEnded)
      else if c = '\n' then .go (.fold chars true)
      else if c = '\r' then .go (.foldCarriage chars)
      else if !lineEnded then none
      else if c = '"' then .go (.multi .basic chars 1)
      else stepMulti .basic chars c
  | .foldCarriage chars => if c = '\n' then .go (.fold chars true) else none

/-- A mode in which the text may end. -/
def mayEnd : Mode → Bool
  | .between => true
  | .blank _ => true
  | .atom _ => true
  | .comment => true
  | .openedTwice _ => true
  | .multi _ _ marks => 3 ≤ marks
  | _ => false

/-- The token that the end of the text completes. -/
def last? : Mode → Option Token
  | .blank chars => some (.blank chars.reverse)
  | .atom chars => some (.atom chars.reverse)
  | .openedTwice _ => some (.string [] false)
  | .multi quote chars marks => some (multiToken quote chars marks)
  | _ => none

/-- A token, if there is one, between two positions, in front of others. -/
def put (token : Option Token) (start stop : Nat) (lexemes : List Lexeme) : List Lexeme :=
  match token with
  | some token => ⟨token, ⟨start, stop⟩⟩ :: lexemes
  | none => lexemes

/-- The tokens of what follows.  The characters from `start` up to `position` were read and are part
of no token yet. -/
def tokensFrom (mode : Mode) (start position : Nat) : List Char → Option (List Lexeme)
  | [] => if mayEnd mode then some (put (last? mode) start position []) else none
  | c :: rest =>
      match step mode c with
      | none => none
      | some progress =>
          let middle := if progress.before.isSome then position else start
          let next := if progress.upTo.isSome then position + 1 else middle
          (tokensFrom progress.next next (position + 1) rest).map fun lexemes =>
            put progress.before start position (put progress.upTo middle (position + 1) lexemes)

/-- The tokens of a text.  A byte order mark in front is passed over. -/
def tokens? : List Char → Option (List Lexeme)
  | '\uFEFF' :: text => tokensFrom .between 1 1 text
  | text => tokensFrom .between 0 0 text

end Toml

end AttributeWire
