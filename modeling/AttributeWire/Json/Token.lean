/-
**Tokens of JSON.**

A text is cut into tokens one character at a time.  Strings keep their escapes for 16-bit code units
apart from their characters, because what a unit means depends on the one after it, and because a
string that nobody looks at may hold units that mean nothing.

Main definitions:

* `Json.Token`, `Json.Piece` — a token, and one piece of a string;
* `Json.tokens?` — the tokens of a text;
* `Json.decodePieces` — the characters of a string.
-/

import AttributeWire.Json.Number
import AttributeWire.Text.Hexadecimal

set_option relaxedAutoImplicit false
set_option autoImplicit false

namespace AttributeWire

namespace Json

/-- One piece of a string. -/
inductive Piece where
  /-- A character, written as such or by a short escape. -/
  | char (c : Char)
  /-- A 16-bit code unit, written by its number. -/
  | unit (code : Nat)
deriving DecidableEq, Repr

/-- A token. -/
inductive Token where
  | openBracket
  | closeBracket
  | openBrace
  | closeBrace
  | colon
  | comma
  | null
  | boolean (value : Bool)
  | number (numeral : Numeral)
  | string (pieces : List Piece)
deriving DecidableEq, Repr

/-! ### Strings -/

/-- The characters of a string.  Two units for a surrogate pair make one character; a surrogate
alone makes none, and then the string has no characters to give. -/
def decodePieces : List Piece → Option (List Char)
  | [] => some []
  | .char c :: rest => (decodePieces rest).map (c :: ·)
  | .unit high :: rest =>
      if high < 0xD800 ∨ 0xDFFF < high then (decodePieces rest).map (Char.ofNat high :: ·)
      else
        match rest with
        | .unit low :: rest =>
            if high < 0xDC00 ∧ 0xDC00 ≤ low ∧ low ≤ 0xDFFF then
              (decodePieces rest).map
                (Char.ofNat (0x10000 + (high - 0xD800) * 0x400 + (low - 0xDC00)) :: ·)
            else none
        | _ => none

/-- The character of a short escape. -/
def shortEscape? (c : Char) : Option Char :=
  if c = '"' ∨ c = '\\' ∨ c = '/' then some c
  else if c = 'b' then some '\x08'
  else if c = 'f' then some '\x0c'
  else if c = 'n' then some '\n'
  else if c = 'r' then some '\r'
  else if c = 't' then some '\t'
  else none

/-! ### The machine -/

/-- What the next character belongs to.  Characters that were read are kept last first. -/
inductive Mode where
  /-- The space between tokens. -/
  | between
  /-- A word of letters. -/
  | word (chars : List Char)
  /-- A numeral. -/
  | numeral (chars : List Char)
  /-- A string. -/
  | string (pieces : List Piece)
  /-- A string, after a backslash. -/
  | escape (pieces : List Piece)
  /-- A string, in the number of a code unit with so many digits to come. -/
  | unit (pieces : List Piece) (left : Nat) (code : Nat)
deriving DecidableEq, Repr

/-- The tokens a character completes, and what the next one belongs to. -/
abbrev Step : Type := Option (List Token × Mode)

/-- A character between tokens. -/
def start (c : Char) : Step :=
  if c = ' ' ∨ c = '\t' ∨ c = '\n' ∨ c = '\r' then some ([], .between)
  else if c = '[' then some ([.openBracket], .between)
  else if c = ']' then some ([.closeBracket], .between)
  else if c = '\x7b' then some ([.openBrace], .between)
  else if c = '\x7d' then some ([.closeBrace], .between)
  else if c = ':' then some ([.colon], .between)
  else if c = ',' then some ([.comma], .between)
  else if c = '"' then some ([], .string [])
  else if c.isDigit ∨ c = '-' then some ([], .numeral [c])
  else if c.isAlpha then some ([], .word [c])
  else none

/-- The token of a word. -/
def wordToken? (chars : List Char) : Option Token :=
  if chars = "null".toList then some .null
  else if chars = "true".toList then some (.boolean true)
  else if chars = "false".toList then some (.boolean false)
  else none

/-- The token that the end of its characters completes, if there is one. -/
def complete? : Mode → Option (List Token)
  | .between => some []
  | .word chars => (wordToken? chars.reverse).map fun token => [token]
  | .numeral chars => (Numeral.ofChars? chars.reverse).map fun n => [.number n]
  | _ => none

/-- A character that a numeral may go on with. -/
def isNumeralChar (c : Char) : Bool :=
  c.isDigit || c == '.' || c == 'e' || c == 'E' || c == '+' || c == '-'

/-- Completes a token and begins the next one with the character. -/
def turn (mode : Mode) (c : Char) : Step :=
  match complete? mode, start c with
  | some done, some (more, next) => some (done ++ more, next)
  | _, _ => none

/-- One character. -/
def step (mode : Mode) (c : Char) : Step :=
  match mode with
  | .between => start c
  | .word chars => if c.isAlpha then some ([], .word (c :: chars)) else turn mode c
  | .numeral chars => if isNumeralChar c then some ([], .numeral (c :: chars)) else turn mode c
  | .string pieces =>
      if c = '"' then some ([.string pieces.reverse], .between)
      else if c = '\\' then some ([], .escape pieces)
      else if c.toNat < 32 then none
      else some ([], .string (.char c :: pieces))
  | .escape pieces =>
      if c = 'u' then some ([], .unit pieces 4 0)
      else (shortEscape? c).map fun e => ([], .string (.char e :: pieces))
  | .unit pieces left code =>
      (Hexadecimal.digit? c).map fun d =>
        if left ≤ 1 then ([], .string (.unit (code * 16 + d) :: pieces))
        else ([], .unit pieces (left - 1) (code * 16 + d))

/-- The tokens of what follows. -/
def tokensFrom (mode : Mode) : List Char → Option (List Token)
  | [] => complete? mode
  | c :: rest =>
      match step mode c with
      | none => none
      | some (done, next) => (tokensFrom next rest).map (done ++ ·)

/-- The tokens of a text. -/
def tokens? (text : List Char) : Option (List Token) := tokensFrom .between text

end Json

end AttributeWire
