/-
**Encodings in general, and which of them keep clear of the delimiters.**

The wire format works because no encoded field contains a colon or a newline.  This module says so
for any encoding that writes groups of bits as symbols: the characters that an encoded text may
contain are the symbols, the padding character and the line separator, and characters that are only
dropped or replaced in decoding are not among them.

Main definitions:

* `Alphabet` — an encoding of byte strings by symbols for groups of bits;
* `Alphabet.encode` — the text of a byte string;
* `Alphabet.output` — the characters of the specification that go into texts;
* `Alphabet.delimiter?` — the first of them that is a delimiter of the wire format.
-/

import AttributeWire.Bytes
import AttributeWire.Text.Quoted

set_option relaxedAutoImplicit false
set_option autoImplicit false

namespace AttributeWire

/-- An encoding of byte strings by symbols for groups of bits. -/
structure Alphabet where
  /-- The symbols, two to the power of the number of bits in a group, in the order of the groups
  they stand for. -/
  symbols : List Char
  /-- What fills up the last block. -/
  padding : Option Char
  /-- Characters that are dropped in decoding. -/
  ignored : List Char
  /-- How long a line is; without lines, zero. -/
  lineWidth : Nat
  /-- What ends a line. -/
  separator : List Char
  /-- Characters that are replaced in decoding, with what they stand for. -/
  translated : List (Char × Char)
deriving DecidableEq, Repr

namespace Alphabet

/-! ### Encoding -/

/-- The number of bits in a group. -/
def width (a : Alphabet) : Nat := a.symbols.length.log2

/-- The bits of a byte string, the most significant bit of a byte first. -/
def bits (bytes : Bytes) : List Bool :=
  bytes.flatMap fun b => [7, 6, 5, 4, 3, 2, 1, 0].map b.toNat.testBit

/-- The number that bits stand for, the most significant bit first. -/
def groupValue (group : List Bool) : Nat := group.foldl (fun n b => 2 * n + b.toNat) 0

/-- Cuts a list into pieces of a length, the last one possibly shorter. -/
def groups {α : Type} (length : Nat) (items : List α) : List (List α) :=
  if items = [] ∨ length = 0 then []
  else items.take length :: groups length (items.drop length)
termination_by items.length
decreasing_by
  rename_i h
  have hpos := List.length_pos_iff.2 (not_or.1 h).1
  have hlen := Nat.pos_of_ne_zero (not_or.1 h).2
  simp only [List.length_drop]
  omega

/-- The symbols of a byte string, the last group filled up with zero bits. -/
def symbolText (a : Alphabet) (bytes : Bytes) : List Char :=
  (groups a.width (bits bytes)).filterMap fun group =>
    a.symbols[groupValue (group ++ List.replicate (a.width - group.length) false)]?

/-- How many symbols a block has: as many as it takes to end on a byte. -/
def blockLength (a : Alphabet) : Nat := Nat.lcm 8 a.width / a.width

/-- How many characters a text of this length lacks to full blocks. -/
def shortfall (a : Alphabet) (length : Nat) : Nat :=
  (a.blockLength - length % a.blockLength) % a.blockLength

/-- The text of a byte string without line ends. -/
def plainText (a : Alphabet) (bytes : Bytes) : List Char :=
  let text := a.symbolText bytes
  match a.padding with
  | some pad => text ++ List.replicate (a.shortfall text.length) pad
  | none => text

/-- The separator, if texts are cut into lines at all. -/
def lineEnd (a : Alphabet) : List Char := if a.lineWidth = 0 then [] else a.separator

/-- The text of a byte string, each line with its end. -/
def encode (a : Alphabet) (bytes : Bytes) : List Char :=
  if a.lineEnd = [] then a.plainText bytes
  else (groups a.lineWidth (a.plainText bytes)).flatMap fun line => line ++ a.lineEnd

/-! ### Delimiters -/

/-- The characters of the specification that go into texts. -/
def output (a : Alphabet) : List Char := a.symbols ++ a.padding.toList ++ a.lineEnd

/-- A character that ends a field on the wire. -/
def IsDelimiter (c : Char) : Prop := c = ':' ∨ c = '\n'

instance (c : Char) : Decidable (IsDelimiter c) := inferInstanceAs (Decidable (c = ':' ∨ c = '\n'))

/-- The first delimiter among the characters that go into texts. -/
def delimiter? (a : Alphabet) : Option Char := a.output.find? fun c => decide (IsDelimiter c)

/-- The text of the fault of an alphabet that contains a delimiter. -/
def delimiterMessage (c : Char) : String :=
  "base64 alphabet contains protocol delimiter " ++ Quoted.char c

/-- There is none exactly if no character that goes into texts is a delimiter. -/
theorem delimiter?_eq_none_iff (a : Alphabet) :
    a.delimiter? = none ↔ ∀ c ∈ a.output, ¬ IsDelimiter c := by
  simp [delimiter?]

end Alphabet

end AttributeWire
