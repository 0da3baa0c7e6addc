/-
**Padded base64.**

Every name and value is written in the standard base64 alphabet, three bytes as four symbols, the
last block filled up with `=`.  Reading is more generous than writing in two ways: the bits left
over in the last symbol of a padded block are ignored, and a padded block may stand anywhere, so
that two written forms one after the other are a written form of the two byte strings joined.

Main definitions:

* `Base64.symbol`, `Base64.sextet?` — the alphabet and its inverse;
* `Base64.encode` — the written form of a byte string;
* `Base64.block?` — the bytes of one block of four characters;
* `Base64.decode?` — the bytes of a sequence of blocks.
-/

import AttributeWire.Bytes

set_option relaxedAutoImplicit false
set_option autoImplicit false

namespace AttributeWire

namespace Base64

/-! ### The alphabet -/

/-- The padding character `=`. -/
abbrev pad : UInt8 := 61

/-- The symbol for six bits, given as a number below 64. -/
def symbol (bits : Nat) : UInt8 :=
  if bits < 26 then UInt8.ofNat (65 + bits)
  else if bits < 52 then UInt8.ofNat (97 + (bits - 26))
  else if bits < 62 then UInt8.ofNat (48 + (bits - 52))
  else if bits = 62 then 43
  else 47

/-- The six bits a character of the alphabet stands for. -/
def sextet? (b : UInt8) : Option Nat :=
  if 65 ≤ b ∧ b ≤ 90 then some (b.toNat - 65)
  else if 97 ≤ b ∧ b ≤ 122 then some (b.toNat - 97 + 26)
  else if 48 ≤ b ∧ b ≤ 57 then some (b.toNat - 48 + 52)
  else if b = 43 then some 62
  else if b = 47 then some 63
  else none

theorem sextet?_symbol {bits : Nat} (h : bits < 64) : sextet? (symbol bits) = some bits := by
  revert bits
  decide

@[simp] theorem sextet?_pad : sextet? pad = none := rfl

/-! ### Writing -/

/-- The written form: four symbols for three bytes, the last block padded. -/
def encode : Bytes → Bytes
  | [] => []
  | [a] => [symbol (a.toNat / 4), symbol (a.toNat % 4 * 16), pad, pad]
  | [a, b] =>
      [symbol (a.toNat / 4), symbol (a.toNat % 4 * 16 + b.toNat / 16),
        symbol (b.toNat % 16 * 4), pad]
  | a :: b :: c :: rest =>
      symbol (a.toNat / 4) :: symbol (a.toNat % 4 * 16 + b.toNat / 16) ::
        symbol (b.toNat % 16 * 4 + c.toNat / 64) :: symbol (c.toNat % 64) :: encode rest

@[simp] theorem encode_nil : encode [] = [] := rfl

/-- The length of the written form depends on the length of the byte string only. -/
theorem length_encode : ∀ bytes : Bytes, (encode bytes).length = (bytes.length + 2) / 3 * 4
  | [] => rfl
  | [_] => by simp [encode]
  | [_, _] => by simp [encode]
  | _ :: _ :: _ :: rest => by
      simp only [encode, List.length_cons, length_encode rest]
      omega

/-! ### Reading -/

/-- The bytes of one block: four symbols are three bytes, three symbols and a padding character
two, two symbols and two padding characters one. -/
def block? (a b c d : UInt8) : Option Bytes :=
  match sextet? a, sextet? b, sextet? c, sextet? d with
  | some i, some j, some k, some l =>
      some [UInt8.ofNat (i * 4 + j / 16), UInt8.ofNat (j % 16 * 16 + k / 4),
        UInt8.ofNat (k % 4 * 64 + l)]
  | some i, some j, some k, none =>
      if d = pad then
        some [UInt8.ofNat (i * 4 + j / 16), UInt8.ofNat (j % 16 * 16 + k / 4)]
      else none
  | some i, some j, none, none =>
      if c = pad ∧ d = pad then some [UInt8.ofNat (i * 4 + j / 16)] else none
  | _, _, _, _ => none

/-- The bytes of a sequence of blocks. -/
def decode? : Bytes → Option Bytes
  | [] => some []
  | a :: b :: c :: d :: rest =>
      match block? a b c d, decode? rest with
      | some block, some bytes => some (block ++ bytes)
      | _, _ => none
  | _ => none

@[simp] theorem decode?_nil : decode? [] = some [] := rfl

end Base64

end AttributeWire
