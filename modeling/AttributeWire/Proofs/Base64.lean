/-
**The written form of a byte string reads back, and keeps clear of the delimiters.**

`Base64.encode` and `Base64.decode?` are written block by block, and so are the proofs here: a block
of three, two or one bytes reads back, and hence a byte string of any length does.  Every character
of a written form is a symbol of the alphabet or the padding character, so that a written form can
stand before a colon or a newline and be found again.

Main results:

* `Base64.decode?_encode` — **what is written reads back**;
* `Base64.undelimited_encode` — no character of a written form is a delimiter;
* `Base64.eq_nil_of_decode?` — only nothing is read as nothing.
-/

import AttributeWire.Proofs.Field

set_option relaxedAutoImplicit false
set_option autoImplicit false

namespace AttributeWire

namespace Base64

/-! ### The alphabet -/

/-- A symbol of the alphabet is no delimiter. -/
theorem ofByte?_symbol (bits : Nat) : Delimiter.ofByte? (symbol bits) = none := by
  by_cases h : bits < 64
  · revert bits
    decide
  · have hsymbol : symbol bits = 47 := by
      unfold symbol
      repeat rw [if_neg (by omega)]
    rw [hsymbol]
    rfl

theorem undelimited_encode : ∀ bytes : Bytes, (encode bytes).Undelimited
  | [] => by simp [encode]
  | [_] => by simp [encode, ofByte?_symbol]; decide
  | [_, _] => by simp [encode, ofByte?_symbol]; decide
  | _ :: _ :: _ :: rest => by simp [encode, ofByte?_symbol, undelimited_encode rest]

/-! ### Blocks -/

theorem ofNat_eq_of_toNat {n : Nat} {b : UInt8} (h : n = b.toNat) : UInt8.ofNat n = b := by
  rw [h, UInt8.ofNat_toNat]

/-- A block of three bytes reads back. -/
theorem block?_three (a b c : UInt8) :
    block? (symbol (a.toNat / 4)) (symbol (a.toNat % 4 * 16 + b.toNat / 16))
      (symbol (b.toNat % 16 * 4 + c.toNat / 64)) (symbol (c.toNat % 64)) = some [a, b, c] := by
  have ha := a.toNat_lt
  have hb := b.toNat_lt
  have hc := c.toNat_lt
  rw [block?, sextet?_symbol (by omega), sextet?_symbol (by omega), sextet?_symbol (by omega),
    sextet?_symbol (by omega)]
  simp only [Option.some.injEq, List.cons.injEq, and_true]
  refine ⟨ofNat_eq_of_toNat ?_, ofNat_eq_of_toNat ?_, ofNat_eq_of_toNat ?_⟩ <;> omega

/-- A block of two bytes reads back. -/
theorem block?_two (a b : UInt8) :
    block? (symbol (a.toNat / 4)) (symbol (a.toNat % 4 * 16 + b.toNat / 16))
      (symbol (b.toNat % 16 * 4)) pad = some [a, b] := by
  have ha := a.toNat_lt
  have hb := b.toNat_lt
  rw [block?, sextet?_symbol (by omega), sextet?_symbol (by omega), sextet?_symbol (by omega),
    sextet?_pad]
  simp only [if_pos, Option.some.injEq, List.cons.injEq, and_true]
  refine ⟨ofNat_eq_of_toNat ?_, ofNat_eq_of_toNat ?_⟩ <;> omega

/-- A block of one byte reads back. -/
theorem block?_one (a : UInt8) :
    block? (symbol (a.toNat / 4)) (symbol (a.toNat % 4 * 16)) pad pad = some [a] := by
  have ha := a.toNat_lt
  rw [block?, sextet?_symbol (by omega), sextet?_symbol (by omega), sextet?_pad]
  simp only [and_self, if_pos, Option.some.injEq, List.cons.injEq, and_true]
  refine ofNat_eq_of_toNat ?_
  omega

/-! ### Byte strings -/

/-- **What is written reads back.** -/
theorem decode?_encode : ∀ bytes : Bytes, decode? (encode bytes) = some bytes
  | [] => rfl
  | [a] => by simp [encode, decode?, block?_one]
  | [a, b] => by simp [encode, decode?, block?_two]
  | a :: b :: c :: rest => by simp [encode, decode?, block?_three, decode?_encode rest]

/-! ### The empty byte string -/

theorem block?_ne_nil (a b c d : UInt8) : block? a b c d ≠ some [] := by
  unfold block?
  split
  · simp
  · split <;> simp
  · split <;> simp
  · simp

/-- **Only nothing is read as nothing.** -/
theorem eq_nil_of_decode? {raw : Bytes} (h : decode? raw = some []) : raw = [] := by
  unfold decode? at h
  split at h
  · rfl
  · rename_i a b c d rest
    split at h
    · rename_i block bytes hblock _
      rw [Option.some.injEq, List.append_eq_nil_iff] at h
      exact absurd (h.1 ▸ hblock) (block?_ne_nil a b c d)
    · simp at h
  · simp at h

end Base64

end AttributeWire
