/-
**Which byte strings are written forms.**

A written form is a sequence of blocks of four characters: four symbols of the alphabet, or three
and one padding character, or two and two.  These are exactly the byte strings that can be read, and
so no character of a byte string that can be read is a delimiter.

Main definitions:

* `Base64.alphabet` — the symbols, in the order of the bits they stand for;
* `Base64.Block`, `Base64.Blocks` — one block, and a sequence of blocks.

Main results:

* `Base64.isSome_decode?_iff` — **what can be read is a sequence of blocks**;
* `Base64.undelimited_of_decode?` — and keeps clear of the delimiters.
-/

import AttributeWire.Proofs.Base64

set_option relaxedAutoImplicit false
set_option autoImplicit false

namespace AttributeWire

namespace Base64

/-! ### Symbols -/

/-- The symbols of the alphabet. -/
def alphabet : Bytes :=
  Bytes.ofText "ABCDEFGHIJKLMNOPQRSTUVWXYZabcdefghijklmnopqrstuvwxyz0123456789+/"

/-- The symbols stand for six bits in this order. -/
theorem alphabet_eq_map : alphabet = (List.range 64).map symbol := by decide

theorem mem_alphabet_ofNat :
    ∀ n < 256, UInt8.ofNat n ∈ alphabet ↔ (sextet? (UInt8.ofNat n)).isSome := by
  rw [alphabet_eq_map]
  decide +kernel

/-- The symbols are the characters that stand for six bits. -/
theorem mem_alphabet_iff {b : UInt8} : b ∈ alphabet ↔ ∃ bits, sextet? b = some bits := by
  have hmem := mem_alphabet_ofNat b.toNat b.toNat_lt
  rwa [UInt8.ofNat_toNat, Option.isSome_iff_exists] at hmem

/-! ### Blocks -/

/-- A block of four characters. -/
inductive Block : Bytes → Prop
  | full {a b c d : UInt8} (ha : a ∈ alphabet) (hb : b ∈ alphabet) (hc : c ∈ alphabet)
      (hd : d ∈ alphabet) : Block [a, b, c, d]
  | three {a b c : UInt8} (ha : a ∈ alphabet) (hb : b ∈ alphabet) (hc : c ∈ alphabet) :
      Block [a, b, c, pad]
  | two {a b : UInt8} (ha : a ∈ alphabet) (hb : b ∈ alphabet) : Block [a, b, pad, pad]

/-- A sequence of blocks. -/
inductive Blocks : Bytes → Prop
  | nil : Blocks []
  | cons {block rest : Bytes} (hblock : Block block) (hrest : Blocks rest) : Blocks (block ++ rest)

/-- A block is what can be read as one. -/
theorem isSome_block?_iff {a b c d : UInt8} : (block? a b c d).isSome ↔ Block [a, b, c, d] := by
  constructor
  · intro h
    unfold block? at h
    split at h
    · rename_i i j k l ha hb hc hd
      exact .full (mem_alphabet_iff.2 ⟨i, ha⟩) (mem_alphabet_iff.2 ⟨j, hb⟩)
        (mem_alphabet_iff.2 ⟨k, hc⟩) (mem_alphabet_iff.2 ⟨l, hd⟩)
    · rename_i i j k ha hb hc hd
      split at h
      · rename_i hpad
        exact hpad ▸ .three (mem_alphabet_iff.2 ⟨i, ha⟩) (mem_alphabet_iff.2 ⟨j, hb⟩)
          (mem_alphabet_iff.2 ⟨k, hc⟩)
      · simp at h
    · rename_i i j ha hb hc hd
      split at h
      · rename_i hpad
        exact hpad.1 ▸ hpad.2 ▸ .two (mem_alphabet_iff.2 ⟨i, ha⟩) (mem_alphabet_iff.2 ⟨j, hb⟩)
      · simp at h
    · simp at h
  · intro h
    cases h with
    | full ha hb hc hd =>
        obtain ⟨i, hi⟩ := mem_alphabet_iff.1 ha
        obtain ⟨j, hj⟩ := mem_alphabet_iff.1 hb
        obtain ⟨k, hk⟩ := mem_alphabet_iff.1 hc
        obtain ⟨l, hl⟩ := mem_alphabet_iff.1 hd
        simp [block?, hi, hj, hk, hl]
    | three ha hb hc =>
        obtain ⟨i, hi⟩ := mem_alphabet_iff.1 ha
        obtain ⟨j, hj⟩ := mem_alphabet_iff.1 hb
        obtain ⟨k, hk⟩ := mem_alphabet_iff.1 hc
        simp [block?, hi, hj, hk]
    | two ha hb =>
        obtain ⟨i, hi⟩ := mem_alphabet_iff.1 ha
        obtain ⟨j, hj⟩ := mem_alphabet_iff.1 hb
        simp [block?, hi, hj]

theorem isSome_decode?_cons {a b c d : UInt8} {rest : Bytes} :
    (decode? (a :: b :: c :: d :: rest)).isSome ↔
      (block? a b c d).isSome ∧ (decode? rest).isSome := by
  rw [decode?]
  cases block? a b c d <;> cases decode? rest <;> simp

/-- **What can be read is a sequence of blocks.** -/
theorem isSome_decode?_iff {raw : Bytes} : (decode? raw).isSome ↔ Blocks raw := by
  constructor
  · intro h
    fun_induction decode? raw with
    | case1 => exact .nil
    | case2 a b c d rest block bytes hrest hblock ih =>
        have hcons : Block [a, b, c, d] := isSome_block?_iff.1 (by simp [hblock])
        exact .cons hcons (ih (by simp [hrest]))
    | case3 => simp at h
    | case4 => simp at h
  · intro h
    induction h with
    | nil => rfl
    | @cons block rest hblock _ ih =>
        have hsome : ∀ a b c d, Block [a, b, c, d] →
            (decode? ([a, b, c, d] ++ rest)).isSome := fun a b c d h =>
          isSome_decode?_cons.2 ⟨isSome_block?_iff.2 h, ih⟩
        cases hblock with
        | full ha hb hc hd => exact hsome _ _ _ _ (.full ha hb hc hd)
        | three ha hb hc => exact hsome _ _ _ _ (.three ha hb hc)
        | two ha hb => exact hsome _ _ _ _ (.two ha hb)

/-! ### No delimiters -/

theorem ofByte?_of_mem_alphabet {b : UInt8} (h : b ∈ alphabet) : Delimiter.ofByte? b = none := by
  rw [alphabet_eq_map, List.mem_map] at h
  obtain ⟨bits, -, rfl⟩ := h
  exact ofByte?_symbol bits

theorem Block.undelimited {block : Bytes} (h : Block block) : block.Undelimited := by
  have hpad : Delimiter.ofByte? pad = none := by decide
  cases h with
  | full ha hb hc hd => simp [ofByte?_of_mem_alphabet, *]
  | three ha hb hc => simp [ofByte?_of_mem_alphabet, *]
  | two ha hb => simp [ofByte?_of_mem_alphabet, *]

theorem Blocks.undelimited {raw : Bytes} (h : Blocks raw) : raw.Undelimited := by
  induction h with
  | nil => exact Bytes.undelimited_nil
  | cons hblock _ ih => exact Bytes.undelimited_append.2 ⟨hblock.undelimited, ih⟩

/-- What can be read keeps clear of the delimiters. -/
theorem undelimited_of_decode? {raw plain : Bytes} (h : decode? raw = some plain) :
    raw.Undelimited :=
  (isSome_decode?_iff.1 (by rw [h]; rfl)).undelimited

end Base64

end AttributeWire
