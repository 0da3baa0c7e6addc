/-
**Texts and their bytes.**

What is shown of a byte string is a text even if the bytes are not UTF-8.  The bytes of a text show
as that text: the machine that reads UTF-8 finds the characters again, with no part malformed.
Decimal numbers are the bytes of the usual text of a number.

Main results:

* `Bytes.ofText_ofList` — the bytes of a text are those of its characters;
* `Bytes.ofText_injective` — a text is determined by its bytes;
* `Utf8.partsFrom_encoded` — **the machine finds a character again** that stands in front;
* `Utf8.lossy_ofText` — **the bytes of a text show as the text**;
* `Decimal.ofText_toString`, `Decimal.lossy_encode`, `Decimal.length_encode_le` — decimal text, what
  it shows as, and how long it is.
-/

import AttributeWire.Decimal
import AttributeWire.Text.Utf8
import Mathlib.Algebra.Group.Nat.Defs

set_option relaxedAutoImplicit false
set_option autoImplicit false

namespace AttributeWire

/-! ### The bytes of a text -/

namespace Bytes

theorem ofText_ofList (cs : List Char) :
    ofText (String.ofList cs) = cs.flatMap String.utf8EncodeChar := by
  rw [ofText, String.toByteArray_ofList, List.utf8Encode, List.data_toByteArray,
    List.toList_toArray]

theorem ofText_injective : Function.Injective ofText := by
  intro s t h
  refine String.toByteArray_inj.1 (ByteArray.ext ?_)
  exact Array.toList_inj.1 h

end Bytes

/-! ### Reading the bytes of a text -/

namespace Utf8

/-- The first byte of two. -/
theorem lead_two : ∀ k < 32, 2 ≤ k →
    lead (UInt8.ofNat (k + 192)) = ([], .inside 1 0x80 0xBF k) := by decide

/-- The first byte of three; the second one is bounded below if the bits are zero, and above if they
could begin a surrogate. -/
theorem lead_three : ∀ k < 16, lead (UInt8.ofNat (k + 224)) =
    ([], .inside 2 (if k = 0 then 0xA0 else 0x80) (if k = 13 then 0x9F else 0xBF) k) := by decide

/-- The first byte of four; the second one is bounded below if the bits are zero, and above if they
are those of the last plane. -/
theorem lead_four : ∀ k < 5, lead (UInt8.ofNat (k + 240)) =
    ([], .inside 3 (if k = 0 then 0x90 else 0x80) (if k = 4 then 0x8F else 0xBF) k) := by decide

section

variable {low high : UInt8} {owed bits m : Nat}

/-- A byte between the bounds carries six bits on. -/
theorem step_inside (hm : m < 64) (hlow : low.toNat ≤ m + 128) (hhigh : m + 128 ≤ high.toNat) :
    step (.inside owed low high bits) (UInt8.ofNat (m + 128)) =
      if owed ≤ 1 then ([some (Char.ofNat (bits * 64 + m))], .start)
      else ([], .inside (owed - 1) 0x80 0xBF (bits * 64 + m)) := by
  have hbyte : (UInt8.ofNat (m + 128)).toNat = m + 128 :=
    UInt8.toNat_ofNat_of_lt' (by simp [UInt8.size]; omega)
  have hbits : (m + 128) % 64 = m := by omega
  have hbounds : low ≤ UInt8.ofNat (m + 128) ∧ UInt8.ofNat (m + 128) ≤ high := by
    rw [UInt8.le_iff_toNat_le, UInt8.le_iff_toNat_le, hbyte]
    exact ⟨hlow, hhigh⟩
  simp only [step, if_pos hbounds, hbyte, hbits]

theorem partsFrom_last (rest : Bytes) (hm : m < 64) (hlow : low.toNat ≤ m + 128)
    (hhigh : m + 128 ≤ high.toNat) :
    partsFrom (.inside 1 low high bits) (UInt8.ofNat (m + 128) :: rest) =
      some (Char.ofNat (bits * 64 + m)) :: partsFrom .start rest := by
  rw [partsFrom, step_inside hm hlow hhigh]
  rfl

theorem partsFrom_more (rest : Bytes) (hm : m < 64) (hlow : low.toNat ≤ m + 128)
    (hhigh : m + 128 ≤ high.toNat) :
    partsFrom (.inside (owed + 2) low high bits) (UInt8.ofNat (m + 128) :: rest) =
      partsFrom (.inside (owed + 1) 0x80 0xBF (bits * 64 + m)) rest := by
  rw [partsFrom, step_inside hm hlow hhigh, if_neg (by omega)]
  rfl

end

/-- A first byte that completes nothing leads into the sequence. -/
theorem partsFrom_lead {b : UInt8} {q : State} (h : lead b = ([], q)) (rest : Bytes) :
    partsFrom .start (b :: rest) = partsFrom q rest := by
  simp [partsFrom, step, h]

/-- **The machine finds a character again** that stands in front. -/
theorem partsFrom_encoded (c : Char) (rest : Bytes) :
    partsFrom .start (String.utf8EncodeChar c ++ rest) = some c :: partsFrom .start rest := by
  -- a scalar value is no surrogate and not above U+10FFFF
  have hvalid : c.toNat < 0xD800 ∨ 0xDFFF < c.toNat ∧ c.toNat < 0x110000 := c.valid
  have hc : Char.ofNat c.toNat = c := Char.ofNat_toNat c
  rw [String.utf8EncodeChar, show c.val.toNat = c.toNat from rfl]
  generalize hv : c.toNat = v at hvalid hc
  split
  · rename_i h1
    have hbyte : (UInt8.ofNat v).toNat = v := UInt8.toNat_ofNat_of_lt' (by simp [UInt8.size]; omega)
    have hle : UInt8.ofNat v ≤ 0x7F := by
      rw [UInt8.le_iff_toNat_le, hbyte]
      exact h1
    rw [List.cons_append, List.nil_append, partsFrom_start_cons_of_le hle, hbyte, hc]
  · split
    · rename_i h1 h2
      have hbits : v / 64 % 32 * 64 + v % 64 = v := by omega
      rw [List.cons_append, partsFrom_lead (lead_two _ (by omega) (by omega)), List.cons_append,
        List.nil_append, partsFrom_last rest (by omega) (by simp) (by simp; omega), hbits, hc]
    · split
      · rename_i h1 h2 h3
        have hbits : (v / 4096 % 16 * 64 + v / 64 % 64) * 64 + v % 64 = v := by omega
        -- overlong forms and surrogates are left out by the bounds of the second byte
        have hlow : (if v / 4096 % 16 = 0 then 0xA0 else 0x80 : UInt8).toNat ≤
            v / 64 % 64 + 128 := by
          split <;> simp
          omega
        have hhigh : v / 64 % 64 + 128 ≤
            (if v / 4096 % 16 = 13 then 0x9F else 0xBF : UInt8).toNat := by
          split <;> simp <;> omega
        rw [List.cons_append, partsFrom_lead (lead_three _ (by omega)), List.cons_append,
          partsFrom_more _ (by omega) hlow hhigh,
          List.cons_append, List.nil_append,
          partsFrom_last rest (by omega) (by simp) (by simp; omega), hbits, hc]
      · rename_i h1 h2 h3
        have hbits :
            ((v / 262144 % 8 * 64 + v / 4096 % 64) * 64 + v / 64 % 64) * 64 + v % 64 = v := by
          omega
        have hlow : (if v / 262144 % 8 = 0 then 0x90 else 0x80 : UInt8).toNat ≤
            v / 4096 % 64 + 128 := by
          split <;> simp
          omega
        have hhigh : v / 4096 % 64 + 128 ≤
            (if v / 262144 % 8 = 4 then 0x8F else 0xBF : UInt8).toNat := by
          split <;> simp <;> omega
        rw [List.cons_append, partsFrom_lead (lead_four _ (by omega)), List.cons_append,
          partsFrom_more _ (by omega) hlow hhigh, List.cons_append,
          partsFrom_more _ (by omega) (by simp) (by simp; omega), List.cons_append,
          List.nil_append, partsFrom_last rest (by omega) (by simp) (by simp; omega), hbits, hc]

theorem parts_ofText (text : String) : parts (Bytes.ofText text) = text.toList.map some := by
  rw [← String.ofList_toList (s := text), Bytes.ofText_ofList, String.toList_ofList, parts]
  induction text.toList with
  | nil => rfl
  | cons c cs ih => rw [List.flatMap_cons, partsFrom_encoded, ih, List.map_cons]

/-- **The bytes of a text show as the text.** -/
@[simp] theorem lossy_ofText (text : String) : lossy (Bytes.ofText text) = text := by
  have hid : (fun part : Option Char => part.getD '\uFFFD') ∘ some = id := rfl
  rw [lossy, parts_ofText, List.map_map, hid, List.map_id, String.ofList_toList]

end Utf8

/-! ### Decimal text -/

namespace Decimal

theorem utf8EncodeChar_digitChar : ∀ d < 10,
    String.utf8EncodeChar (Nat.digitChar d) = [digitByte d] := by decide

theorem toDigits_eq (n : Nat) : Nat.toDigits 10 n = (digits n).map Nat.digitChar := by
  induction n using Nat.strongRecOn with
  | ind n ih =>
      by_cases h : n < 10
      · rw [Nat.toDigits_of_lt_base h, digits_of_lt h]
        rfl
      · rw [Nat.toDigits_of_base_le (by decide) (by omega), digits_of_le (by omega),
          ih (n / 10) (by omega), List.map_append]
        rfl

/-- **Decimal numbers are the bytes of the usual text.** -/
theorem ofText_toString (n : Nat) : Bytes.ofText (toString n) = encode n := by
  show Bytes.ofText n.repr = encode n
  rw [Nat.repr_eq_ofList_toDigits, Bytes.ofText_ofList, toDigits_eq, encode]
  have hds := fun d (h : d ∈ digits n) => utf8EncodeChar_digitChar d (lt_ten_of_mem_digits h)
  generalize digits n = ds at hds
  induction ds with
  | nil => rfl
  | cons d ds ih =>
      have hrest := ih fun e he => hds e (List.mem_cons_of_mem _ he)
      rw [List.map_cons, List.flatMap_cons, hds d List.mem_cons_self, hrest]
      rfl

/-- Decimal numbers show as the usual text. -/
theorem lossy_encode (n : Nat) : Utf8.lossy (encode n) = toString n := by
  rw [← ofText_toString, Utf8.lossy_ofText]

/-- The number of digits of a number below a power of ten. -/
theorem length_encode_le {n k : Nat} (hk : 0 < k) (h : n < 10 ^ k) : (encode n).length ≤ k := by
  rw [encode, List.length_map]
  induction k generalizing n with
  | zero => exact absurd hk (Nat.lt_irrefl 0)
  | succ k ih =>
      by_cases hn : n < 10
      · rw [digits_of_lt hn]
        exact Nat.succ_le_succ (Nat.zero_le k)
      · have hpos : 0 < k := by
          rcases Nat.eq_zero_or_pos k with rfl | hpos
          · omega
          · exact hpos
        have hdiv : n / 10 < 10 ^ k := Nat.div_lt_of_lt_mul (by rwa [Nat.pow_succ'] at h)
        rw [digits_of_le (Nat.le_of_not_lt hn), List.length_append]
        exact Nat.succ_le_succ (ih hpos hdiv)

end Decimal

end AttributeWire
