/-
**Numbers are read exactly, at either width.**

A text is read as a number if and only if it is a numeral, which is some digits and nothing else,
and its value is below the bound of the width.  Numerals may be of any length, and zeros in front of
one do not count.  Hence the text that is written for a number is read as that number, and the
narrow width reads just what the wide one reads below the narrow bound.

Main definitions:

* `Decimal.IsDigit`, `Decimal.IsNumeral` — an ASCII digit, and some digits and nothing else;
* `Decimal.positional` — what a numeral stands for.

Main results:

* `Decimal.decode?_eq_some_iff` — **what is read are the numerals**, each with its value;
* `Decimal.read_exactly` — both widths, what is written for a number, and the one width by the
  other.
-/

import AttributeWire.Printer
import AttributeWire.Proofs.Text
import Mathlib.Data.List.Induction
import Mathlib.Data.Nat.Digits.Defs

set_option relaxedAutoImplicit false
set_option autoImplicit false

namespace AttributeWire

namespace Decimal

/-- The byte is an ASCII digit. -/
def IsDigit (b : UInt8) : Prop := 48 ≤ b ∧ b ≤ 57

instance (b : UInt8) : Decidable (IsDigit b) := inferInstanceAs (Decidable (48 ≤ b ∧ b ≤ 57))

/-- Some ASCII digits and nothing else. -/
def IsNumeral (text : Bytes) : Prop := text ≠ [] ∧ ∀ b ∈ text, IsDigit b

/-- What a numeral stands for: the last digit counts ones, the one before it tens, and so on. -/
def positional (text : Bytes) : Nat := Nat.ofDigits 10 (text.reverse.map fun b => b.toNat - 48)

/-! ### Numerals -/

/-- Reading digits one after the other gives their positional value. -/
theorem value_eq_ofDigits (ds : List Nat) : value ds = Nat.ofDigits 10 ds.reverse := by
  induction ds using List.reverseRecOn with
  | nil => rfl
  | append_singleton ds d ih =>
      have hlast : value (ds ++ [d]) = value ds * 10 + d := by
        rw [value, valueFrom_append]
        rfl
      rw [hlast, ih, List.reverse_append, List.reverse_singleton, List.singleton_append,
        Nat.ofDigits_cons]
      omega

theorem digit?_eq (b : UInt8) : digit? b = if IsDigit b then some (b.toNat - 48) else none := rfl

theorem digits?_of_digits {text : Bytes} (h : ∀ b ∈ text, IsDigit b) :
    digits? text = some (text.map fun b => b.toNat - 48) := by
  induction text with
  | nil => rfl
  | cons b rest ih =>
      obtain ⟨hb, hrest⟩ := List.forall_mem_cons.1 h
      rw [digits?, ih hrest, digit?_eq, if_pos hb, List.map_cons]

theorem digits?_of_not_digits {text : Bytes} (h : ¬ ∀ b ∈ text, IsDigit b) :
    digits? text = none := by
  induction text with
  | nil => exact absurd (List.forall_mem_nil _) h
  | cons b rest ih =>
      by_cases hb : IsDigit b
      · have hrest : ¬ ∀ c ∈ rest, IsDigit c := fun hrest => h (List.forall_mem_cons.2 ⟨hb, hrest⟩)
        rw [digits?, ih hrest, digit?_eq, if_pos hb]
      · rw [digits?, digit?_eq, if_neg hb]

/-- **What is read are the numerals**, each with its value. -/
theorem decode?_eq_some_iff {text : Bytes} {n : Nat} :
    decode? text = some n ↔ IsNumeral text ∧ positional text = n := by
  rw [decode?, IsNumeral, positional, List.map_reverse, ← value_eq_ofDigits]
  by_cases hnil : text = []
  · simp [hnil]
  · rw [if_neg hnil]
    by_cases hdigits : ∀ b ∈ text, IsDigit b
    · simp only [digits?_of_digits hdigits, Option.some.injEq]
      exact ⟨fun h => ⟨⟨hnil, hdigits⟩, h⟩, fun h => h.2⟩
    · simp only [digits?_of_not_digits hdigits]
      exact ⟨fun h => absurd h.symm (Option.some_ne_none n), fun h => absurd h.1.2 hdigits⟩

/-! ### Fixed widths -/

/-- A numeral is read at 32 bits if its value fits. -/
theorem uint32?_eq_some_iff {text : Bytes} {v : UInt32} :
    uint32? text = some v ↔ decode? text = some v.toNat := by
  rw [uint32?]
  cases decode? text with
  | none => simp
  | some n =>
      by_cases hn : n < UInt32.size
      · simp only [if_pos hn, Option.some.injEq]
        exact ⟨fun h => h ▸ (UInt32.toNat_ofNat_of_lt' hn).symm, fun h => h ▸ UInt32.ofNat_toNat⟩
      · simp only [if_neg hn, Option.some.injEq]
        exact ⟨fun h => absurd h.symm (Option.some_ne_none v), fun h => absurd (h ▸ v.toNat_lt) hn⟩

/-- A numeral is read at 64 bits if its value fits. -/
theorem uint64?_eq_some_iff {text : Bytes} {v : UInt64} :
    uint64? text = some v ↔ decode? text = some v.toNat := by
  rw [uint64?]
  cases decode? text with
  | none => simp
  | some n =>
      by_cases hn : n < UInt64.size
      · simp only [if_pos hn, Option.some.injEq]
        exact ⟨fun h => h ▸ (UInt64.toNat_ofNat_of_lt' hn).symm, fun h => h ▸ UInt64.ofNat_toNat⟩
      · simp only [if_neg hn, Option.some.injEq]
        exact ⟨fun h => absurd h.symm (Option.some_ne_none v), fun h => absurd (h ▸ v.toNat_lt) hn⟩

/-- What is written for a number is the usual text of it. -/
theorem lines_uint (name : Bytes) (n : UInt32) :
    (Item.line name (.uint n)).lines = [attributeLine name (Bytes.ofText (toString n.toNat))] := by
  rw [Item.lines, Value.text, ofText_toString]

theorem lines_ulong (name : Bytes) (n : UInt64) :
    (Item.line name (.ulong n)).lines = [attributeLine name (Bytes.ofText (toString n.toNat))] := by
  rw [Item.lines, Value.text, ofText_toString]

/-- **Numbers are read exactly.**  At both widths a text is read if and only if it is a numeral with
a value below the bound, as that value; the text that is written for a number is read as that
number; and the narrow width reads what the wide one reads below the narrow bound. -/
theorem read_exactly :
    (∀ (text : Bytes) (v : UInt32), uint32? text = some v ↔
      IsNumeral text ∧ positional text < 2 ^ 32 ∧ positional text = v.toNat) ∧
    (∀ (text : Bytes) (v : UInt64), uint64? text = some v ↔
      IsNumeral text ∧ positional text < 2 ^ 64 ∧ positional text = v.toNat) ∧
    (∀ (name : Bytes) (n : UInt32), ∃ written,
      (Item.line name (.uint n)).lines = [attributeLine name written] ∧
        written = Bytes.ofText (toString n.toNat) ∧ uint32? written = some n) ∧
    (∀ (name : Bytes) (n : UInt64), ∃ written,
      (Item.line name (.ulong n)).lines = [attributeLine name written] ∧
        written = Bytes.ofText (toString n.toNat) ∧ uint64? written = some n) ∧
    ∀ (text : Bytes) (n : Nat), (uint32? text).map UInt32.toNat = some n ↔
      (uint64? text).map UInt64.toNat = some n ∧ n < 2 ^ 32 := by
  refine ⟨fun text v => ?_, fun text v => ?_, fun name n => ?_, fun name n => ?_,
    fun text n => ?_⟩
  · have hv := v.toNat_lt
    rw [uint32?_eq_some_iff, decode?_eq_some_iff]
    exact and_congr_right fun _ => ⟨fun h => ⟨h ▸ hv, h⟩, fun h => h.2⟩
  · have hv := v.toNat_lt
    rw [uint64?_eq_some_iff, decode?_eq_some_iff]
    exact and_congr_right fun _ => ⟨fun h => ⟨h ▸ hv, h⟩, fun h => h.2⟩
  · refine ⟨_, lines_uint name n, rfl, ?_⟩
    rw [ofText_toString, uint32?_encode]
  · refine ⟨_, lines_ulong name n, rfl, ?_⟩
    rw [ofText_toString, uint64?_encode]
  · simp only [Option.map_eq_some_iff, uint32?_eq_some_iff, uint64?_eq_some_iff]
    constructor
    · rintro ⟨v, hread, rfl⟩
      have hwide : v.toNat < UInt64.size := Nat.lt_trans v.toNat_lt (by decide)
      exact ⟨⟨.ofNat v.toNat, by rw [UInt64.toNat_ofNat_of_lt' hwide, hread],
        UInt64.toNat_ofNat_of_lt' hwide⟩, v.toNat_lt⟩
    · rintro ⟨⟨v, hread, rfl⟩, hnarrow⟩
      exact ⟨.ofNat v.toNat, by rw [UInt32.toNat_ofNat_of_lt' hnarrow, hread],
        UInt32.toNat_ofNat_of_lt' hnarrow⟩

/-- Zeros in front do not count, and the bound of the width is sharp. -/
example : uint32? (Bytes.ofText "0000000000000007") = some 7 ∧
    uint32? (Bytes.ofText "4294967295") = some 4294967295 ∧
    uint32? (Bytes.ofText "4294967296") = none ∧
    uint64? (Bytes.ofText "18446744073709551616") = none := by
  decide

end Decimal

end AttributeWire
