/-
**Unsigned decimal text.**

Numbers are written in decimal without leading zeros.  They are read back from any non-empty run of
ASCII digits, leading zeros included; signs, blanks and values of 2^32 or 2^64 and above are not
numbers of the width asked for.

Main definitions:

* `Decimal.digits`, `Decimal.value` — the digits of a number, most significant first, and back;
* `Decimal.encode`, `Decimal.decode?` — decimal text and its value;
* `Decimal.uint32?`, `Decimal.uint64?` — decimal text as a number of a fixed width.

Main results:

* `Decimal.value_digits` — the digits of a number have its value;
* `Decimal.decode?_encode` — decimal text reads back.
-/

import AttributeWire.Bytes

set_option relaxedAutoImplicit false
set_option autoImplicit false

namespace AttributeWire

namespace Decimal

/-! ### Digits -/

/-- The decimal digits of a number, most significant first. -/
def digits (n : Nat) : List Nat :=
  if n < 10 then [n] else digits (n / 10) ++ [n % 10]

/-- The number that digits, most significant first, stand for after a number already read. -/
def valueFrom (n : Nat) : List Nat → Nat
  | [] => n
  | d :: ds => valueFrom (n * 10 + d) ds

/-- The number that digits, most significant first, stand for. -/
def value (ds : List Nat) : Nat := valueFrom 0 ds

theorem valueFrom_append (n : Nat) (ds es : List Nat) :
    valueFrom n (ds ++ es) = valueFrom (valueFrom n ds) es := by
  induction ds generalizing n with
  | nil => rfl
  | cons d ds ih => simp [valueFrom, ih]

theorem digits_of_lt {n : Nat} (h : n < 10) : digits n = [n] := by
  rw [digits, if_pos h]

theorem digits_of_le {n : Nat} (h : 10 ≤ n) : digits n = digits (n / 10) ++ [n % 10] := by
  rw [digits, if_neg (by omega)]

/-- **The digits of a number have its value.** -/
theorem value_digits (n : Nat) : value (digits n) = n := by
  induction n using Nat.strongRecOn with
  | ind n ih =>
      by_cases h : n < 10
      · simp [digits_of_lt h, value, valueFrom]
      · have := ih (n / 10) (by omega)
        rw [digits_of_le (by omega), value, valueFrom_append]
        simp only [value] at this
        simp only [this, valueFrom]
        omega

theorem lt_ten_of_mem_digits {n d : Nat} (h : d ∈ digits n) : d < 10 := by
  induction n using Nat.strongRecOn with
  | ind n ih =>
      by_cases hn : n < 10
      · rw [digits_of_lt hn] at h
        simp at h
        omega
      · rw [digits_of_le (by omega)] at h
        rcases List.mem_append.1 h with h | h
        · exact ih (n / 10) (by omega) h
        · simp at h
          omega

theorem digits_ne_nil (n : Nat) : digits n ≠ [] := by
  rw [digits]
  split <;> simp

/-! ### Text -/

/-- The value of an ASCII digit. -/
def digit? (b : UInt8) : Option Nat :=
  if 48 ≤ b ∧ b ≤ 57 then some (b.toNat - 48) else none

/-- The ASCII digit of a value below ten. -/
def digitByte (d : Nat) : UInt8 := UInt8.ofNat (48 + d)

/-- The values of a text of digits only. -/
def digits? : Bytes → Option (List Nat)
  | [] => some []
  | b :: rest =>
      match digit? b, digits? rest with
      | some d, some ds => some (d :: ds)
      | _, _ => none

/-- The decimal text of a number, without leading zeros. -/
def encode (n : Nat) : Bytes := (digits n).map digitByte

/-- The value of a non-empty text of digits. -/
def decode? (text : Bytes) : Option Nat :=
  if text = [] then none
  else match digits? text with
    | some ds => some (value ds)
    | none => none

theorem digit?_digitByte {d : Nat} (h : d < 10) : digit? (digitByte d) = some d := by
  revert d
  decide

theorem digits?_map {ds : List Nat} (h : ∀ d ∈ ds, d < 10) :
    digits? (ds.map digitByte) = some ds := by
  induction ds with
  | nil => rfl
  | cons d ds ih =>
      have hd := digit?_digitByte (h d (by simp))
      have hs := ih fun e he => h e (by simp [he])
      simp [digits?, hd, hs]

/-- **Decimal text reads back.** -/
theorem decode?_encode (n : Nat) : decode? (encode n) = some n := by
  have hds := digits?_map fun d (h : d ∈ digits n) => lt_ten_of_mem_digits h
  have hne : encode n ≠ [] := by simp [encode, digits_ne_nil]
  rw [decode?, if_neg hne, encode, hds]
  simp [value_digits]

/-! ### Fixed widths -/

/-- Decimal text as a number below 2^32. -/
def uint32? (text : Bytes) : Option UInt32 :=
  match decode? text with
  | some n => if n < UInt32.size then some (UInt32.ofNat n) else none
  | none => none

/-- Decimal text as a number below 2^64. -/
def uint64? (text : Bytes) : Option UInt64 :=
  match decode? text with
  | some n => if n < UInt64.size then some (UInt64.ofNat n) else none
  | none => none

/-- **The decimal text of a 32-bit number reads back.** -/
@[simp] theorem uint32?_encode (n : UInt32) : uint32? (encode n.toNat) = some n := by
  simp [uint32?, decode?_encode, n.toNat_lt]

/-- **The decimal text of a 64-bit number reads back.** -/
@[simp] theorem uint64?_encode (n : UInt64) : uint64? (encode n.toNat) = some n := by
  simp [uint64?, decode?_encode, n.toNat_lt]

end Decimal

end AttributeWire
