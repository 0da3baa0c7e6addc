/-
**Which characters the texts of an encoding may contain.**

The check of an encoding looks at its specification only: at the symbols, the padding character and
the line separator.  Each of these characters goes into the text of some byte string, since the bits
of a single byte begin with any group, and a single byte leaves something to fill up wherever
padding is allowed; and no other character ever does.  So nothing can be said of the texts that the
check does not see, in whichever order the bits of a byte are taken.

Main definitions:

* `BitOrder`, `Alphabet.encodeIn` — the order of the bits in a byte, and the text of a byte string
  with the bits in that order;
* `Alphabet.Valid` — groups of one to six bits, and padding only where groups do not fill a byte.

Main results:

* `flatten_groups`, `length_groups` — cutting a list into groups loses nothing;
* `exists_first_group` — **the bits of a byte begin with any group**;
* `mem_output_iff` — **the characters that go into texts** are those of the specification;
* `delimiter?_eq_none_iff_encodeIn` — **the check is sound and complete**.
-/

import AttributeWire.Alphabet
import Mathlib.Tactic.Ring

set_option relaxedAutoImplicit false
set_option autoImplicit false

namespace AttributeWire

/-- In which order the bits of a byte are taken. -/
inductive BitOrder where
  /-- The most significant bit first. -/
  | mostFirst
  /-- The least significant bit first. -/
  | leastFirst
deriving DecidableEq, Repr

namespace Alphabet

/-! ### Texts in either order of bits -/

/-- The bits of a byte string. -/
def bitsIn : BitOrder → Bytes → List Bool
  | .mostFirst, bytes => bits bytes
  | .leastFirst, bytes => bytes.flatMap fun b => (List.range 8).map b.toNat.testBit

/-- The number that the bits of a group stand for. -/
def valueIn : BitOrder → List Bool → Nat
  | .mostFirst, group => groupValue group
  | .leastFirst, group => groupValue group.reverse

/-- The symbols of a byte string, the last group filled up with zero bits. -/
def symbolTextIn (a : Alphabet) (order : BitOrder) (bytes : Bytes) : List Char :=
  (groups a.width (bitsIn order bytes)).filterMap fun group =>
    a.symbols[valueIn order (group ++ List.replicate (a.width - group.length) false)]?

/-- A text filled up to full blocks, if the encoding does that. -/
def filled (a : Alphabet) (text : List Char) : List Char :=
  match a.padding with
  | some pad => text ++ List.replicate (a.shortfall text.length) pad
  | none => text

/-- A text cut into lines, each with its end. -/
def laid (a : Alphabet) (text : List Char) : List Char :=
  if a.lineEnd = [] then text
  else (groups a.lineWidth text).flatMap fun line => line ++ a.lineEnd

/-- The text of a byte string. -/
def encodeIn (a : Alphabet) (order : BitOrder) (bytes : Bytes) : List Char :=
  a.laid (a.filled (a.symbolTextIn order bytes))

theorem encodeIn_mostFirst (a : Alphabet) (bytes : Bytes) :
    a.encodeIn .mostFirst bytes = a.encode bytes := rfl

/-- What is asked of a specification: it has a symbol for each group of one to six bits, and a
padding character only if groups of that length do not fill a byte.  An encoding asks for more, such
as symbols that can be told apart, but the texts can be told without it. -/
structure Valid (a : Alphabet) : Prop where
  grouped : ∃ bitCount, 1 ≤ bitCount ∧ bitCount ≤ 6 ∧ a.symbols.length = 2 ^ bitCount
  padded : a.padding ≠ none → 8 % a.width ≠ 0

namespace Valid

variable {a : Alphabet}

theorem length_symbols (h : a.Valid) : a.symbols.length = 2 ^ a.width := by
  obtain ⟨bitCount, -, -, hlength⟩ := h.grouped
  rw [width, hlength, Nat.log2_two_pow]

theorem width_pos (h : a.Valid) : 0 < a.width := by
  obtain ⟨bitCount, hpos, -, hlength⟩ := h.grouped
  rw [width, hlength, Nat.log2_two_pow]
  exact hpos

theorem width_le (h : a.Valid) : a.width ≤ 6 := by
  obtain ⟨bitCount, -, hle, hlength⟩ := h.grouped
  rw [width, hlength, Nat.log2_two_pow]
  exact hle

end Valid

/-! ### Groups -/

section

variable {α : Type} {n : Nat} {items : List α}

theorem groups_nil (n : Nat) : groups n ([] : List α) = [] := by
  rw [groups, if_pos (.inl rfl)]

theorem groups_of_ne_nil (hn : n ≠ 0) (hne : items ≠ []) :
    groups n items = items.take n :: groups n (items.drop n) := by
  rw [groups, if_neg (not_or.2 ⟨hne, hn⟩)]

/-- Cutting a list into groups loses nothing. -/
theorem flatten_groups (hn : n ≠ 0) (items : List α) : (groups n items).flatten = items := by
  fun_induction groups n items with
  | case1 items h => exact (h.resolve_right hn).symm
  | case2 items h ih => rw [List.flatten_cons, ih, List.take_append_drop]

theorem groups_eq_nil_iff (hn : n ≠ 0) : groups n items = [] ↔ items = [] := by
  constructor
  · intro h
    rw [← flatten_groups hn items, h, List.flatten_nil]
  · rintro rfl
    exact groups_nil n

theorem length_le_of_mem_groups {group : List α} (h : group ∈ groups n items) :
    group.length ≤ n := by
  fun_induction groups n items with
  | case1 => cases h
  | case2 items hne ih =>
      rcases List.mem_cons.1 h with rfl | h
      · exact List.length_take_le n items
      · exact ih h

theorem length_groups (hn : 0 < n) (items : List α) :
    (groups n items).length = (items.length + (n - 1)) / n := by
  fun_induction groups n items with
  | case1 items h =>
      obtain rfl := h.resolve_right (Nat.ne_of_gt hn)
      rw [List.length_nil, List.length_nil, Nat.zero_add, Nat.div_eq_of_lt (by omega)]
  | case2 items h ih =>
      have hpos := List.length_pos_iff.2 (not_or.1 h).1
      rw [List.length_cons, ih, List.length_drop]
      rcases Nat.le_total n items.length with hle | hle
      · have hsplit : items.length + (n - 1) = items.length - n + (n - 1) + n := by omega
        rw [hsplit, Nat.add_div_right _ hn]
      · have hlast : items.length + (n - 1) = items.length - 1 + n := by omega
        rw [hlast, Nat.add_div_right _ hn, Nat.sub_eq_zero_of_le hle, Nat.zero_add,
          Nat.div_eq_of_lt (by omega), Nat.div_eq_of_lt (by omega)]

end

/-! ### The number of a group -/

theorem foldl_groupValue (n : Nat) (group : List Bool) :
    group.foldl (fun n b => 2 * n + b.toNat) n = n * 2 ^ group.length + groupValue group := by
  induction group generalizing n with
  | nil => simp [groupValue]
  | cons b group ih =>
      have hstart : groupValue (b :: group) =
          group.foldl (fun n b => 2 * n + b.toNat) (2 * 0 + b.toNat) := rfl
      rw [hstart, ih, List.foldl_cons, ih, List.length_cons, Nat.pow_succ]
      ring

theorem groupValue_cons (b : Bool) (group : List Bool) :
    groupValue (b :: group) = b.toNat * 2 ^ group.length + groupValue group := by
  rw [groupValue, List.foldl_cons, foldl_groupValue, Nat.mul_zero, Nat.zero_add]

theorem groupValue_lt (group : List Bool) : groupValue group < 2 ^ group.length := by
  induction group with
  | nil => decide
  | cons b group ih =>
      rw [groupValue_cons, List.length_cons, Nat.pow_succ]
      cases b with
      | false => simp only [Bool.toNat_false]; omega
      | true => simp only [Bool.toNat_true]; omega

theorem valueIn_lt (order : BitOrder) (group : List Bool) :
    valueIn order group < 2 ^ group.length := by
  cases order with
  | mostFirst => exact groupValue_lt group
  | leastFirst =>
      have h := groupValue_lt group.reverse
      rwa [List.length_reverse] at h

/-- The lowest bits of a number stand for its remainder. -/
theorem groupValue_testBit (n k : Nat) :
    groupValue ((List.range k).reverse.map n.testBit) = n % 2 ^ k := by
  induction k with
  | zero => simp [groupValue, Nat.mod_one]
  | succ k ih =>
      rw [List.range_succ, List.reverse_append, List.reverse_singleton, List.singleton_append,
        List.map_cons, groupValue_cons, ih, List.length_map, List.length_reverse, List.length_range,
        Nat.mod_pow_succ, Nat.toNat_testBit]
      ring

/-- The places of the first bits of a byte, the most significant bit first. -/
theorem take_places : ∀ k ≤ 8,
    [7, 6, 5, 4, 3, 2, 1, 0].take k = (List.range k).reverse.map fun i => 8 - k + i := by decide

/-- **The bits of a byte begin with any group.** -/
theorem exists_first_group (order : BitOrder) {k value : Nat} (hk : k ≤ 8) (h : value < 2 ^ k) :
    ∃ b : UInt8, valueIn order ((bitsIn order [b]).take k) = value := by
  cases order with
  | mostFirst =>
      have hshift : 2 ^ k * 2 ^ (8 - k) = 2 ^ 8 := by rw [← Nat.pow_add, Nat.add_sub_cancel' hk]
      have hbyte : value * 2 ^ (8 - k) < UInt8.size := by
        have hlt := Nat.mul_lt_mul_of_pos_right h (Nat.two_pow_pos (8 - k))
        rwa [hshift] at hlt
      refine ⟨UInt8.ofNat (value * 2 ^ (8 - k)), ?_⟩
      have hbits : (bits [UInt8.ofNat (value * 2 ^ (8 - k))]).take k =
          (List.range k).reverse.map value.testBit := by
        rw [bits, List.flatMap_singleton, UInt8.toNat_ofNat_of_lt' hbyte, ← List.map_take,
          take_places k hk, List.map_map]
        refine List.map_congr_left fun i _ => ?_
        simp [Nat.testBit_mul_two_pow]
      rw [bitsIn, valueIn, hbits, groupValue_testBit, Nat.mod_eq_of_lt h]
  | leastFirst =>
      have hbyte : value < UInt8.size := Nat.lt_of_lt_of_le h (Nat.pow_le_pow_right (by decide) hk)
      refine ⟨UInt8.ofNat value, ?_⟩
      rw [bitsIn, valueIn, List.flatMap_singleton, UInt8.toNat_ofNat_of_lt' hbyte, ← List.map_take,
        List.take_range, Nat.min_eq_left hk, ← List.map_reverse, groupValue_testBit,
        Nat.mod_eq_of_lt h]

theorem length_bitsIn (order : BitOrder) (b : UInt8) : (bitsIn order [b]).length = 8 := by
  cases order <;> rfl

/-! ### Characters of a text -/

section

variable {a : Alphabet} {order : BitOrder} {bytes : Bytes} {text : List Char} {c : Char}

theorem mem_filled_iff :
    c ∈ a.filled text ↔ c ∈ text ∨ a.padding = some c ∧ a.shortfall text.length ≠ 0 := by
  unfold filled
  cases a.padding with
  | none => simp
  | some pad =>
      rw [List.mem_append, List.mem_replicate, Option.some.injEq, eq_comm (a := c), and_comm]

theorem mem_laid_iff : c ∈ a.laid text ↔ c ∈ text ∨ text ≠ [] ∧ c ∈ a.lineEnd := by
  unfold laid
  by_cases hend : a.lineEnd = []
  · simp [hend]
  · have hwidth : a.lineWidth ≠ 0 := fun hzero => hend (if_pos hzero)
    have hline : (∃ line ∈ groups a.lineWidth text, c ∈ line) ↔ c ∈ text := by
      rw [← List.mem_flatten, flatten_groups hwidth]
    have hsome : (∃ line, line ∈ groups a.lineWidth text) ↔ text ≠ [] := by
      rw [← List.length_pos_iff_exists_mem, List.length_pos_iff, Ne, groups_eq_nil_iff hwidth]
    rw [if_neg hend]
    simp only [List.mem_flatMap, List.mem_append, and_or_left, exists_or, hline, exists_and_right,
      hsome]

theorem mem_symbols_of_mem (h : c ∈ a.symbolTextIn order bytes) : c ∈ a.symbols := by
  obtain ⟨group, -, hsymbol⟩ := List.mem_filterMap.1 h
  exact List.mem_of_getElem? hsymbol

/-- There is a symbol for each group. -/
theorem length_symbolTextIn (ha : a.Valid) :
    (a.symbolTextIn order bytes).length = (groups a.width (bitsIn order bytes)).length := by
  refine List.filterMap_length_eq_length.2 fun group hgroup => ?_
  have hlength : (group ++ List.replicate (a.width - group.length) false).length = a.width := by
    have hle := length_le_of_mem_groups hgroup
    rw [List.length_append, List.length_replicate]
    omega
  have hlt := valueIn_lt order (group ++ List.replicate (a.width - group.length) false)
  rw [hlength, ← ha.length_symbols] at hlt
  rw [List.getElem?_eq_getElem hlt]
  rfl

/-- **Every symbol stands in the text of a byte.** -/
theorem exists_mem_symbolTextIn (ha : a.Valid) (order : BitOrder) (h : c ∈ a.symbols) :
    ∃ b, c ∈ a.symbolTextIn order [b] := by
  obtain ⟨value, hsymbol⟩ := List.mem_iff_getElem?.1 h
  have hwidth := ha.width_le
  have hvalue : value < 2 ^ a.width := by
    rw [← ha.length_symbols]
    exact (List.getElem?_eq_some_iff.1 hsymbol).1
  obtain ⟨b, hb⟩ := exists_first_group order (by omega) hvalue
  refine ⟨b, List.mem_filterMap.2 ⟨(bitsIn order [b]).take a.width, ?_, ?_⟩⟩
  · have hne : bitsIn order [b] ≠ [] := by
      rw [← List.length_pos_iff, length_bitsIn]
      decide
    rw [groups_of_ne_nil (Nat.ne_of_gt ha.width_pos) hne]
    exact List.mem_cons_self
  · have hfull : a.width - ((bitsIn order [b]).take a.width).length = 0 := by
      rw [List.length_take, length_bitsIn]
      omega
    rw [hfull, List.replicate_zero, List.append_nil, hb, hsymbol]

/-- Where padding is allowed, the text of a byte is filled up. -/
theorem shortfall_byte (ha : a.Valid) (hpadding : a.padding ≠ none) (b : UInt8) :
    a.shortfall (a.symbolTextIn order [b]).length ≠ 0 := by
  have hshort : ∀ width ≤ 6, 0 < width → 8 % width ≠ 0 →
      let block := Nat.lcm 8 width / width
      (block - (8 + (width - 1)) / width % block) % block ≠ 0 := by decide
  rw [length_symbolTextIn ha, length_groups ha.width_pos, length_bitsIn]
  exact hshort a.width ha.width_le ha.width_pos (ha.padded hpadding)

theorem symbolTextIn_byte_ne_nil (ha : a.Valid) (b : UInt8) : a.symbolTextIn order [b] ≠ [] := by
  rw [← List.length_pos_iff, length_symbolTextIn ha, length_groups ha.width_pos, length_bitsIn]
  have hle := ha.width_le
  exact Nat.div_pos (by omega) ha.width_pos

/-- **The characters that go into texts** are those of the specification. -/
theorem mem_output_iff (ha : a.Valid) (order : BitOrder) :
    c ∈ a.output ↔ ∃ bytes, c ∈ a.encodeIn order bytes := by
  simp only [encodeIn, mem_laid_iff, mem_filled_iff, output, List.mem_append, Option.mem_toList]
  constructor
  · rintro ((hsymbol | hpadding) | hend)
    · obtain ⟨b, hb⟩ := exists_mem_symbolTextIn ha order hsymbol
      exact ⟨[b], .inl (.inl hb)⟩
    · exact ⟨[0], .inl (.inr ⟨hpadding, shortfall_byte ha (by simp [hpadding]) 0⟩)⟩
    · have hne : a.symbolTextIn order [0] ≠ [] := symbolTextIn_byte_ne_nil ha 0
      obtain ⟨d, hd⟩ := List.exists_mem_of_ne_nil _ hne
      exact ⟨[0], .inr ⟨List.ne_nil_of_mem (mem_filled_iff.2 (.inl hd)), hend⟩⟩
  · rintro ⟨bytes, (htext | ⟨hpadding, -⟩) | ⟨-, hend⟩⟩
    · exact .inl (.inl (mem_symbols_of_mem htext))
    · exact .inl (.inr hpadding)
    · exact .inr hend

end

/-- **The check is sound and complete.**  It finds no delimiter if and only if no byte string has a
text with one, in whichever order the bits of a byte are taken; a delimiter that it finds does go
into a text.  What is only dropped or replaced in decoding makes no difference to it. -/
theorem delimiter?_eq_none_iff_encodeIn {a : Alphabet} (ha : a.Valid) (order : BitOrder) :
    (a.delimiter? = none ↔ ∀ bytes, ∀ c ∈ a.encodeIn order bytes, ¬ IsDelimiter c) ∧
    (∀ c, a.delimiter? = some c → IsDelimiter c ∧ ∃ bytes, c ∈ a.encodeIn order bytes) ∧
    ∀ ignored translated,
      { a with ignored := ignored, translated := translated }.delimiter? = a.delimiter? := by
  refine ⟨?_, ?_, fun _ _ => rfl⟩
  · rw [delimiter?_eq_none_iff]
    simp only [mem_output_iff ha order]
    constructor
    · intro h bytes c hc
      exact h c ⟨bytes, hc⟩
    · rintro h c ⟨bytes, hc⟩
      exact h bytes c hc
  · intro c hc
    have hdelimiter : IsDelimiter c := by simpa using List.find?_some hc
    exact ⟨hdelimiter, (mem_output_iff ha order).1 (List.mem_of_find?_eq_some hc)⟩

/-- Octal digits with padding and lines.  The colon that is dropped in decoding is in no text, and
the newline at the end of a line is in one. -/
theorem delimiter?_eq_none_iff_encodeIn_of_lines :
    let a : Alphabet := ⟨['0', '1', '2', '3', '4', '5', '6', '7'], some '=', [':'], 8, ['\r', '\n'],
      [('o', '0')]⟩
    a.Valid ∧ a.delimiter? = some '\n' ∧ (∃ bytes, '\n' ∈ a.encodeIn .leastFirst bytes) ∧
      ∀ bytes, ∀ c ∈ { a with lineWidth := 0 }.encodeIn .mostFirst bytes, ¬ IsDelimiter c := by
  intro a
  have ha : a.Valid := ⟨⟨3, by decide, by decide, rfl⟩, fun _ => by decide⟩
  have hfound : a.delimiter? = some '\n' := by decide
  have hplain : { a with lineWidth := 0 }.Valid := ⟨ha.grouped, ha.padded⟩
  obtain ⟨-, hcomplete, -⟩ := delimiter?_eq_none_iff_encodeIn ha .leastFirst
  obtain ⟨hsound, -, -⟩ := delimiter?_eq_none_iff_encodeIn hplain .mostFirst
  exact ⟨ha, hfound, (hcomplete '\n' hfound).2, hsound.1 (by decide)⟩

end Alphabet

end AttributeWire
