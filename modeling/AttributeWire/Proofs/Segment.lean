/-
**Lines, empty lines and segments.**

A list ends with an empty line: a newline at the front, or one directly behind another newline.  The
shortest front of some input that ends so is a segment.  A run of whole lines, none of them empty,
is no segment yet, and one more newline makes it one.

Main definitions:

* `EndsInEmptyLine`, `IsSegment` — the end of a list, and the first one;
* `Lines` — whole lines, none of them empty.

Main results:

* `Lines.endsInEmptyLine_append_iff` — **whole lines in front do not matter** for the end of a list;
* `Lines.isSegment` — **whole lines and an empty one make a segment**.
-/

import AttributeWire.Bytes

set_option relaxedAutoImplicit false
set_option autoImplicit false

namespace AttributeWire

open Bytes (newline)

/-- The last line is empty. -/
def EndsInEmptyLine (bytes : Bytes) : Prop :=
  bytes = [newline] ∨ [newline, newline] <:+ bytes

instance (bytes : Bytes) : Decidable (EndsInEmptyLine bytes) :=
  inferInstanceAs (Decidable (bytes = [newline] ∨ [newline, newline] <:+ bytes))

/-- The last line is the first that is empty. -/
def IsSegment (bytes : Bytes) : Prop :=
  EndsInEmptyLine bytes ∧ ∀ front, front <+: bytes → EndsInEmptyLine front → front = bytes

/-- Whole lines, none of them empty. -/
inductive Lines : Bytes → Prop
  | nil : Lines []
  | cons {line rest : Bytes} (hne : line ≠ []) (hline : newline ∉ line) (hrest : Lines rest) :
      Lines (line ++ newline :: rest)

variable {line lines front bytes more : Bytes}

theorem newline_mem_of_endsInEmptyLine (h : EndsInEmptyLine bytes) : newline ∈ bytes := by
  rcases h with rfl | ⟨front, rfl⟩
  · exact List.mem_singleton.2 rfl
  · simp

theorem not_endsInEmptyLine_nil : ¬ EndsInEmptyLine [] :=
  fun h => List.not_mem_nil (newline_mem_of_endsInEmptyLine h)

/-- A line that is not empty does not matter in front. -/
theorem endsInEmptyLine_line_append_iff (hne : line ≠ []) (hline : newline ∉ line)
    (rest : Bytes) : EndsInEmptyLine (line ++ newline :: rest) ↔ EndsInEmptyLine rest := by
  have hrest : newline :: rest <:+ line ++ newline :: rest := List.suffix_append line _
  constructor
  · rintro (hone | htwo)
    · cases line with
      | nil => exact absurd rfl hne
      | cons b line => simp at hone
    · rcases List.suffix_or_suffix_of_suffix htwo hrest with hlong | hshort
      · rcases List.suffix_cons_iff.1 hlong with heq | hin
        · exact .inl (List.cons.inj heq).2.symm
        · exact .inr hin
      · rcases List.suffix_cons_iff.1 hshort with heq | hend
        · exact .inl (List.cons.inj heq).2
        · -- the two newlines would be the one of the line and its last byte
          have hnil : rest = [] := List.eq_nil_of_length_eq_zero (by
            have hle := hend.length_le
            simp only [List.length_cons, List.length_nil] at hle
            omega)
          obtain ⟨text, htext⟩ := htwo
          rw [hnil, ← List.singleton_append, ← List.append_assoc] at htext
          rw [← List.append_cancel_right htext] at hline
          simp at hline
  · rintro (rfl | hin)
    · exact .inr (List.suffix_append line _)
    · exact .inr (hin.trans ((List.suffix_cons newline rest).trans hrest))

namespace Lines

theorem single (hne : line ≠ []) (hline : newline ∉ line) : Lines (line ++ [newline]) :=
  .cons hne hline .nil

theorem append (h : Lines bytes) (h' : Lines more) : Lines (bytes ++ more) := by
  induction h with
  | nil => exact h'
  | cons hne hline _ ih =>
      rw [List.append_assoc, List.cons_append]
      exact .cons hne hline ih

/-- **Whole lines in front do not matter** for the end of a list. -/
theorem endsInEmptyLine_append_iff (h : Lines lines) (rest : Bytes) :
    EndsInEmptyLine (lines ++ rest) ↔ EndsInEmptyLine rest := by
  induction h with
  | nil => rfl
  | cons hne hline _ ih =>
      rw [List.append_assoc, List.cons_append, endsInEmptyLine_line_append_iff hne hline, ih]

/-- No front of whole lines is the end of a list. -/
theorem not_endsInEmptyLine_of_front (h : Lines lines) (hfront : front <+: lines) :
    ¬ EndsInEmptyLine front := by
  induction h generalizing front with
  | nil =>
      rw [List.prefix_nil.1 hfront]
      exact not_endsInEmptyLine_nil
  | @cons line rest hne hline _ ih =>
      have hfirst : line ++ [newline] <+: line ++ newline :: rest := ⟨rest, by simp⟩
      rcases List.prefix_or_prefix_of_prefix hfront hfirst with hshort | ⟨later, rfl⟩
      · rcases List.prefix_concat_iff.1 hshort with rfl | hin
        · rw [endsInEmptyLine_line_append_iff hne hline]
          exact not_endsInEmptyLine_nil
        · exact fun hend => hline (hin.subset (newline_mem_of_endsInEmptyLine hend))
      · rw [List.append_assoc, List.singleton_append] at hfront ⊢
        rw [endsInEmptyLine_line_append_iff hne hline]
        exact ih ((List.cons_prefix_cons.1 ((List.prefix_append_right_inj line).1 hfront)).2)

/-- **Whole lines and an empty one make a segment.** -/
theorem isSegment (h : Lines lines) : IsSegment (lines ++ [newline]) := by
  refine ⟨(h.endsInEmptyLine_append_iff _).2 (.inl rfl), fun front hfront hend => ?_⟩
  rcases List.prefix_concat_iff.1 hfront with heq | hshort
  · exact heq
  · exact absurd hend (h.not_endsInEmptyLine_of_front hshort)

end Lines

end AttributeWire
