/-
**A sink that is full only truncates.**

Every step of a writer is taken whatever became of the steps before it.  Nevertheless a sink with
room for so many bytes ends up with the front of what the same steps write where there is room for
everything: once something did not fit, the sink is full, and nothing that comes later is let in.  A
step succeeds just if it has nothing to write or all of it is within the room.  What a full sink
reports is no interruption, which would not let the step end.

Main definitions:

* `printedText` — what some items write where there is room for everything;
* `Sink.upTo` — a sink with room for so many bytes, after some text was sent to it;
* `Sink.Within` — bytes behind some text that are written in full.

Main results:

* `Sink.write_upTo` — **what a write leaves** is told by all the text so far;
* `Sink.print_upTo`, `Sink.run_upTo` — so it is for an item, and for several;
* `run_truncates` — **what is in a full sink, and which steps succeed**.
-/

import AttributeWire.Proofs.RoundTrip

set_option relaxedAutoImplicit false
set_option autoImplicit false

namespace AttributeWire

/-- What some items write where there is room for everything. -/
def printedText (items : List Item) : Bytes := (Sink.unlimited.run (items.map .print)).2.written

theorem printedText_eq (items : List Item) :
    printedText items = (items.flatMap Item.lines).flatten := by
  rw [printedText, Sink.run_print_of_unlimited rfl]
  rfl

theorem printedText_take_succ {items : List Item} {i : Nat} {item : Item}
    (h : items[i]? = some item) :
    printedText (items.take (i + 1)) = printedText (items.take i) ++ item.lines.flatten := by
  rw [printedText_eq, printedText_eq, List.take_add_one, h]
  simp

/-- Only the empty table writes nothing. -/
theorem Item.flatten_lines_eq_nil_iff {item : Item} :
    item.lines.flatten = [] ↔ item = .table .empty := by
  cases item with
  | line name value => simp [Item.lines, attributeLine]
  | terminator => simp [Item.lines, terminatorLine]
  | table table =>
      obtain ⟨entries, hsorted⟩ := table
      cases entries with
      | nil => simp [Item.lines, Table.empty]
      | cons entry entries => simp [Item.lines, attributeLine, Table.empty]

namespace Sink

variable {n : Nat} {fault : Option Fault} {text bytes more : Bytes}

/-! ### What was sent so far -/

/-- A sink with room for `n` bytes and a fault for when it is full, after some text was sent to
it. -/
def upTo (n : Nat) (fault : Option Fault) (text : Bytes) : Sink :=
  ⟨some (n - text.length), fault, text.take n⟩

/-- The bytes behind the text are written in full. -/
def Within (n : Nat) (text bytes : Bytes) : Prop := bytes = [] ∨ (text ++ bytes).length ≤ n

instance (n : Nat) (text bytes : Bytes) : Decidable (Within n text bytes) :=
  inferInstanceAs (Decidable (bytes = [] ∨ (text ++ bytes).length ≤ n))

theorem within_append_iff :
    Within n text (bytes ++ more) ↔ Within n text bytes ∧ Within n (text ++ bytes) more := by
  simp only [Within, List.append_eq_nil_iff, List.length_append]
  constructor
  · rintro (⟨rfl, rfl⟩ | hle)
    · exact ⟨.inl rfl, .inl rfl⟩
    · exact ⟨.inr (by omega), .inr (by omega)⟩
  · rintro ⟨rfl | hle, rfl | hle'⟩
    · exact .inl ⟨rfl, rfl⟩
    · exact .inr (by simpa using hle')
    · exact .inr (by simpa using hle)
    · exact .inr (by omega)

/-- What a full sink reports for bytes behind the text, if anything. -/
def report (n : Nat) (fault : Option Fault) (text bytes : Bytes) : Option Fault :=
  if Within n text bytes then none else some (fault.getD (.ofKind .writeZero))

theorem report_of_within (h : Within n text bytes) : report n fault text bytes = none := if_pos h

theorem report_of_not_within (h : ¬ Within n text bytes) :
    report n fault text bytes = some (fault.getD (.ofKind .writeZero)) := if_neg h

/-- **What a write leaves** is told by all the text so far. -/
theorem write_upTo (n : Nat) (fault : Option Fault) (text bytes : Bytes) :
    (upTo n fault text).write bytes =
      (report n fault text bytes, upTo n fault (text ++ bytes)) := by
  have hroom : bytes.length ≤ n - text.length ↔ Within n text bytes := by
    rw [Within, List.length_append, ← List.length_eq_zero_iff]
    omega
  have htake : text.take n ++ bytes.take (n - text.length) = (text ++ bytes).take n :=
    List.take_append.symm
  have hleft : n - text.length - bytes.length = n - (text ++ bytes).length := by
    rw [List.length_append, Nat.sub_sub]
  simp only [write, upTo, report, hroom, htake, hleft]

/-- A sink that is full lets nothing in any more. -/
theorem upTo_of_not_within (h : ¬ Within n text bytes) (more : Bytes) :
    upTo n fault (text ++ bytes ++ more) = upTo n fault (text ++ bytes) := by
  obtain ⟨-, hlt⟩ := not_or.1 h
  have hle : n ≤ (text ++ bytes).length := by omega
  have hroom : n - (text ++ bytes ++ more).length = n - (text ++ bytes).length := by
    rw [List.length_append]
    omega
  rw [upTo, upTo, hroom, List.take_append_of_le_length hle]

/-- Lines are written as their concatenation is, although the first that fails is the last that is
tried. -/
theorem writeLines_upTo (n : Nat) (fault : Option Fault) (text : Bytes) (lines : List Bytes) :
    (upTo n fault text).writeLines lines =
      (report n fault text lines.flatten, upTo n fault (text ++ lines.flatten)) := by
  induction lines generalizing text with
  | nil => simp [writeLines, report, Within]
  | cons line lines ih =>
      rw [writeLines, write_upTo, List.flatten_cons, ← List.append_assoc]
      by_cases hline : Within n text line
      · have hrest : report n fault text (line ++ lines.flatten) =
            report n fault (text ++ line) lines.flatten := by
          simp only [report, within_append_iff, hline, true_and]
        rw [report_of_within hline, hrest]
        exact ih (text ++ line)
      · have hall : ¬ Within n text (line ++ lines.flatten) :=
          fun h => hline (within_append_iff.1 h).1
        rw [report_of_not_within hline, report_of_not_within hall, upTo_of_not_within hline]

/-! ### Steps -/

theorem print_upTo (n : Nat) (fault : Option Fault) (text : Bytes) (item : Item) :
    (upTo n fault text).print item =
      (report n fault text item.lines.flatten, upTo n fault (text ++ item.lines.flatten)) :=
  writeLines_upTo n fault text item.lines

/-- **What several steps leave** is told by all the text, and so is what each of them reports. -/
theorem run_upTo (n : Nat) (fault : Option Fault) (text : Bytes) (items : List Item) :
    (upTo n fault text).run (items.map .print) =
      (items.mapIdx fun i item =>
        report n fault (text ++ printedText (items.take i)) item.lines.flatten,
        upTo n fault (text ++ printedText items)) := by
  simp only [printedText_eq]
  induction items generalizing text with
  | nil => simp
  | cons item items ih =>
      have hstep : (upTo n fault text).step (.print item) = _ := print_upTo n fault text item
      rw [List.map_cons, run_cons, hstep, ih, List.mapIdx_cons]
      simp

/-- An item is written in full if it is empty or everything up to its end is within the room. -/
theorem within_item_iff {items : List Item} {i : Nat} {item : Item} (h : items[i]? = some item) :
    Within n (printedText (items.take i)) item.lines.flatten ↔
      item = .table .empty ∨ (printedText (items.take (i + 1))).length ≤ n := by
  rw [Within, Item.flatten_lines_eq_nil_iff, printedText_take_succ h]

end Sink

/-- **A sink that is full only truncates.**  With room for `n` bytes the sink holds the first `n` of
what the items write where there is room for everything; an item is reported to succeed just if it
writes nothing or everything up to its end is within the room; and of the first line that is not,
and all lines after it, the sink holds less than that line.  The fault of the sink is taken to be no
interruption, as everywhere. -/
theorem run_truncates (n : Nat) (fault : Option Fault) (items : List Item) :
    let r := (⟨some n, fault, []⟩ : Sink).run (items.map .print)
    r.2.written = (printedText items).take n ∧
      r.1 = items.mapIdx (fun i item =>
        if item = .table .empty ∨ (printedText (items.take (i + 1))).length ≤ n then none
        else some (fault.getD (.ofKind .writeZero))) ∧
      ∀ before line after, items.flatMap Item.lines = before ++ line :: after →
        n < (before ++ [line]).flatten.length →
        r.2.written <+: (before ++ [line]).flatten ∧ r.2.written ≠ (before ++ [line]).flatten := by
  intro r
  have hempty : (⟨some n, fault, []⟩ : Sink) = Sink.upTo n fault [] := by simp [Sink.upTo]
  have hrun : r = _ := (congrArg (Sink.run · (items.map .print)) hempty).trans
    (Sink.run_upTo n fault [] items)
  have hwritten : r.2.written = (printedText items).take n := by
    rw [hrun, List.nil_append]
    rfl
  refine ⟨hwritten, ?_, ?_⟩
  · rw [hrun, List.nil_append]
    refine List.ext_getElem? fun i => ?_
    rw [List.getElem?_mapIdx, List.getElem?_mapIdx]
    cases hitem : items[i]? with
    | none => rfl
    | some item =>
        simp only [Option.map_some, List.nil_append, Sink.report, Sink.within_item_iff hitem]
  · intro before line after hlines hlt
    have hsplit : printedText items = (before ++ [line]).flatten ++ after.flatten := by
      rw [printedText_eq, hlines]
      simp
    rw [hwritten, hsplit, List.take_append_of_le_length (Nat.le_of_lt hlt)]
    refine ⟨List.take_prefix _ _, fun heq => ?_⟩
    have hlength := congrArg List.length heq
    rw [List.length_take] at hlength
    omega

/-- A table of three bindings is cut within the second line, and then neither the third line nor a
shorter item behind the table is let in; another table that is empty succeeds all the same. -/
theorem run_truncates_within_table :
    let table := Table.ofList [([97], []), ([98], [49]), ([99], [])]
    let r := (⟨some 9, some (.ofKind .brokenPipe), []⟩ : Sink).run
      ([.terminator, .table table, .table .empty, .terminator].map .print)
    r.1 = [none, some (.ofKind .brokenPipe), none, some (.ofKind .brokenPipe)] ∧
      r.2.written = [10] ++ attributeLine [97] [] ++ [89, 103] ∧
      r.2.written ≠ ([terminatorLine, attributeLine [97] []] ++ [attributeLine [98] [49]]).flatten
        := by
  intro table r
  obtain ⟨hwritten, houtcomes, hlines⟩ := run_truncates 9 (some (.ofKind .brokenPipe))
    [.terminator, .table table, .table .empty, .terminator]
  refine ⟨houtcomes.trans ?_, hwritten.trans ?_, ?_⟩
  · decide
  · decide
  · exact (hlines _ _ [attributeLine [99] [], terminatorLine] rfl (by decide)).2

end AttributeWire
