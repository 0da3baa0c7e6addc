/-
**What is printed is scanned back.**

Typed attributes, then a table, then the end of the list are printed one after the other.  A scan
whose wishes have the names and kinds of the attributes, in the same order, and which captures the
rest, finds every value and the whole table again.  Nothing is assumed of the names and values but
that their written forms are within the limit of the reader, nothing of the flags, and nothing of
the pieces in which the input arrives but that none of them is empty.

Main definitions:

* `Wish.Asks` — a wish for an attribute of this name and kind;
* `printItems` — some attributes, a table and the end of the list, to be printed.

Main results:

* `Sink.run_print_of_unlimited` — a sink with room for everything takes all lines;
* `scan_printed` — **the typed round trip**.
-/

import AttributeWire.Proofs.Listing
import Mathlib.Data.List.Forall2

set_option relaxedAutoImplicit false
set_option autoImplicit false

namespace AttributeWire

open LogEntry

/-! ### Printing -/

namespace Sink

theorem writeLines_of_unlimited {sink : Sink} (h : sink.room = none) (lines : List Bytes) :
    sink.writeLines lines = (none, { sink with written := sink.written ++ lines.flatten }) := by
  induction lines generalizing sink with
  | nil => simp [writeLines]
  | cons line lines ih =>
      have hrest : { sink with written := sink.written ++ line }.writeLines lines =
          (none, { sink with written := sink.written ++ line ++ lines.flatten }) := ih h
      rw [writeLines, write_unlimited h]
      simp only [hrest, List.flatten_cons, List.append_assoc]

/-- **A sink with room for everything takes all lines**, and no step fails. -/
theorem run_print_of_unlimited {sink : Sink} (h : sink.room = none) (items : List Item) :
    sink.run (items.map .print) =
      (items.map fun _ => none,
        { sink with written := sink.written ++ (items.flatMap Item.lines).flatten }) := by
  induction items generalizing sink with
  | nil => simp
  | cons item items ih =>
      have hitem : sink.step (.print item) =
          (none, { sink with written := sink.written ++ item.lines.flatten }) :=
        writeLines_of_unlimited h item.lines
      have hrest : { sink with written := sink.written ++ item.lines.flatten }.run
          (items.map .print) = (items.map fun _ => none, { sink with
            written := sink.written ++ item.lines.flatten ++
              (items.flatMap Item.lines).flatten }) := ih h
      rw [List.map_cons, run_cons, hitem]
      simp [hrest]

end Sink

/-- The items of some attributes, a table and the end of the list. -/
def printItems (attributes : List (Bytes × Value)) (table : Table) : List Item :=
  attributes.map (fun pair => .line pair.1 pair.2) ++ [.table table, .terminator]

/-- What is printed is the text of the attributes and of the entries of the table as one list. -/
theorem written_printItems (attributes : List (Bytes × Value)) (table : Table) :
    (Sink.unlimited.run ((printItems attributes table).map .print)).2.written =
      attributeLines (attributes.map fun pair => (pair.1, pair.2.text)) ++
        listText table.entries := by
  have hlines : (attributes.map fun pair => Item.line pair.1 pair.2).flatMap Item.lines =
      attributes.map fun pair => attributeLine pair.1 pair.2.text := by
    induction attributes with
    | nil => rfl
    | cons pair attributes ih => simp [Item.lines, ih]
  rw [Sink.run_print_of_unlimited rfl, printItems, List.flatMap_append, hlines]
  simp [Sink.unlimited, Item.lines, attributeLines, listText, List.flatMap_def, Function.comp_def]

/-! ### Scanning -/

/-- The wish is for an attribute of this name and kind. -/
def Wish.Asks (wish : Wish) (pair : Bytes × Value) : Prop :=
  wish.name = pair.1 ∧ wish.value.SameKind pair.2

theorem Wish.Asks.receive {wish : Wish} {pair : Bytes × Value} (h : wish.Asks pair) :
    wish.receive pair.2.text = ⟨pair.1, pair.2⟩ := by
  rw [Wish.receive_of_read? (Value.read?_text h.2), h.1]

theorem Wish.Asks.metBy {wish : Wish} {pair : Bytes × Value} (h : wish.Asks pair) :
    wish.MetBy (pair.1, pair.2.text) :=
  ⟨h.1, by rw [Value.read?_text h.2]; rfl⟩

section

variable {wishes : List Wish} {attributes : List (Bytes × Value)}

theorem meet_of_asks (h : List.Forall₂ Wish.Asks wishes attributes) (extra : Bool) :
    Wish.Meet extra wishes (attributes.map fun pair => (pair.1, pair.2.text))
      (attributes.map fun pair => pair.2.text) := by
  induction h with
  | nil => exact .nil
  | cons hfirst _ ih => exact .met hfirst.metBy ih

theorem receiveAll_of_asks (h : List.Forall₂ Wish.Asks wishes attributes) :
    Wish.receiveAll wishes (attributes.map fun pair => pair.2.text) =
      attributes.map fun pair => ⟨pair.1, pair.2⟩ := by
  induction h with
  | nil => rfl
  | cons hfirst _ ih => simp [hfirst.receive, ih]

/-- **The typed round trip**: a scan for what was printed finds every value and the whole table,
logs no warning, and leaves what follows the list. -/
theorem scan_printed {config : Config} {table : Table} (flags : Flags) {s : Stream}
    {following : Bytes} (hs : s.Steady)
    (hwire : s.unread =
      (Sink.unlimited.run ((printItems attributes table).map .print)).2.written ++ following)
    (hattributes : ∀ pair ∈ attributes, config.Fits pair.1 ∧ config.Fits pair.2.text)
    (htable : ∀ entry ∈ table.entries, config.Fits entry.1 ∧ config.Fits entry.2)
    (hasks : List.Forall₂ Wish.Asks wishes attributes) :
    let r := scan config flags ⟨wishes, some .empty⟩ s
    r.outcome = .ok (attributes.length + table.size) ∧
      r.list = ⟨attributes.map fun pair => ⟨pair.1, pair.2⟩, some table⟩ ∧
      warnings r.log = [] ∧ r.stream.unread = following ∧ r.stream.Steady := by
  have hahead := hs.ahead
  rw [hwire, written_printItems, List.append_assoc] at hahead
  have hfits : config.FitsAll (attributes.map fun pair => (pair.1, pair.2.text)) := by
    intro written hmem
    obtain ⟨pair, hpair, rfl⟩ := List.mem_map.1 hmem
    exact hattributes pair hpair
  obtain ⟨log, s₁, hnamed, hwarn, hadv₁⟩ :=
    satisfy_append (meet_of_asks hasks flags.extra) [] s hs.gapless hfits hahead
  obtain ⟨log', count, s₂, hgather, hcount, hwarn', hadv₂⟩ :=
    gather_listText flags .empty s₁ hadv₁.gapless htable (hadv₁.ahead_eq hahead)
      fun _ => table.fresh_entries
  have hadv := hadv₁.trans hadv₂
  rw [← written_printItems] at hadv
  rw [List.append_nil, receiveAll_of_asks hasks] at hnamed
  rw [Table.extend_entries] at hgather hcount
  have hsize : count = table.size := by
    rw [← hcount]
    exact (Nat.zero_add count).symm
  have hscan : scan config flags ⟨wishes, some .empty⟩ s =
      ⟨.ok (attributes.length + table.size),
        ⟨attributes.map fun pair => ⟨pair.1, pair.2⟩, some table⟩, log ++ log', s₂⟩ := by
    rw [scan]
    simp [hnamed, satisfy, Satisfied.afterAll, finish, hgather, hsize, Except.map]
  rw [hscan]
  refine ⟨rfl, rfl, ?_, hadv.unread_eq_of_append hwire, hadv.steady hs⟩
  rw [warnings_append, hwarn, hwarn', List.append_nil]

/-- Delimiters in a name and a value, an empty name, and a table, with all flags set and one byte
delivered at a time. -/
theorem scan_printed_bytewise :
    let r := scan .standard ⟨true, true, true⟩
      ⟨[⟨[58], .uint 3⟩, ⟨[], .str [1]⟩], some .empty⟩
      (.bytewise ((Sink.unlimited.run ((printItems [([58], .uint 7), ([], .str [10])]
        (Table.empty.insert [97] [])).map .print)).2.written ++ [120]) .closed)
    r.outcome = .ok 3 ∧
      r.list = ⟨[⟨[58], .uint 7⟩, ⟨[], .str [10]⟩], some (Table.empty.insert [97] [])⟩ ∧
      warnings r.log = [] ∧ r.stream.unread = [120] ∧ r.stream.Steady := by
  refine scan_printed ⟨true, true, true⟩ (Stream.steady_bytewise _ _) (Stream.unread_bytewise _ _)
    ?_ (by decide) ?_
  · simp [Config.Fits, Value.text, Base64.length_encode, Decimal.encode, Decimal.digits_of_lt]
  · exact .cons ⟨rfl, trivial⟩ (.cons ⟨rfl, trivial⟩ .nil)

end

end AttributeWire
