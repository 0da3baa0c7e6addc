/-
**The wire form of a table is canonical.**

A table is given as a finite map, and whoever enumerates its bindings may do so in any order.  What
is written depends on the map only: one line for each name, and the names that the lines stand for
are strictly increasing in byte order.  The written forms of the names need not be, since the
alphabet of the wire has an order of its own.  In the other direction the lines give back the names
and values, so that different maps are written differently.

Main definitions:

* `Enumerates` — a list of the bindings of a finite map, in any order;
* `tableText` — what is written for the table of a list of bindings;
* `bindingLe` — the order of pairs by which bindings are sorted.

Main results:

* `attributeLines_injective` — **the lines of attributes determine them**;
* `Table.entries_ofList` — the table of an enumeration is the sorted enumeration;
* `tableText_canonical` — **equality of what is written is equality of the maps**.
-/

import AttributeWire.Proofs.Grammar
import AttributeWire.Proofs.RoundTrip

set_option relaxedAutoImplicit false
set_option autoImplicit false

namespace AttributeWire

/-! ### Enumerations of a finite map -/

/-- The list holds each binding of the map once, in any order. -/
structure Enumerates (map : Bytes → Option Bytes) (bindings : List (Bytes × Bytes)) : Prop where
  /-- No name is bound twice. -/
  nodup : (bindings.map Prod.fst).Nodup
  /-- The bindings are those of the map. -/
  mem_iff : ∀ name value, (name, value) ∈ bindings ↔ map name = some value

/-- What is written for the table of some bindings. -/
def tableText (bindings : List (Bytes × Bytes)) : Bytes :=
  (Sink.unlimited.print (.table (.ofList bindings))).2.written

/-- The order by which bindings are sorted: by name, and by value under one name. -/
def bindingLe (p q : Bytes × Bytes) : Bool := decide (p.1 < q.1 ∨ p.1 = q.1 ∧ p.2 ≤ q.2)

theorem bindingLe_iff {p q : Bytes × Bytes} :
    bindingLe p q = true ↔ p.1 < q.1 ∨ p.1 = q.1 ∧ p.2 ≤ q.2 := decide_eq_true_iff

theorem bindingLe_trans (p q r : Bytes × Bytes) (h : bindingLe p q = true)
    (h' : bindingLe q r = true) : bindingLe p r = true := by
  rw [bindingLe_iff] at h h' ⊢
  rcases h with hlt | ⟨heq, hle⟩ <;> rcases h' with hlt' | ⟨heq', hle'⟩
  · exact .inl (List.lt_trans hlt hlt')
  · exact .inl (heq' ▸ hlt)
  · exact .inl (heq ▸ hlt')
  · exact .inr ⟨heq.trans heq', List.le_trans hle hle'⟩

theorem bindingLe_total (p q : Bytes × Bytes) : (bindingLe p q || bindingLe q p) = true := by
  rw [Bool.or_eq_true, bindingLe_iff, bindingLe_iff]
  by_cases hlt : p.1 < q.1
  · exact .inl (.inl hlt)
  · by_cases heq : p.1 = q.1
    · rcases List.le_total p.2 q.2 with hle | hle
      · exact .inl (.inr ⟨heq, hle⟩)
      · exact .inr (.inr ⟨heq.symm, hle⟩)
    · exact .inr (.inl (Bytes.lt_of_not_lt_of_ne hlt heq))

theorem bindingLe_antisymm {p q : Bytes × Bytes} (h : bindingLe p q = true)
    (h' : bindingLe q p = true) : p = q := by
  rw [bindingLe_iff] at h h'
  rcases h with hlt | ⟨heq, hle⟩ <;> rcases h' with hlt' | ⟨heq', hle'⟩
  · exact absurd (List.lt_trans hlt hlt') (List.lt_irrefl _)
  · exact absurd heq'.symm (Bytes.ne_of_lt hlt)
  · exact absurd heq.symm (Bytes.ne_of_lt hlt')
  · exact Prod.ext heq (List.le_antisymm hle hle')

/-! ### The table of an enumeration -/

namespace Table

variable {name value : Bytes} {bindings : List (Bytes × Bytes)} {table : Table}

theorem lookup_eq_some_iff (hnodup : (bindings.map Prod.fst).Nodup) :
    lookup name bindings = some value ↔ (name, value) ∈ bindings := by
  induction bindings with
  | nil => simp [lookup]
  | cons binding rest ih =>
      obtain ⟨key, held⟩ := binding
      obtain ⟨hkey, hrest⟩ := List.nodup_cons.1 hnodup
      by_cases hname : name = key
      · subst hname
        have hnew : (name, value) ∉ rest := fun hmem => hkey (List.mem_map.2 ⟨_, hmem, rfl⟩)
        simp [hnew, eq_comm]
      · rw [lookup, if_neg hname, ih hrest]
        simp [hname]

/-- New names are bound in the same way whether or not a bound name would keep its value. -/
theorem foldl_insert_of_fresh (h : table.Fresh bindings) :
    bindings.foldl (fun table binding => table.insert binding.1 binding.2) table =
      table.extend bindings := by
  induction bindings generalizing table with
  | nil => rfl
  | cons binding rest ih =>
      obtain ⟨key, held⟩ := binding
      obtain ⟨hnone, hrest⟩ := fresh_cons_iff.1 h
      rw [List.foldl_cons, ih hrest, extend_cons, insertNew_of_none hnone]

theorem ofList_eq_extend (hnodup : (bindings.map Prod.fst).Nodup) :
    ofList bindings = empty.extend bindings :=
  foldl_insert_of_fresh ⟨hnodup, fun binding _ => get?_empty binding.1⟩

/-- **The table of an enumeration holds what is enumerated.** -/
theorem get?_ofList (hnodup : (bindings.map Prod.fst).Nodup) (name : Bytes) :
    (ofList bindings).get? name = lookup name bindings := by
  rw [ofList_eq_extend hnodup, get?_extend, get?_empty, Option.none_or]

theorem perm_entries_ofList (hnodup : (bindings.map Prod.fst).Nodup) :
    (ofList bindings).entries.Perm bindings := by
  rw [ofList_eq_extend hnodup]
  exact perm_entries_extend ⟨hnodup, fun binding _ => get?_empty binding.1⟩

/-- **The table of an enumeration is the sorted enumeration.** -/
theorem entries_ofList (hnodup : (bindings.map Prod.fst).Nodup) :
    (ofList bindings).entries = bindings.mergeSort bindingLe := by
  have hperm := (perm_entries_ofList hnodup).trans (List.mergeSort_perm bindings bindingLe).symm
  have hentries : (ofList bindings).entries.Pairwise fun p q => bindingLe p q = true :=
    (ofList bindings).sorted.imp fun hlt => bindingLe_iff.2 (.inl hlt)
  have hsorted : (bindings.mergeSort bindingLe).Pairwise fun p q => bindingLe p q = true :=
    List.pairwise_mergeSort bindingLe_trans bindingLe_total bindings
  exact hperm.eq_of_pairwise (fun _ _ _ _ => bindingLe_antisymm) hentries hsorted

end Table

namespace Enumerates

variable {map : Bytes → Option Bytes} {bindings bindings' : List (Bytes × Bytes)}

/-- Bindings with different names enumerate the map of looking them up. -/
theorem lookup (hnodup : (bindings.map Prod.fst).Nodup) :
    Enumerates (Table.lookup · bindings) bindings :=
  ⟨hnodup, fun _ _ => (Table.lookup_eq_some_iff hnodup).symm⟩

/-- The order does not matter. -/
theorem perm (h : Enumerates map bindings) (hperm : bindings.Perm bindings') :
    Enumerates map bindings' :=
  ⟨((hperm.map Prod.fst).nodup_iff).1 h.nodup,
    fun name value => hperm.mem_iff.symm.trans (h.mem_iff name value)⟩

/-- **The table of an enumeration is the map.** -/
theorem get?_ofList (h : Enumerates map bindings) (name : Bytes) :
    (Table.ofList bindings).get? name = map name := by
  refine Option.ext fun value => ?_
  rw [Table.get?_ofList h.nodup, Table.lookup_eq_some_iff h.nodup]
  exact h.mem_iff name value

end Enumerates

/-! ### The lines of attributes -/

theorem Base64.encode_injective : Function.Injective Base64.encode := by
  intro bytes other h
  have hdecode := Base64.decode?_encode bytes
  rw [h, Base64.decode?_encode] at hdecode
  exact (Option.some.inj hdecode).symm

theorem newline_not_mem_line (name value : Bytes) :
    Bytes.newline ∉ Base64.encode name ++ Bytes.colon :: Base64.encode value := by
  have hname := (Base64.undelimited_encode name).newline_not_mem
  have hvalue := (Base64.undelimited_encode value).newline_not_mem
  simp [hname, hvalue, Bytes.colon_ne_newline.symm]

/-- A line determines its name and its value. -/
theorem eq_of_line_eq {name value name' value' : Bytes}
    (h : Base64.encode name ++ Bytes.colon :: Base64.encode value =
      Base64.encode name' ++ Bytes.colon :: Base64.encode value') :
    name = name' ∧ value = value' := by
  have hcolon : Base64.encode name ++ Delimiter.colon.byte :: Base64.encode value =
      Base64.encode name' ++ Delimiter.colon.byte :: Base64.encode value' := h
  have hname := eq_of_undelimited_append (Base64.undelimited_encode name)
    (Base64.undelimited_encode name') hcolon
  rw [hname, List.append_cancel_left_eq, List.cons.injEq] at h
  exact ⟨Base64.encode_injective hname, Base64.encode_injective h.2⟩

/-- **The lines of attributes determine them.** -/
theorem attributeLines_injective : Function.Injective attributeLines := by
  intro attributes others h
  induction attributes generalizing others with
  | nil =>
      cases others with
      | nil => rfl
      | cons other others => simp [attributeLines, attributeLine] at h
  | cons pair attributes ih =>
      obtain ⟨name, value⟩ := pair
      cases others with
      | nil => simp [attributeLine] at h
      | cons other others =>
          obtain ⟨name', value'⟩ := other
          rw [attributeLines_cons, attributeLines_cons, attributeLine, attributeLine,
            List.append_assoc _ [_], List.append_assoc _ [_]] at h
          obtain ⟨hline, hrest⟩ := eq_of_line_append (newline_not_mem_line name value)
            (newline_not_mem_line name' value') h
          obtain ⟨rfl, rfl⟩ := eq_of_line_eq hline
          rw [ih hrest]

/-- The lines of attributes are lines of the grammar that stand for them. -/
theorem exists_rows (attributes : List (Bytes × Bytes)) :
    ∃ rows, List.Forall₂ Decodes rows attributes ∧
      attributeLines attributes ++ [Bytes.newline] = wireText rows := by
  induction attributes with
  | nil => exact ⟨[], .nil, rfl⟩
  | cons pair attributes ih =>
      obtain ⟨name, value⟩ := pair
      obtain ⟨rows, hrows, htext⟩ := ih
      refine ⟨(Base64.encode name, Base64.encode value) :: rows, .cons ?_ hrows, ?_⟩
      · exact ⟨Base64.decode?_encode name, Base64.decode?_encode value⟩
      · rw [wireText_cons, ← htext, attributeLines_cons, attributeLine]
        simp

/-! ### What is written for a table -/

theorem tableText_eq (bindings : List (Bytes × Bytes)) :
    tableText bindings = attributeLines (Table.ofList bindings).entries := by
  rw [tableText, Sink.print, Sink.writeLines_of_unlimited rfl]
  rfl

/-- The maps of two enumerations are equal if and only if the tables are. -/
theorem Enumerates.table_eq_iff {map map' : Bytes → Option Bytes}
    {bindings bindings' : List (Bytes × Bytes)} (h : Enumerates map bindings)
    (h' : Enumerates map' bindings') :
    Table.ofList bindings = Table.ofList bindings' ↔ map = map' := by
  constructor
  · intro htable
    funext name
    rw [← h.get?_ofList, htable, h'.get?_ofList]
  · rintro rfl
    refine Table.ext_get? fun name => ?_
    rw [h.get?_ofList, h'.get?_ofList]

/-- **The wire form of a table is canonical.**  Two enumerations are written alike if and only if
they enumerate one map, and then they are on every sink; what is written are the lines of the sorted
enumeration, one for each name, which stand for names that are strictly increasing. -/
theorem tableText_canonical {map map' : Bytes → Option Bytes}
    {bindings bindings' : List (Bytes × Bytes)} (h : Enumerates map bindings)
    (h' : Enumerates map' bindings') :
    (tableText bindings = tableText bindings' ↔ map = map') ∧
      (map = map' → ∀ sink : Sink,
        sink.print (.table (.ofList bindings)) = sink.print (.table (.ofList bindings'))) ∧
      tableText bindings = attributeLines (bindings.mergeSort bindingLe) ∧
      ∃ rows entries, entries.Perm bindings ∧ entries.Pairwise (fun p q => p.1 < q.1) ∧
        List.Forall₂ Decodes rows entries ∧
        tableText bindings ++ [Bytes.newline] = wireText rows := by
  have htables := h.table_eq_iff h'
  refine ⟨⟨fun htext => ?_, fun hmap => ?_⟩, fun hmap sink => ?_, ?_, ?_⟩
  · rw [tableText_eq, tableText_eq] at htext
    refine htables.1 (Table.ext_get? fun name => ?_)
    rw [Table.get?, attributeLines_injective htext, ← Table.get?]
  · rw [tableText, htables.2 hmap, ← tableText]
  · rw [htables.2 hmap]
  · rw [tableText_eq, Table.entries_ofList h.nodup]
  · obtain ⟨rows, hrows, htext⟩ := exists_rows (Table.ofList bindings).entries
    refine ⟨rows, _, Table.perm_entries_ofList h.nodup, (Table.ofList bindings).sorted, hrows, ?_⟩
    rw [tableText_eq, htext]

/-- The names of one byte `00` and `ff` are written `AA==` and `/w==`, which have the opposite
order; and an empty value is not an absent one. -/
theorem tableText_canonical_of_three :
    let bindings : List (Bytes × Bytes) := [([255], [49]), ([], []), ([0], [10])]
    let bindings' : List (Bytes × Bytes) := [([0], [10]), ([255], [49]), ([], [])]
    let others : List (Bytes × Bytes) := [([0], [10]), ([255], [49])]
    tableText bindings = tableText bindings' ∧ tableText bindings ≠ tableText others ∧
      tableText bindings = attributeLines [([], []), ([0], [10]), ([255], [49])] := by
  intro bindings bindings' others
  have h : Enumerates (Table.lookup · bindings) bindings := .lookup (by decide)
  have h' : Enumerates (Table.lookup · bindings) bindings' := h.perm (by decide)
  have hothers : Enumerates (Table.lookup · others) others := .lookup (by decide)
  have hne : (Table.lookup · bindings) ≠ (Table.lookup · others) := by
    intro heq
    simpa [bindings, others, Table.lookup] using congrFun heq []
  have hsorted : bindings.mergeSort bindingLe = [([], []), ([0], [10]), ([255], [49])] := by
    rw [← Table.entries_ofList h.nodup]
    decide
  obtain ⟨hcanonical, -, htext, -⟩ := tableText_canonical h h'
  rw [hsorted] at htext
  exact ⟨hcanonical.2 rfl, fun heq => hne ((tableText_canonical h hothers).1.1 heq), htext⟩

end AttributeWire
