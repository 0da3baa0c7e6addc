/-
**Tables as maps, and what capturing does to them.**

A table is determined by what it answers when it is looked up, because its entries are sorted.
Capturing the attributes of a list binds each name to its first value, unless the name is bound
already; attributes whose names are all new each add a binding.

Main definitions:

* `Table.extend` — the table after some attributes are captured;
* `Table.Fresh` — attributes with names that are new, each to the table and to those before it.

Main results:

* `Table.ext_get?` — **two tables that answer alike are equal**;
* `Table.get?_extend` — **the first value of a name counts**, and what was bound before stays;
* `Table.perm_entries_extend` — capturing new names adds just their attributes;
* `Table.size_extend_of_fresh` — new names add one binding each;
* `Table.exists_duplicate` — **attributes that are not all new** have a first one that is not;
* `Table.extend_entries` — capturing the entries of a table makes that table.
-/

import AttributeWire.Table

set_option relaxedAutoImplicit false
set_option autoImplicit false

namespace AttributeWire

namespace Table

variable {name value : Bytes} {table : Table}

/-! ### A table is what it answers -/

theorem lookup_of_lt {entries : List (Bytes × Bytes)} (h : ∀ entry ∈ entries, name < entry.1) :
    lookup name entries = none := by
  induction entries with
  | nil => rfl
  | cons entry entries ih =>
      have hne : name ≠ entry.1 := Bytes.ne_of_lt (h entry (by simp))
      simp only [lookup, if_neg hne]
      exact ih fun other hmem => h other (by simp [hmem])

@[simp] theorem lookup_cons_self (name value : Bytes) (entries : List (Bytes × Bytes)) :
    lookup name ((name, value) :: entries) = some value := by
  simp [lookup]

/-- The smaller of two first names would be bound on one side only. -/
theorem not_lt_of_lookup_eq {key key' value value' : Bytes} {entries others : List (Bytes × Bytes)}
    (hothers : ∀ entry ∈ others, key' < entry.1)
    (h : lookup key ((key, value) :: entries) = lookup key ((key', value') :: others)) :
    ¬ key < key' := by
  intro hlt
  have hnone : lookup key ((key', value') :: others) = none := by
    refine lookup_of_lt fun entry hmem => ?_
    rcases List.mem_cons.1 hmem with rfl | hmem
    · exact hlt
    · exact List.lt_trans hlt (hothers entry hmem)
  rw [hnone, lookup_cons_self] at h
  simp at h

/-- Sorted entries are determined by what looking them up gives. -/
theorem eq_of_lookup_eq {entries others : List (Bytes × Bytes)}
    (hsorted : entries.Pairwise fun p q => p.1 < q.1)
    (hsorted' : others.Pairwise fun p q => p.1 < q.1)
    (h : ∀ name, lookup name entries = lookup name others) : entries = others := by
  induction entries generalizing others with
  | nil =>
      cases others with
      | nil => rfl
      | cons entry others =>
          have hfirst := h entry.1
          simp [lookup] at hfirst
  | cons entry entries ih =>
      obtain ⟨key, value⟩ := entry
      obtain ⟨hfirst, hrest⟩ := List.pairwise_cons.1 hsorted
      cases others with
      | nil =>
          have hkey := h key
          simp [lookup] at hkey
      | cons entry' others =>
          obtain ⟨key', value'⟩ := entry'
          obtain ⟨hfirst', hrest'⟩ := List.pairwise_cons.1 hsorted'
          have hge : ¬ key < key' := not_lt_of_lookup_eq hfirst' (h key)
          have hge' : ¬ key' < key := not_lt_of_lookup_eq hfirst (h key').symm
          obtain rfl : key = key' := List.le_antisymm (List.not_lt.1 hge') (List.not_lt.1 hge)
          have hvalue : value = value' := by simpa [lookup] using h key
          have htail : entries = others := by
            refine ih hrest hrest' fun name => ?_
            by_cases hname : name = key
            · rw [hname, lookup_of_lt hfirst, lookup_of_lt hfirst']
            · simpa [lookup, hname] using h name
          rw [hvalue, htail]

/-- **Two tables that answer alike are equal.** -/
theorem ext_get? {table other : Table} (h : ∀ name, table.get? name = other.get? name) :
    table = other := by
  obtain ⟨entries, hsorted⟩ := table
  obtain ⟨others, hsorted'⟩ := other
  obtain rfl : entries = others := eq_of_lookup_eq hsorted hsorted' h
  rfl

/-! ### Adding bindings -/

/-- Binding a new name adds the binding and changes nothing else. -/
theorem perm_place {entries : List (Bytes × Bytes)} (h : lookup name entries = none) :
    (place name value entries).Perm ((name, value) :: entries) := by
  induction entries with
  | nil => exact .refl _
  | cons entry entries ih =>
      obtain ⟨key, old⟩ := entry
      have hne : name ≠ key := by
        rintro rfl
        simp at h
      rw [lookup, if_neg hne] at h
      unfold place
      split
      · exact .refl _
      · exact ((ih h).cons _).trans (.swap _ _ _)

theorem size_insert (h : table.get? name = none) :
    (table.insert name value).size = table.size + 1 :=
  (perm_place h).length_eq

/-! ### Capturing attributes -/

/-- The table after some attributes are captured: the first value of a name counts. -/
def extend (table : Table) (attributes : List (Bytes × Bytes)) : Table :=
  attributes.foldl (fun table pair => table.insertNew pair.1 pair.2) table

@[simp] theorem extend_nil (table : Table) : table.extend [] = table := rfl

theorem extend_cons (table : Table) (name value : Bytes) (rest : List (Bytes × Bytes)) :
    table.extend ((name, value) :: rest) = (table.insertNew name value).extend rest := rfl

theorem insertNew_of_none (h : table.get? name = none) (value : Bytes) :
    table.insertNew name value = table.insert name value := by
  simp [insertNew, h]

theorem insertNew_of_some {old : Bytes} (h : table.get? name = some old) (value : Bytes) :
    table.insertNew name value = table := by
  simp [insertNew, h]

theorem get?_insertNew (table : Table) (name value query : Bytes) :
    (table.insertNew name value).get? query =
      (table.get? query).or (if query = name then some value else none) := by
  cases h : table.get? name with
  | none =>
      rw [insertNew_of_none h, get?_insert]
      by_cases hq : query = name
      · rw [if_pos hq, if_pos hq, hq, h, Option.none_or]
      · rw [if_neg hq, if_neg hq, Option.or_none]
  | some old =>
      rw [insertNew_of_some h]
      by_cases hq : query = name
      · rw [hq, h, Option.some_or]
      · rw [if_neg hq, Option.or_none]

/-- **The first value of a name counts**, and what was bound before stays. -/
theorem get?_extend (table : Table) (attributes : List (Bytes × Bytes)) (query : Bytes) :
    (table.extend attributes).get? query = (table.get? query).or (lookup query attributes) := by
  induction attributes generalizing table with
  | nil => simp [lookup]
  | cons pair rest ih =>
      obtain ⟨name, value⟩ := pair
      rw [extend_cons, ih, get?_insertNew, lookup, Option.or_assoc]
      split <;> simp

/-- Attributes with names that are new, each to the table and to those before it. -/
def Fresh (table : Table) (attributes : List (Bytes × Bytes)) : Prop :=
  (attributes.map Prod.fst).Nodup ∧ ∀ pair ∈ attributes, table.get? pair.1 = none

instance (table : Table) (attributes : List (Bytes × Bytes)) :
    Decidable (table.Fresh attributes) :=
  inferInstanceAs (Decidable ((attributes.map Prod.fst).Nodup ∧
    ∀ pair ∈ attributes, table.get? pair.1 = none))

theorem fresh_nil (table : Table) : table.Fresh [] := by simp [Fresh]

theorem fresh_cons_iff {rest : List (Bytes × Bytes)} :
    table.Fresh ((name, value) :: rest) ↔
      table.get? name = none ∧ (table.insert name value).Fresh rest := by
  simp only [Fresh, List.map_cons, List.nodup_cons, List.forall_mem_cons, get?_insert]
  constructor
  · rintro ⟨⟨hnew, hnodup⟩, hnone, hrest⟩
    refine ⟨hnone, hnodup, fun pair hmem => ?_⟩
    have hne : pair.1 ≠ name := fun heq => hnew (heq ▸ List.mem_map_of_mem hmem)
    rw [if_neg hne, hrest pair hmem]
  · rintro ⟨hnone, hnodup, hrest⟩
    have hne : ∀ pair ∈ rest, pair.1 ≠ name := by
      intro pair hmem heq
      have hbound := hrest pair hmem
      rw [if_pos heq] at hbound
      simp at hbound
    refine ⟨⟨?_, hnodup⟩, hnone, fun pair hmem => ?_⟩
    · intro hmem
      obtain ⟨pair, hpair, heq⟩ := List.mem_map.1 hmem
      exact hne pair hpair heq
    · have hbound := hrest pair hmem
      rwa [if_neg (hne pair hmem)] at hbound

/-- Capturing attributes with new names adds just these. -/
theorem perm_entries_extend {attributes : List (Bytes × Bytes)} (h : table.Fresh attributes) :
    (table.extend attributes).entries.Perm (table.entries ++ attributes) := by
  induction attributes generalizing table with
  | nil => rw [extend_nil, List.append_nil]
  | cons pair rest ih =>
      obtain ⟨name, value⟩ := pair
      obtain ⟨hnone, hrest⟩ := fresh_cons_iff.1 h
      rw [extend_cons, insertNew_of_none hnone]
      have hplace : (table.insert name value).entries.Perm ((name, value) :: table.entries) :=
        perm_place hnone
      exact (ih hrest).trans ((hplace.append_right rest).trans List.perm_middle.symm)

theorem size_extend_of_fresh {attributes : List (Bytes × Bytes)} (h : table.Fresh attributes) :
    (table.extend attributes).size = table.size + attributes.length := by
  rw [size, (perm_entries_extend h).length_eq, List.length_append, size]

theorem isSome_lookup_iff {attributes : List (Bytes × Bytes)} :
    (lookup name attributes).isSome ↔ name ∈ attributes.map Prod.fst := by
  induction attributes with
  | nil => simp [lookup]
  | cons pair rest ih =>
      obtain ⟨key, value⟩ := pair
      by_cases hname : name = key
      · simp [lookup, hname]
      · rw [lookup, if_neg hname, ih]
        simp [hname]

/-- A name that is bound once some attributes are captured. -/
theorem isSome_get?_extend_iff {attributes : List (Bytes × Bytes)} :
    ((table.extend attributes).get? name).isSome ↔
      (table.get? name).isSome ∨ name ∈ attributes.map Prod.fst := by
  rw [get?_extend, Option.isSome_or, Bool.or_eq_true, isSome_lookup_iff]

/-- **Attributes that are not all new** have a first one that is not. -/
theorem exists_duplicate {attributes : List (Bytes × Bytes)} (h : ¬ table.Fresh attributes) :
    ∃ fresh pair later, attributes = fresh ++ pair :: later ∧ table.Fresh fresh ∧
      ((table.get? pair.1).isSome ∨ pair.1 ∈ fresh.map Prod.fst) := by
  induction attributes generalizing table with
  | nil => exact absurd (fresh_nil table) h
  | cons first rest ih =>
      obtain ⟨key, text⟩ := first
      cases hbound : table.get? key with
      | some old => exact ⟨[], (key, text), rest, rfl, fresh_nil table, .inl (by simp [hbound])⟩
      | none =>
          have hrest : ¬ (table.insert key text).Fresh rest :=
            fun hrest => h (fresh_cons_iff.2 ⟨hbound, hrest⟩)
          obtain ⟨fresh, pair, later, rfl, hfresh, hdup⟩ := ih hrest
          refine ⟨(key, text) :: fresh, pair, later, rfl, fresh_cons_iff.2 ⟨hbound, hfresh⟩, ?_⟩
          rw [List.map_cons, List.mem_cons]
          rcases hdup with hold | hmem
          · rw [get?_insert] at hold
            by_cases hname : pair.1 = key
            · exact .inr (.inl hname)
            · rw [if_neg hname] at hold
              exact .inl hold
          · exact .inr (.inr hmem)

/-! ### Capturing a table -/

theorem fresh_entries (table : Table) : empty.Fresh table.entries := by
  refine ⟨?_, fun pair _ => get?_empty pair.1⟩
  rw [List.Nodup, List.pairwise_map]
  exact table.sorted.imp Bytes.ne_of_lt

/-- Capturing the entries of a table makes that table. -/
theorem extend_entries (table : Table) : empty.extend table.entries = table := by
  refine ext_get? fun name => ?_
  rw [get?_extend, get?_empty, Option.none_or, get?]

end Table

end AttributeWire
