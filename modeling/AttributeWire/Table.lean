/-
**Tables of attributes.**

A table holds the attributes that are captured by name.  Its entries are kept strictly increasing in
the byte order of their names, so that two tables with the same bindings are equal and a table is
written in one way only.

Main definitions:

* `Table` — finite maps from names to values, as a sorted list of entries;
* `Table.get?`, `Table.insert`, `Table.insertNew` — look-up, and the two ways to add a binding;
* `Table.ofList` — the table of a list of bindings, of which the last of equal names counts.

Main results:

* `Table.get?_insert`, `Table.get?_empty` — look-up after each operation.
-/

import AttributeWire.Bytes

set_option relaxedAutoImplicit false
set_option autoImplicit false

namespace AttributeWire

/-! ### The byte order of names -/

namespace Bytes

theorem lt_of_not_lt_of_ne {a b : Bytes} (hlt : ¬ a < b) (hne : a ≠ b) : b < a := by
  apply Decidable.byContradiction
  intro h
  exact hne (List.le_antisymm (List.not_lt.1 h) (List.not_lt.1 hlt))

theorem ne_of_lt {a b : Bytes} (h : a < b) : a ≠ b := by
  rintro rfl
  exact List.lt_irrefl a h

end Bytes

/-! ### Tables -/

/-- A finite map from names to values. -/
structure Table where
  /-- The bindings. -/
  entries : List (Bytes × Bytes)
  /-- The names are strictly increasing in byte order. -/
  sorted : entries.Pairwise fun p q => p.1 < q.1
deriving DecidableEq

namespace Table

/-- The table without bindings. -/
def empty : Table := ⟨[], .nil⟩

instance : Inhabited Table := ⟨empty⟩

/-- The value of a name among some bindings. -/
def lookup (name : Bytes) : List (Bytes × Bytes) → Option Bytes
  | [] => none
  | (key, value) :: rest => if name = key then some value else lookup name rest

/-- Puts a binding in its place, instead of the one with the same name if there is one. -/
def place (name value : Bytes) : List (Bytes × Bytes) → List (Bytes × Bytes)
  | [] => [(name, value)]
  | (key, old) :: rest =>
      if name < key then (name, value) :: (key, old) :: rest
      else if name = key then (name, value) :: rest
      else (key, old) :: place name value rest

theorem mem_place {name value : Bytes} {entry : Bytes × Bytes} {entries : List (Bytes × Bytes)}
    (h : entry ∈ place name value entries) : entry = (name, value) ∨ entry ∈ entries := by
  induction entries with
  | nil => simpa [place] using h
  | cons head rest ih =>
      obtain ⟨key, old⟩ := head
      unfold place at h
      split at h
      · exact List.mem_cons.1 h
      · split at h
        · rcases List.mem_cons.1 h with h | h
          · exact .inl h
          · exact .inr (List.mem_cons_of_mem _ h)
        · rcases List.mem_cons.1 h with h | h
          · exact .inr (h ▸ List.mem_cons_self)
          · exact (ih h).imp_right (List.mem_cons_of_mem _)

theorem sorted_place {name value : Bytes} {entries : List (Bytes × Bytes)}
    (h : entries.Pairwise fun p q => p.1 < q.1) :
    (place name value entries).Pairwise fun p q => p.1 < q.1 := by
  induction entries with
  | nil => simp [place]
  | cons head rest ih =>
      obtain ⟨key, old⟩ := head
      obtain ⟨first, others⟩ := List.pairwise_cons.1 h
      unfold place
      split
      · rename_i hlt
        refine List.pairwise_cons.2 ⟨?_, h⟩
        intro entry hmem
        rcases List.mem_cons.1 hmem with rfl | hmem
        · exact hlt
        · exact List.lt_trans hlt (first entry hmem)
      · split
        · rename_i heq
          exact List.pairwise_cons.2 ⟨fun entry hmem => heq ▸ first entry hmem, others⟩
        · rename_i hlt hne
          refine List.pairwise_cons.2 ⟨?_, ih others⟩
          intro entry hmem
          rcases mem_place hmem with rfl | hmem
          · exact Bytes.lt_of_not_lt_of_ne hlt hne
          · exact first entry hmem

/-- The value of a name. -/
def get? (table : Table) (name : Bytes) : Option Bytes := lookup name table.entries

/-- Binds a name, whether it was bound before or not. -/
def insert (table : Table) (name value : Bytes) : Table :=
  ⟨place name value table.entries, sorted_place table.sorted⟩

/-- Binds a name that was not bound before; the first binding of a name stays. -/
def insertNew (table : Table) (name value : Bytes) : Table :=
  match table.get? name with
  | some _ => table
  | none => table.insert name value

/-- The number of bindings. -/
def size (table : Table) : Nat := table.entries.length

/-- The table of a list of bindings; of several with one name the last counts. -/
def ofList (bindings : List (Bytes × Bytes)) : Table :=
  bindings.foldl (fun table binding => table.insert binding.1 binding.2) empty

/-! ### Look-up after each operation -/

@[simp] theorem get?_empty (name : Bytes) : empty.get? name = none := rfl

theorem lookup_place (name value query : Bytes) (entries : List (Bytes × Bytes)) :
    lookup query (place name value entries) =
      if query = name then some value else lookup query entries := by
  induction entries with
  | nil => simp [place, lookup]
  | cons head rest ih =>
      obtain ⟨key, old⟩ := head
      unfold place
      split
      · simp [lookup]
      · split
        · rename_i heq
          subst heq
          by_cases hq : query = name <;> simp [lookup, hq]
        · rename_i hne
          by_cases hq : query = name
          · subst hq
            simp [lookup, ih, hne]
          · simp [lookup, ih, hq]

@[simp] theorem get?_insert (table : Table) (name value query : Bytes) :
    (table.insert name value).get? query =
      if query = name then some value else table.get? query :=
  lookup_place ..

end Table

end AttributeWire
