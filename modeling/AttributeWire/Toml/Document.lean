/-
**TOML documents and the rules for building them.**

A table can come about in four ways: by a header of its own, on the way to a table further in, by a
dotted key, or inline.  Which way decides what may still be added: an inline table is complete, a
table with a header is extended by sub-tables only, a table on the way may get its header later, and
a table made by dotted keys is extended by dotted keys.  No key is defined twice.

Main definitions:

* `Toml.Origin`, `Toml.Node`, `Toml.Table` — how a table came about, a value, and a table;
* `Toml.alter` — changes the table at the end of a path, making the tables on the way;
* `Toml.Table.addPair` — a key with its value;
* `Toml.Table.addSection` — a header with the pairs below it;
* `Toml.assemble` — a whole document.
-/

import AttributeWire.Toml.Scalar

set_option relaxedAutoImplicit false
set_option autoImplicit false

namespace AttributeWire

namespace Toml

/-- A key. -/
abbrev Key : Type := List Char

/-- A part of a dotted key, with its place in the text. -/
structure KeyPart where
  /-- The part. -/
  key : Key
  /-- Its place. -/
  span : Span
deriving DecidableEq, Repr

/-- How a table came about. -/
inductive Origin where
  /-- By a header of its own. -/
  | header
  /-- On the way to a table further in. -/
  | path
  /-- By a dotted key. -/
  | dotted
  /-- Inline, as a value. -/
  | inline
deriving DecidableEq, Repr

/-- A value with its place in the text.  The place of a table without a text of its own is that of
its header, or else of the key it was first named by. -/
inductive Node where
  | scalar (span : Span) (value : Scalar)
  | array (span : Span) (items : List Node)
  | table (span : Span) (origin : Origin) (entries : List (Key × Node))
  /-- An array whose items each have a header. -/
  | tables (span : Span) (items : List (List (Key × Node)))

/-- The place of a value. -/
def Node.span : Node → Span
  | scalar span _ => span
  | array span _ => span
  | table span _ _ => span
  | tables span _ => span

/-- A table. -/
structure Table where
  /-- Its place in the text. -/
  span : Span
  /-- How it came about. -/
  origin : Origin
  /-- The values of its keys, the oldest first. -/
  entries : List (Key × Node)

namespace Table

/-- A table without entries. -/
def empty (span : Span) (origin : Origin) : Table := ⟨span, origin, []⟩

/-- The table as a value. -/
def toNode (table : Table) : Node := .table table.span table.origin table.entries

/-- The value of a key. -/
def find? (table : Table) (key : Key) : Option Node :=
  (table.entries.find? fun entry => entry.1 == key).map Prod.snd

/-- Gives a key a value, whether it has one or not. -/
def set (table : Table) (key : Key) (node : Node) : Table :=
  { table with entries := (table.entries.filter fun entry => entry.1 != key) ++ [(key, node)] }

end Table

/-! ### Paths -/

/-- The way is a dotted key, not a header. -/
abbrev ByKey : Type := Bool

/-- Changes the table at the end of a path.  Tables on the way are made if they are missing, and a
path through an array of tables leads into its last item.  A dotted key leads only into tables
without a header. -/
def alter (change : Table → Option Table) (byKey : ByKey) : List KeyPart → Table → Option Table
  | [], table => change table
  | part :: path, table =>
      match table.find? part.key with
      | none =>
          let made := Table.empty part.span (if byKey then .dotted else .path)
          (alter change byKey path made).map fun inner => table.set part.key inner.toNode
      | some (.table span origin entries) =>
          -- what is inline is complete, and what has a header takes dotted keys only below it
          if origin = .inline ∨ (byKey = true ∧ origin = .header) then none
          else
            (alter change byKey path ⟨span, origin, entries⟩).map fun inner =>
              table.set part.key inner.toNode
      | some (.tables span items) =>
          match items.getLast? with
          | none => none
          | some last =>
              (alter change byKey path ⟨span, .header, last⟩).map fun inner =>
                table.set part.key (.tables span (items.dropLast ++ [inner.entries]))
      | some _ => none

/-- Adds a key that has no value yet.  A dotted key adds to tables made by dotted keys only. -/
def Table.addLast (dotted : Bool) (key : Key) (node : Node) (table : Table) : Option Table :=
  if (table.origin == .dotted) != dotted then none
  else match table.find? key with
    | some _ => none
    | none => some (table.set key node)

/-- A key, possibly dotted, with its value. -/
def Table.addPair (table : Table) (path : List KeyPart) (node : Node) : Option Table :=
  match path.getLast? with
  | none => none
  | some part =>
      let way := path.dropLast
      alter (Table.addLast (!way.isEmpty) part.key node) true way table

/-! ### Sections -/

/-- A header with the pairs below it. -/
structure Section where
  /-- The header is that of an item of an array of tables. -/
  isItem : Bool
  /-- The place of the header. -/
  span : Span
  /-- The path in the header. -/
  path : List KeyPart
  /-- The pairs below the header. -/
  pairs : List (List KeyPart × Node)

/-- Adds pairs to a table. -/
def Table.addPairs (table : Table) : List (List KeyPart × Node) → Option Table
  | [] => some table
  | (path, node) :: pairs =>
      match table.addPair path node with
      | some table => table.addPairs pairs
      | none => none

/-- The table under a key, with its header and the pairs below it.  The key has no value yet, or a
table that was made on the way to another one. -/
def Table.addHeaded (key : Key) (s : Section) (parent : Table) : Option Table :=
  let start : Option Table :=
    match parent.find? key with
    | none => some (.empty s.span .header)
    | some (.table _ .path entries) => some ⟨s.span, .header, entries⟩
    | some _ => none
  match start with
  | none => none
  | some table => (table.addPairs s.pairs).map fun table => parent.set key table.toNode

/-- One more item of the array of tables under a key. -/
def Table.addItem (key : Key) (s : Section) (parent : Table) : Option Table :=
  let items : Option (Span × List (List (Key × Node))) :=
    match parent.find? key with
    | none => some (s.span, [])
    | some (.tables span items) => some (span, items)
    | some _ => none
  match items with
  | none => none
  | some (span, items) =>
      ((Table.empty s.span .header).addPairs s.pairs).map fun table =>
        parent.set key (.tables span (items ++ [table.entries]))

/-- A header with the pairs below it. -/
def Table.addSection (table : Table) (s : Section) : Option Table :=
  match s.path.getLast? with
  | none => none
  | some part =>
      let add := if s.isItem then Table.addItem part.key s else Table.addHeaded part.key s
      alter add false s.path.dropLast table

/-- Adds sections to a table. -/
def Table.addSections (table : Table) : List Section → Option Table
  | [] => some table
  | s :: sections =>
      match table.addSection s with
      | some table => table.addSections sections
      | none => none

/-- The document of the pairs before the first header and the sections after it. -/
def assemble (pairs : List (List KeyPart × Node)) (sections : List Section) : Option Table :=
  match (Table.empty ⟨0, 0⟩ .header).addPairs pairs with
  | some table => table.addSections sections
  | none => none

end Toml

end AttributeWire
