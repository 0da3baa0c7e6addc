/-
**Wish lists.**

A wish list says which attributes a reader wants, in which order, and where their values go: named
wishes first, then possibly one capture that takes every further attribute by name.  That shape is
the type `WishList`.  Callers may also state a list entry by entry, with a marker at the end; such
a draft is checked, and there are three ways for it to be ill-formed.

Main definitions:

* `Wish`, `WishList` — a named wish, and a well-formed list;
* `Wanted` — what a reader looks for at one moment;
* `Entry`, `WishList.toEntries` — a list stated entry by entry;
* `WishList.ofEntries` — checks a draft;
* `WishList.take` — the list made by adding entries one at a time, and the entries not used.

Main results:

* `WishList.ofEntries_toEntries` — a well-formed list passes the check and is unchanged by it;
* `WishList.take_toEntries` — it is also what adding its entries one at a time makes.
-/

import AttributeWire.Table
import AttributeWire.Value

set_option relaxedAutoImplicit false
set_option autoImplicit false

namespace AttributeWire

/-! ### Named wishes -/

/-- A wish for one attribute. -/
structure Wish where
  /-- The name of the attribute. -/
  name : Bytes
  /-- What the destination of the value holds now; its kind is the kind of value wanted. -/
  value : Value
deriving DecidableEq, Repr

/-- A well-formed wish list: named wishes, then possibly a capture of every further attribute. -/
structure WishList where
  /-- The named wishes, in the order in which they are to be met. -/
  wishes : List Wish
  /-- The table for all further attributes, with what it holds now. -/
  capture : Option Table
deriving DecidableEq

/-! ### What a reader looks for -/

/-- What a reader looks for at one moment. -/
inductive Wanted where
  /-- The attribute of this name. -/
  | named (name : Bytes)
  /-- Any attribute. -/
  | any
  /-- No attribute: the end of the list. -/
  | terminator
deriving DecidableEq, Repr

namespace Wanted

/-- The name in messages of what is looked for. -/
def describe : Wanted → Bytes
  | named name => name
  | any => Bytes.ofText "(any attribute name or list terminator)"
  | terminator => Bytes.ofText "(list terminator)"

/-- The name looked for, if it is fixed. -/
def name? : Wanted → Option Bytes
  | named name => some name
  | any => none
  | terminator => none

/-- An attribute of this name is what is looked for. -/
def Accepts : Wanted → Bytes → Prop
  | named wanted, name => wanted = name
  | any, _ => True
  | terminator, _ => False

instance : (wanted : Wanted) → (name : Bytes) → Decidable (wanted.Accepts name)
  | named wanted, name => inferInstanceAs (Decidable (wanted = name))
  | any, _ => inferInstanceAs (Decidable True)
  | terminator, _ => inferInstanceAs (Decidable False)

@[simp] theorem accepts_named {wanted name : Bytes} :
    (named wanted).Accepts name ↔ wanted = name := Iff.rfl

@[simp] theorem accepts_any (name : Bytes) : any.Accepts name := trivial

@[simp] theorem not_accepts_terminator (name : Bytes) : ¬ terminator.Accepts name := id

end Wanted

/-! ### Lists stated entry by entry -/

/-- One entry of a draft. -/
inductive Entry where
  /-- A named wish. -/
  | named (wish : Wish)
  /-- A capture of every further attribute. -/
  | capture (table : Table)
  /-- The marker at the end of the list. -/
  | terminator
deriving DecidableEq

/-- What an entry looks for. -/
def Entry.wanted : Entry → Wanted
  | .named wish => .named wish.name
  | .capture _ => .any
  | .terminator => .terminator

/-- The ways for a draft to be ill-formed. -/
inductive DraftError where
  /-- There is no marker at the end. -/
  | noTerminator
  /-- Entries follow the marker. -/
  | afterTerminator
  /-- A capture is not the last entry before the marker. -/
  | captureNotLast
deriving DecidableEq, Repr

/-- The text of an error. -/
def DraftError.message : DraftError → String
  | .noTerminator => "attribute wish list has no end marker"
  | .afterTerminator => "attribute wish list has entries after the end marker"
  | .captureNotLast => "hash capture is not followed by the end marker"

namespace WishList

/-- The entries that hold destinations, in order. -/
def holders (list : WishList) : List Entry :=
  list.wishes.map Entry.named ++ list.capture.toList.map Entry.capture

/-- A list stated entry by entry. -/
def toEntries (list : WishList) : List Entry := list.holders ++ [.terminator]

/-- The entries before the first marker and those after it, if there is a marker. -/
def splitTerminator : List Entry → Option (List Entry × List Entry)
  | [] => none
  | .terminator :: rest => some ([], rest)
  | entry :: rest =>
      match splitTerminator rest with
      | some (before, after) => some (entry :: before, after)
      | none => none

/-- The list of entries before the marker, if a capture is only at their end. -/
def ofBody? : List Entry → Option WishList
  | [] => some ⟨[], none⟩
  | .named wish :: rest =>
      match ofBody? rest with
      | some list => some { list with wishes := wish :: list.wishes }
      | none => none
  | [.capture table] => some ⟨[], some table⟩
  | _ => none

/-- Checks a draft: there is a marker, nothing follows the first one, and a capture stands only
directly before it.  Of several faults the first in this order is reported. -/
def ofEntries (entries : List Entry) : Except DraftError WishList :=
  match splitTerminator entries with
  | none => .error .noTerminator
  | some (_, _ :: _) => .error .afterTerminator
  | some (before, []) =>
      match ofBody? before with
      | some list => .ok list
      | none => .error .captureNotLast

/-- Adds entries one at a time: named wishes up to the first capture or marker, which completes
the list.  The entries that were not used come second. -/
def take : List Entry → WishList × List Entry
  | .named wish :: rest =>
      let (list, unused) := take rest
      ({ list with wishes := wish :: list.wishes }, unused)
  | .capture table :: rest => (⟨[], some table⟩, rest)
  | entries => (⟨[], none⟩, entries)

theorem ofBody?_holders (list : WishList) : ofBody? list.holders = some list := by
  obtain ⟨wishes, capture⟩ := list
  induction wishes with
  | nil => cases capture <;> rfl
  | cons wish wishes ih =>
      simp only [holders, List.map_cons, List.cons_append, ofBody?] at ih ⊢
      rw [ih]

theorem splitTerminator_append (before : List Entry) (h : .terminator ∉ before)
    (after : List Entry) :
    splitTerminator (before ++ .terminator :: after) = some (before, after) := by
  induction before with
  | nil => rfl
  | cons entry before ih =>
      have hrest := ih fun hmem => h (List.mem_cons_of_mem _ hmem)
      cases entry with
      | terminator => exact absurd List.mem_cons_self h
      | _ => simp [splitTerminator, hrest]

theorem terminator_not_mem_holders (list : WishList) : Entry.terminator ∉ list.holders := by
  simp [holders]

/-- **A well-formed list passes the check and is unchanged by it.** -/
@[simp] theorem ofEntries_toEntries (list : WishList) : ofEntries list.toEntries = .ok list := by
  simp [ofEntries, toEntries, splitTerminator_append _ (terminator_not_mem_holders list),
    ofBody?_holders]

/-- **A list is what adding its entries one at a time makes**; the marker is left over. -/
theorem take_toEntries (list : WishList) :
    take list.toEntries = (list, [.terminator]) := by
  obtain ⟨wishes, capture⟩ := list
  induction wishes with
  | nil => cases capture <;> rfl
  | cons wish wishes ih =>
      simp only [toEntries, holders, List.map_cons, List.cons_append, take] at ih ⊢
      rw [ih]

end WishList

end AttributeWire
