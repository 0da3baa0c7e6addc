/-
**Writing attribute lists.**

An attribute is a line: its name in base64, a colon, its value in base64, a newline.  An empty line
ends a list.  A table is written as one line for each of its bindings, in the order of the names.

Lines go to a sink, which may have room for so many bytes only.  A line that does not fit is written
as far as there is room, and the sink then reports a fault; a table stops at its first line that
fails.

Main definitions:

* `attributeLine`, `listText` — the wire form of an attribute, and of a whole list;
* `Item`, `Item.lines` — what can be written, and its lines;
* `Sink`, `Sink.write`, `Sink.print`, `Sink.flush` — a sink, and writing to it;
* `PrintStep`, `Sink.run` — several steps, each of them taken whatever became of the others.
-/

import AttributeWire.Base64
import AttributeWire.Fault
import AttributeWire.Table
import AttributeWire.Value

set_option relaxedAutoImplicit false
set_option autoImplicit false

namespace AttributeWire

/-! ### The wire form -/

/-- The line of an attribute. -/
def attributeLine (name value : Bytes) : Bytes :=
  Base64.encode name ++ Bytes.colon :: Base64.encode value ++ [Bytes.newline]

/-- The empty line that ends a list. -/
def terminatorLine : Bytes := [Bytes.newline]

/-- The wire form of a list of attributes, the end included. -/
def listText (attributes : List (Bytes × Bytes)) : Bytes :=
  attributes.flatMap (fun pair => attributeLine pair.1 pair.2) ++ terminatorLine

@[simp] theorem listText_nil : listText [] = terminatorLine := rfl

theorem listText_cons (name value : Bytes) (rest : List (Bytes × Bytes)) :
    listText ((name, value) :: rest) = attributeLine name value ++ listText rest := by
  simp [listText]

/-- What can be written. -/
inductive Item where
  /-- An attribute with a typed value. -/
  | line (name : Bytes) (value : Value)
  /-- An attribute for each binding of a table. -/
  | table (table : Table)
  /-- The end of the list. -/
  | terminator
deriving DecidableEq

/-- The lines of an item. -/
def Item.lines : Item → List Bytes
  | line name value => [attributeLine name value.text]
  | table t => t.entries.map fun entry => attributeLine entry.1 entry.2
  | terminator => [terminatorLine]

/-! ### Sinks -/

/-- Where lines are written to. -/
structure Sink where
  /-- How many more bytes fit, `none` if any number does. -/
  room : Option Nat
  /-- What the sink reports when it is full; without it, a full sink takes nothing and reports
  nothing.  It is no interruption: a write that is interrupted is tried again, and a full sink would
  be tried for ever. -/
  fault : Option Fault
  /-- What was written. -/
  written : Bytes

namespace Sink

/-- A sink with room for everything. -/
def unlimited : Sink := ⟨none, none, []⟩

/-- Writes a byte string as far as there is room. -/
def write (sink : Sink) (bytes : Bytes) : Option Fault × Sink :=
  match sink.room with
  | none => (none, { sink with written := sink.written ++ bytes })
  | some room =>
      (if bytes.length ≤ room then none else some (sink.fault.getD (.ofKind .writeZero)),
        ⟨some (room - bytes.length), sink.fault, sink.written ++ bytes.take room⟩)

/-- Writes lines up to the first one that fails. -/
def writeLines (sink : Sink) : List Bytes → Option Fault × Sink
  | [] => (none, sink)
  | line :: lines =>
      match sink.write line with
      | (none, sink) => writeLines sink lines
      | (some fault, sink) => (some fault, sink)

/-- Writes an item. -/
def print (sink : Sink) (item : Item) : Option Fault × Sink := sink.writeLines item.lines

/-- Passes on what was written, which fails if the sink is full and reports a fault then. -/
def flush (sink : Sink) : Option Fault :=
  if sink.room = some 0 then sink.fault else none

end Sink

/-- One step of a writer. -/
inductive PrintStep where
  /-- Write an item. -/
  | print (item : Item)
  /-- Pass on what was written. -/
  | flush
deriving DecidableEq

namespace Sink

/-- One step. -/
def step (sink : Sink) : PrintStep → Option Fault × Sink
  | .print item => sink.print item
  | .flush => (sink.flush, sink)

/-- Several steps in order, each of them taken whatever became of the others: the fault of each
that failed, and the sink afterwards. -/
def run (sink : Sink) : List PrintStep → List (Option Fault) × Sink
  | [] => ([], sink)
  | s :: steps =>
      let (fault, sink) := sink.step s
      let (faults, sink) := sink.run steps
      (fault :: faults, sink)

@[simp] theorem run_nil (sink : Sink) : sink.run [] = ([], sink) := rfl

theorem run_cons (sink : Sink) (s : PrintStep) (steps : List PrintStep) :
    sink.run (s :: steps) =
      ((sink.step s).1 :: ((sink.step s).2.run steps).1, ((sink.step s).2.run steps).2) := rfl

theorem write_unlimited {sink : Sink} (h : sink.room = none) (bytes : Bytes) :
    sink.write bytes = (none, { sink with written := sink.written ++ bytes }) := by
  simp [write, h]

end Sink

end AttributeWire
