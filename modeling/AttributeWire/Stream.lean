/-
**Buffered input that arrives in pieces.**

A stream holds the piece that is being read and the events still to come: pieces of data and
faults.  Filling takes the next event when the current piece is used up, and a fault is reported
once.  An empty piece is an end of input that later events may lift.

Readers never fill directly: an *access* first fills until something other than an interruption
comes back, and then fills once more and acts on that second answer.  While data is at hand the two
answers agree; a single empty piece is passed over, and so is the first of two.

Main definitions:

* `Stream`, `Event`, `Ending` — a stream, what it delivers, and what it does when all is delivered;
* `Stream.fill`, `Stream.access`, `Stream.consume` — the operations of a reader;
* `Stream.unread` — the bytes not yet consumed.

Main results:

* `Stream.unread_fill`, `Stream.unread_access` — looking at a stream consumes nothing;
* `Stream.length_unread_access_consume` — consuming all that an access shows shortens the stream.
-/

import AttributeWire.Bytes
import AttributeWire.Fault

set_option relaxedAutoImplicit false
set_option autoImplicit false

namespace AttributeWire

/-- One thing a stream delivers. -/
inductive Event where
  /-- A piece of data; an empty one is an end of input for the moment. -/
  | data (piece : Bytes)
  /-- A fault, reported once. -/
  | fault (fault : Fault)
deriving DecidableEq, Repr

namespace Event

/-- The data of an event. -/
def bytes : Event → Bytes
  | data piece => piece
  | fault _ => []

@[simp] theorem bytes_data (piece : Bytes) : (data piece).bytes = piece := rfl

@[simp] theorem bytes_fault (f : Fault) : (Event.fault f).bytes = [] := rfl

/-- Cuts a byte string into pieces of `size` bytes, the last one possibly shorter.  With size zero
nothing is cut. -/
def cut (size : Nat) (bytes : Bytes) : List Bytes :=
  if size = 0 ∨ bytes.length ≤ size then [bytes]
  else bytes.take size :: cut size (bytes.drop size)
termination_by bytes.length
decreasing_by
  simp only [List.length_drop]
  omega

/-- Cuts the pieces of data among the events into pieces of `size` bytes. -/
def cutAll (size : Nat) (events : List Event) : List Event :=
  events.flatMap fun event =>
    match event with
    | data piece => (cut size piece).map data
    | fault f => [fault f]

end Event

/-- What a stream does once every event is delivered. -/
inductive Ending where
  /-- The other side has closed it: there is no more input. -/
  | closed
  /-- The other side keeps it open and sends nothing: every read gives up waiting. -/
  | silent
deriving DecidableEq, Repr

/-- Input that arrives in pieces. -/
structure Stream where
  /-- What is left of the current piece. -/
  current : Bytes
  /-- The events still to come. -/
  pending : List Event
  /-- What follows the last event. -/
  ending : Ending
deriving DecidableEq, Repr

namespace Stream

/-- A stream that has delivered nothing yet. -/
def ofEvents (events : List Event) (ending : Ending) : Stream := ⟨[], events, ending⟩

/-- The fault of a read that gave up waiting for a silent peer. -/
def silence : Fault := ⟨.wouldBlock, "Resource temporarily unavailable (os error 11)"⟩

/-- The bytes not yet consumed, later events included. -/
def unread (s : Stream) : Bytes := s.current ++ s.pending.flatMap Event.bytes

/-! ### Filling -/

/-- Makes the next event current if the current piece is used up, and gives what is at hand. -/
def fill (s : Stream) : Except Fault Bytes × Stream :=
  match s.current, s.pending with
  | b :: bs, _ => (.ok (b :: bs), s)
  | [], .data piece :: rest => (.ok piece, { s with current := piece, pending := rest })
  | [], .fault f :: rest => (.error f, { s with pending := rest })
  | [], [] =>
      match s.ending with
      | .closed => (.ok [], s)
      | .silent => (.error silence, s)

/-- Uses up the first `n` bytes of the current piece. -/
def consume (n : Nat) (s : Stream) : Stream := { s with current := s.current.drop n }

/-- The events after the interruptions in front. -/
def skipInterrupts : List Event → List Event
  | .fault f :: rest => if f.IsInterrupt then skipInterrupts rest else .fault f :: rest
  | events => events

/-- The stream after the interruptions that the next fill would report. -/
def settle (s : Stream) : Stream :=
  if s.current = [] then { s with pending := skipInterrupts s.pending } else s

/-- What a reader acts on: the fill after the first fill that is no interruption, or the fault that
this one reports. -/
def access (s : Stream) : Except Fault Bytes × Stream :=
  match s.settle.fill with
  -- after data this fill shows the same data again, after an empty piece the next event
  | (.ok _, s) => s.fill
  | (.error f, s) => (.error f, s)

/-! ### What is left unread -/

@[simp] theorem unread_ofEvents (events : List Event) (ending : Ending) :
    (ofEvents events ending).unread = events.flatMap Event.bytes := rfl

theorem flatMap_bytes_skipInterrupts (events : List Event) :
    (skipInterrupts events).flatMap Event.bytes = events.flatMap Event.bytes := by
  fun_induction skipInterrupts events with
  | case1 f rest h ih => simpa using ih
  | case2 => rfl
  | case3 => rfl

@[simp] theorem unread_settle (s : Stream) : s.settle.unread = s.unread := by
  unfold settle
  split
  · simp [unread, flatMap_bytes_skipInterrupts]
  · rfl

/-- **A fill consumes nothing.** -/
@[simp] theorem unread_fill (s : Stream) : s.fill.2.unread = s.unread := by
  unfold fill
  split <;> simp_all [unread]
  split <;> simp_all

/-- **An access consumes nothing.** -/
@[simp] theorem unread_access (s : Stream) : s.access.2.unread = s.unread := by
  unfold access
  have h := s.settle.unread_fill
  split <;> simp_all

/-- What a fill gives is the current piece afterwards. -/
theorem current_of_fill {s s' : Stream} {bytes : Bytes} (h : s.fill = (.ok bytes, s')) :
    s'.current = bytes := by
  unfold fill at h
  split at h
  · rename_i hc
    simp only [Prod.mk.injEq, Except.ok.injEq] at h
    rw [← h.1, ← h.2, hc]
  · simp only [Prod.mk.injEq, Except.ok.injEq] at h
    rw [← h.1, ← h.2]
  · simp at h
  · rename_i hc
    split at h <;> simp_all

theorem unread_of_access {s s' : Stream} {answer : Except Fault Bytes}
    (h : s.access = (answer, s')) : s'.unread = s.unread := by
  rw [← unread_access s, h]

/-- What an access gives is the current piece afterwards. -/
theorem current_of_access {s s' : Stream} {bytes : Bytes} (h : s.access = (.ok bytes, s')) :
    s'.current = bytes := by
  unfold access at h
  split at h
  · exact current_of_fill h
  · simp at h

/-- Consuming drops from what is unread, as far as the current piece reaches. -/
theorem unread_consume {s : Stream} {n : Nat} (h : n ≤ s.current.length) :
    (s.consume n).unread = s.unread.drop n := by
  simp [consume, unread, List.drop_append_of_le_length h]

/-- **Consuming from a non-empty access shortens the stream.** -/
theorem length_unread_access_consume {s s' : Stream} {b : UInt8} {bs : Bytes} {n : Nat}
    (h : s.access = (.ok (b :: bs), s')) (pos : 0 < n) :
    (s'.consume n).unread.length < s.unread.length := by
  have hc := current_of_access h
  rw [← unread_of_access h]
  simp only [consume, unread, hc, List.length_append, List.length_drop, List.length_cons]
  omega

end Stream

end AttributeWire
