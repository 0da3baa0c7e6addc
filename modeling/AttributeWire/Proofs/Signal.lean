/-
**Streams that carry the same bytes and faults.**

Forgetting how the data is cut into pieces and where reading it is interrupted, what remains of a
stream is a sequence of signals, each of them a byte or a fault.  Two gapless streams that carry the
same signals cannot be told apart by looking at what is ahead on them, by meeting what stops them,
or by reading past the same bytes.

Main definitions:

* `Signal`, `Stream.signals` — a byte or a fault, and those that a stream carries;
* `Stream.Alike` — two gapless streams carry the same signals.

Main results:

* `Stream.Alike.ahead`, `Stream.Alike.unread` — the same bytes are ahead, and are unread;
* `Stream.Alike.advance` — **reading past the same bytes** leaves the streams alike;
* `Stream.Alike.stalled` — **what stops them** is the same, and leaves them alike.
-/

import AttributeWire.Proofs.Stream

set_option relaxedAutoImplicit false
set_option autoImplicit false

namespace AttributeWire

/-! ### Signals -/

/-- What a stream carries, one byte or one fault at a time. -/
inductive Signal where
  | byte (b : UInt8)
  | fault (f : Fault)
deriving DecidableEq, Repr

namespace Signal

/-- The bytes before the first fault. -/
def ahead : List Signal → Bytes
  | byte b :: rest => b :: ahead rest
  | _ => []

/-- All bytes. -/
def bytes : List Signal → Bytes
  | byte b :: rest => b :: bytes rest
  | fault _ :: rest => bytes rest
  | [] => []

theorem ahead_map_append (front : Bytes) (signals : List Signal) :
    ahead (front.map byte ++ signals) = front ++ ahead signals := by
  induction front with
  | nil => rfl
  | cons b front ih => rw [List.map_cons, List.cons_append, ahead, ih, List.cons_append]

theorem bytes_map_append (front : Bytes) (signals : List Signal) :
    bytes (front.map byte ++ signals) = front ++ bytes signals := by
  induction front with
  | nil => rfl
  | cons b front ih => rw [List.map_cons, List.cons_append, bytes, ih, List.cons_append]

end Signal

namespace Event

/-- What events carry.  Interruptions are not seen, and neither is where a piece ends. -/
def signals : List Event → List Signal
  | data piece :: rest => piece.map .byte ++ signals rest
  | fault f :: rest => if f.IsInterrupt then signals rest else .fault f :: signals rest
  | [] => []

theorem signals_fault {f : Fault} (hf : ¬ f.IsInterrupt) (rest : List Event) :
    signals (fault f :: rest) = .fault f :: signals rest := by
  rw [signals, if_neg hf]

theorem signals_eq (events : List Event) :
    signals events = (ahead events).map .byte ++ signals (beyond events) := by
  fun_induction ahead events with
  | case1 piece rest ih => rw [signals, ih, beyond, List.map_append, List.append_assoc]
  | case2 f rest h ih => rw [signals, if_pos h, ih, beyond, if_pos h]
  | case3 f rest h => rw [beyond, if_neg h, List.map_nil, List.nil_append]
  | case4 => rfl

theorem bytes_signals (events : List Event) :
    Signal.bytes (signals events) = events.flatMap bytes := by
  fun_induction signals events with
  | case1 piece rest ih => rw [Signal.bytes_map_append, ih, List.flatMap_cons, bytes_data]
  | case2 f rest h ih => rw [ih, List.flatMap_cons, bytes_fault, List.nil_append]
  | case3 f rest h ih => rw [Signal.bytes, ih, List.flatMap_cons, bytes_fault, List.nil_append]
  | case4 => rfl

/-- No byte stands in front of the next fault. -/
theorem ahead_signals_beyond (events : List Event) :
    Signal.ahead (signals (beyond events)) = [] := by
  rcases beyond_eq_nil_or events with hnil | ⟨f, rest, hfault, hf⟩
  · rw [hnil]
    rfl
  · rw [hfault, signals_fault hf]
    rfl

/-- The same signals from the next fault on come with the same fault, if there is one. -/
theorem beyond_cases {events others : List Event}
    (h : signals (beyond events) = signals (beyond others)) :
    beyond events = [] ∧ beyond others = [] ∨
      ∃ f rest rest', beyond events = fault f :: rest ∧ beyond others = fault f :: rest' ∧
        signals rest = signals rest' := by
  rcases beyond_eq_nil_or events with hnil | ⟨f, rest, hfault, hf⟩
  · rcases beyond_eq_nil_or others with hnil' | ⟨f', rest', hfault', hf'⟩
    · exact .inl ⟨hnil, hnil'⟩
    · rw [hnil, hfault', signals_fault hf'] at h
      cases h
  · rcases beyond_eq_nil_or others with hnil' | ⟨f', rest', hfault', hf'⟩
    · rw [hfault, hnil', signals_fault hf] at h
      cases h
    · rw [hfault, hfault', signals_fault hf, signals_fault hf', List.cons.injEq,
        Signal.fault.injEq] at h
      obtain ⟨rfl, hrest⟩ := h
      exact .inr ⟨f, rest, rest', hfault, hfault', hrest⟩

end Event

namespace Stream

/-- What a stream still carries. -/
def signals (s : Stream) : List Signal := s.current.map .byte ++ Event.signals s.pending

theorem signals_eq (s : Stream) : s.signals = s.ahead.map .byte ++ Event.signals s.beyond := by
  rw [signals, Event.signals_eq, ahead, beyond, List.map_append, List.append_assoc]

theorem ahead_signals (s : Stream) : Signal.ahead s.signals = s.ahead := by
  rw [signals_eq, Signal.ahead_map_append, beyond, Event.ahead_signals_beyond, List.append_nil]

theorem bytes_signals (s : Stream) : Signal.bytes s.signals = s.unread := by
  rw [signals, Signal.bytes_map_append, Event.bytes_signals, unread]

/-- Two gapless streams carry the same bytes, and the same faults between the same bytes. -/
structure Alike (s t : Stream) : Prop where
  left : s.Gapless
  right : t.Gapless
  signals : s.signals = t.signals
  ending : s.ending = t.ending

namespace Alike

variable {s s' t t' : Stream}

theorem ahead (h : s.Alike t) : s.ahead = t.ahead := by
  rw [← ahead_signals s, h.signals, ahead_signals]

theorem unread (h : s.Alike t) : s.unread = t.unread := by
  rw [← bytes_signals s, h.signals, bytes_signals]

theorem beyond (h : s.Alike t) : Event.signals s.beyond = Event.signals t.beyond := by
  have hsignals := h.signals
  rw [signals_eq, signals_eq, h.ahead] at hsignals
  exact List.append_cancel_left hsignals

/-- **Reading past the same bytes** leaves the streams alike. -/
theorem advance {consumed : Bytes} (h : s.Alike t) (hs : s.Advances consumed s')
    (ht : t.Advances consumed t') : s'.Alike t' where
  left := hs.gapless
  right := ht.gapless
  signals := by
    have hahead : s'.ahead = t'.ahead := hs.ahead_eq (h.ahead.trans ht.ahead)
    rw [signals_eq, signals_eq, hahead, hs.beyond, ht.beyond, h.beyond]
  ending := by rw [hs.ending, ht.ending, h.ending]

/-- **What stops them** is the same, and leaves them alike. -/
theorem stalled (h : s.Alike t) : s.stall = t.stall ∧ s.past.Alike t.past := by
  have hpast : Event.signals s.beyond.tail = Event.signals t.beyond.tail → s.past.Alike t.past :=
    fun htail => ⟨gapless_past h.left, gapless_past h.right, htail, h.ending⟩
  rcases Event.beyond_cases h.beyond with ⟨hs, ht⟩ | ⟨f, rest, rest', hs, ht, hrest⟩
  · refine ⟨?_, hpast ?_⟩
    · rw [stall, stall, Stream.beyond, Stream.beyond, hs, ht, h.ending]
    · rw [Stream.beyond, Stream.beyond, hs, ht]
  · refine ⟨?_, hpast ?_⟩
    · rw [stall, stall, Stream.beyond, Stream.beyond, hs, ht]
    · rw [Stream.beyond, Stream.beyond, hs, ht]
      exact hrest

end Alike

end Stream

end AttributeWire
