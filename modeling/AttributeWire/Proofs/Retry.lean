/-
**Retrying when interrupted.**

A read that was interrupted is tried again.  The plain way to do so is to fill until something other
than an interruption comes back, and to act on that.  An access fills once more and acts on the
second answer.  The two agree unless the first answer was an empty piece: then the access passes
over the end of input that the piece stands for, and acts on what is behind it.

Both ways are compared by the readers as they are.  If each empty piece comes twice, then an access
passes over the first of the two and acts on the second, so that accesses to such a stream are plain
retries on the stream with each empty piece once.

Main definitions:

* `Stream.retry` — the first fill that is no interruption;
* `Stream.lasting` — the stream with each empty piece twice;
* `Event.Over` — events behind which there is no more input, however often it is looked for;
* `Event.Unlifted` — the first end of input that is met is the end;
* `Stream.Retried` — a stream and the one with each empty piece twice, as long as they are alike.

Main results:

* `Stream.retry_eq`, `Stream.access_eq_retry`, `Stream.access_lasting` — plain retries, and accesses
  told by them;
* `Stream.bisimulation_retried` — **as long as no end of input is lifted, accesses are plain
  retries**.
-/

import AttributeWire.Proofs.Calls

set_option relaxedAutoImplicit false
set_option autoImplicit false

namespace AttributeWire

/-! ### Plain retries -/

namespace Stream

/-- The first fill that is no interruption. -/
def retry (s : Stream) : Except Fault Bytes × Stream := s.settle.fill

/-- **A retry fills again while it is interrupted.** -/
theorem retry_eq (s : Stream) :
    s.retry =
      match s.fill with
      | (.error fault, s₁) => if fault.IsInterrupt then s₁.retry else (.error fault, s₁)
      | (.ok bytes, s₁) => (.ok bytes, s₁) := by
  obtain ⟨_ | ⟨b, bs⟩, pending, ending⟩ := s
  · rcases pending with _ | ⟨piece | fault, pending⟩
    · cases ending <;> rfl
    · rfl
    · by_cases hf : fault.IsInterrupt
      · simp [retry, settle, skipInterrupts, fill, hf]
      · simp [retry, settle, skipInterrupts, fill, hf]
  · rfl

/-- **An access acts on the first fill that is no interruption**, unless it is empty: then it acts
on the next fill, whatever this is. -/
theorem access_eq_retry (s : Stream) :
    s.access =
      match s.retry with
      | (.ok [], s₁) => s₁.fill
      | (.ok (b :: bs), s₁) => (.ok (b :: bs), s₁)
      | (.error fault, s₁) => (.error fault, s₁) := by
  rw [access, ← retry]
  rcases hretry : s.retry with ⟨_ | _ | ⟨b, bs⟩, s₁⟩
  · rfl
  · rfl
  · have hcurrent : s₁.current = b :: bs := current_of_fill hretry
    simp only [fill, hcurrent]

end Stream

/-! ### Each empty piece twice -/

namespace Event

/-- The events with each empty piece twice. -/
def lasting : List Event → List Event
  | data [] :: rest => data [] :: data [] :: lasting rest
  | data (b :: bs) :: rest => data (b :: bs) :: lasting rest
  | fault f :: rest => fault f :: lasting rest
  | [] => []

theorem skipInterrupts_lasting (events : List Event) :
    Stream.skipInterrupts (lasting events) = lasting (Stream.skipInterrupts events) := by
  fun_induction lasting events with
  | case1 => rfl
  | case2 => rfl
  | case3 f rest ih =>
      by_cases hf : f.IsInterrupt
      · simp only [Stream.skipInterrupts, if_pos hf, ih]
      · simp only [Stream.skipInterrupts, if_neg hf, lasting]
  | case4 => rfl

theorem flatMap_bytes_lasting (events : List Event) :
    (lasting events).flatMap bytes = events.flatMap bytes := by
  fun_induction lasting events with
  | case1 rest ih => simpa using ih
  | case2 b bs rest ih => simpa using ih
  | case3 f rest ih => simpa using ih
  | case4 => rfl

end Event

namespace Stream

/-- The stream with each empty piece that is still to come twice. -/
def lasting (s : Stream) : Stream := { s with pending := Event.lasting s.pending }

theorem consume_lasting (s : Stream) (n : Nat) : s.lasting.consume n = (s.consume n).lasting := rfl

theorem unread_lasting (s : Stream) : s.lasting.unread = s.unread := by
  rw [unread, unread, lasting, Event.flatMap_bytes_lasting]

theorem settle_lasting (s : Stream) : s.lasting.settle = s.settle.lasting := by
  unfold settle
  by_cases hcurrent : s.current = []
  · rw [if_pos hcurrent, if_pos (show s.lasting.current = [] from hcurrent)]
    simp only [lasting, Event.skipInterrupts_lasting]
  · rw [if_neg hcurrent, if_neg (show s.lasting.current ≠ [] from hcurrent)]

/-- **Accesses to a stream with each empty piece twice are plain retries.** -/
theorem access_lasting (s : Stream) : s.lasting.access = (s.retry.1, s.retry.2.lasting) := by
  rw [access, settle_lasting, retry]
  obtain ⟨current, pending, ending⟩ := s.settle
  rcases current with _ | ⟨b, bs⟩
  · rcases pending with _ | ⟨piece | f, pending⟩
    · cases ending <;> rfl
    · cases piece <;> rfl
    · rfl
  · rfl

/-! ### Accesses, event by event -/

section

variable {rest : List Event} {ending : Ending} {f : Fault}

theorem access_current (b : UInt8) (bs : Bytes) (pending : List Event) (ending : Ending) :
    (⟨b :: bs, pending, ending⟩ : Stream).access = (.ok (b :: bs), ⟨b :: bs, pending, ending⟩) :=
  rfl

theorem access_data (b : UInt8) (bs : Bytes) (rest : List Event) (ending : Ending) :
    (⟨[], .data (b :: bs) :: rest, ending⟩ : Stream).access =
      (.ok (b :: bs), ⟨b :: bs, rest, ending⟩) := rfl

theorem access_gap (ending : Ending) :
    (⟨[], [.data []], ending⟩ : Stream).access = (⟨[], [], ending⟩ : Stream).access := by
  cases ending <;> rfl

theorem access_gap_data (piece : Bytes) (rest : List Event) (ending : Ending) :
    (⟨[], .data [] :: .data piece :: rest, ending⟩ : Stream).access =
      (.ok piece, ⟨piece, rest, ending⟩) := by
  cases piece <;> rfl

theorem access_gap_fault (f : Fault) (rest : List Event) (ending : Ending) :
    (⟨[], .data [] :: .fault f :: rest, ending⟩ : Stream).access =
      (.error f, ⟨[], rest, ending⟩) := rfl

theorem access_interrupt (hf : f.IsInterrupt) :
    (⟨[], .fault f :: rest, ending⟩ : Stream).access = (⟨[], rest, ending⟩ : Stream).access := by
  simp [access, settle, skipInterrupts, hf]

theorem access_fault (hf : ¬ f.IsInterrupt) :
    (⟨[], .fault f :: rest, ending⟩ : Stream).access = (.error f, ⟨[], rest, ending⟩) := by
  simp [access, settle, skipInterrupts, hf, fill]

end

end Stream

/-! ### Ends of input that are not lifted -/

namespace Event

/-- There is no more input: only empty pieces and interruptions are still to come, and each access
to them passes over two empty pieces and no interruption between the two. -/
def Over (ending : Ending) : List Event → Prop
  | [] => ending = .closed
  | [data []] => ending = .closed
  | data [] :: data [] :: rest => Over ending rest
  | data [] :: data (_ :: _) :: _ => False
  | data [] :: fault _ :: _ => False
  | data (_ :: _) :: _ => False
  | fault f :: rest => f.IsInterrupt ∧ Over ending rest

/-- The first end of input that is met is the end. -/
def Unlifted (ending : Ending) : List Event → Prop
  | [] => True
  | data [] :: rest => Over ending (data [] :: rest)
  | data (_ :: _) :: rest => Unlifted ending rest
  | fault _ :: rest => Unlifted ending rest

theorem unlifted_of_gapless {ending : Ending} {events : List Event}
    (h : ∀ event ∈ events, event ≠ data []) : Unlifted ending events := by
  fun_induction Unlifted ending events with
  | case1 => trivial
  | case2 rest => exact absurd rfl (h _ List.mem_cons_self)
  | case3 b bs rest ih => exact ih (List.forall_mem_cons.1 h).2
  | case4 f rest ih => exact ih (List.forall_mem_cons.1 h).2

theorem over_lasting {ending : Ending} {events : List Event} (h : Over ending events) :
    Over ending (lasting events) := by
  fun_induction Over ending events with
  | case1 => exact h
  | case2 => exact h
  | case3 rest ih => exact ih h
  | case4 => exact h.elim
  | case5 => exact h.elim
  | case6 => exact h.elim
  | case7 f rest ih => exact ⟨h.1, ih h.2⟩

end Event

namespace Stream

/-- Every access finds the end of the input. -/
structure IsOver (s : Stream) : Prop where
  current : s.current = []
  events : Event.Over s.ending s.pending

/-- A stream, and the stream with each empty piece twice, before an end of input; or any two streams
behind the end of all input. -/
inductive Retried : Stream → Stream → Prop
  | unlifted {s : Stream} (h : Event.Unlifted s.ending s.pending) : Retried s s.lasting
  | ended {s t : Stream} (hs : s.IsOver) (ht : t.IsOver) : Retried s t

theorem access_of_over {ending : Ending} {events : List Event} (h : Event.Over ending events) :
    ∃ s₁, (⟨[], events, ending⟩ : Stream).access = (.ok [], s₁) ∧ s₁.IsOver := by
  fun_induction Event.Over ending events with
  | case1 =>
      subst h
      exact ⟨_, rfl, rfl, rfl⟩
  | case2 =>
      subst h
      exact ⟨_, rfl, rfl, rfl⟩
  | case3 rest ih => exact ⟨_, access_gap_data [] rest ending, rfl, h⟩
  | case4 => exact h.elim
  | case5 => exact h.elim
  | case6 => exact h.elim
  | case7 f rest ih =>
      rw [access_interrupt h.1]
      exact ih h.2

theorem IsOver.access {s : Stream} (h : s.IsOver) : ∃ s₁, s.access = (.ok [], s₁) ∧ s₁.IsOver := by
  obtain ⟨current, pending, ending⟩ := s
  obtain ⟨hcurrent, hover⟩ := h
  obtain rfl : current = [] := hcurrent
  exact access_of_over hover

theorem IsOver.consume {s : Stream} (h : s.IsOver) (n : Nat) : (s.consume n).IsOver :=
  ⟨by rw [Stream.consume, h.current, List.drop_nil], h.events⟩

theorem IsOver.unread {s : Stream} (h : s.IsOver) : s.unread = [] := by
  obtain ⟨current, pending, ending⟩ := s
  obtain ⟨hcurrent, hover⟩ := h
  obtain rfl : current = [] := hcurrent
  have hbytes : pending.flatMap Event.bytes = [] := by
    simp only at hover
    fun_induction Event.Over ending pending with
    | case1 => rfl
    | case2 => rfl
    | case3 rest ih => exact ih hover
    | case4 => exact hover.elim
    | case5 => exact hover.elim
    | case6 => exact hover.elim
    | case7 f rest ih => exact ih hover.2
  rw [Stream.unread, hbytes, List.append_nil]

namespace Retried

theorem of_ended {s t : Stream} (hs : s.IsOver) (ht : t.IsOver) :
    t.access.1 = s.access.1 ∧ Retried s.access.2 t.access.2 := by
  obtain ⟨s₁, haccess, hs₁⟩ := hs.access
  obtain ⟨t₁, haccess', ht₁⟩ := ht.access
  rw [haccess, haccess']
  exact ⟨rfl, .ended hs₁ ht₁⟩

/-- Before an end of input an access is the same as with each empty piece twice. -/
theorem of_unlifted {ending : Ending} {events : List Event} (h : Event.Unlifted ending events) :
    let s : Stream := ⟨[], events, ending⟩
    s.lasting.access.1 = s.access.1 ∧ Retried s.access.2 s.lasting.access.2 := by
  fun_induction Event.Unlifted ending events with
  | case1 => cases ending <;> exact ⟨rfl, .unlifted trivial⟩
  | case2 rest => exact of_ended ⟨rfl, h⟩ ⟨rfl, Event.over_lasting h⟩
  | case3 b bs rest => exact ⟨rfl, .unlifted h⟩
  | case4 f rest ih =>
      by_cases hf : f.IsInterrupt
      · simp only [lasting, Event.lasting, access_interrupt hf]
        exact ih h
      · simp only [lasting, Event.lasting, access_fault hf]
        exact ⟨trivial, .unlifted h⟩

theorem unread_eq {s t : Stream} (h : Retried s t) : t.unread = s.unread := by
  cases h with
  | unlifted h => exact s.unread_lasting
  | ended hs ht => rw [hs.unread, ht.unread]

end Retried

/-- **As long as no end of input is lifted, accesses are plain retries.** -/
theorem bisimulation_retried : Bisimulation Retried where
  access := by
    intro s t h
    cases h with
    | ended hs ht => exact Retried.of_ended hs ht
    | unlifted h =>
        obtain ⟨_ | ⟨b, bs⟩, pending, ending⟩ := s
        · exact Retried.of_unlifted h
        · exact ⟨rfl, .unlifted h⟩
  consume := by
    intro s t h n
    cases h with
    | ended hs ht => exact .ended (hs.consume n) (ht.consume n)
    | unlifted h => exact .unlifted h

end Stream

end AttributeWire
