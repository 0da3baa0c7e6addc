/-
**What a stream holds ahead of its next fault.**

How the input is cut into pieces, and how often reading it is interrupted, is of no consequence to
a reader, as long as no piece is empty.  What counts is the run of bytes before the next fault that
is no interruption, and the events from that fault on.  Reading consumes from the front of that run
and leaves the later events alone; the relation `Stream.Advances` says so, and composes.

Main definitions:

* `Stream.ahead`, `Stream.beyond` — the bytes before the next fault, and the events from it on;
* `Stream.Gapless` — no piece still to come is empty;
* `Stream.Steady` — a gapless stream without any fault but interruptions;
* `Stream.stall`, `Stream.past` — what stops the stream behind the bytes ahead, and what is left
  behind that;
* `Stream.Advances` — some bytes are read past, and nothing else changes.

Main results:

* `Stream.access_of_ahead` — **an access shows the first of the bytes ahead**, however they are cut;
* `Stream.access_before` — the first access to some bytes before a stop byte;
* `Stream.access_of_stalled` — **behind the bytes ahead an access meets what stops the stream**;
* `Stream.access_of_exhausted` — an end of input is the end;
* `Stream.steady_ofEvents`, `Stream.steady_bytewise` — pieces of data, none of them empty, make a
  steady stream.
-/

import AttributeWire.Stream

set_option relaxedAutoImplicit false
set_option autoImplicit false

namespace AttributeWire

/-! ### The run of bytes before the next fault -/

namespace Event

/-- The data of events up to the first fault that is no interruption. -/
def ahead : List Event → Bytes
  | data piece :: rest => piece ++ ahead rest
  | fault f :: rest => if f.IsInterrupt then ahead rest else []
  | [] => []

/-- The events from the first fault that is no interruption on. -/
def beyond : List Event → List Event
  | data _ :: rest => beyond rest
  | fault f :: rest => if f.IsInterrupt then beyond rest else fault f :: rest
  | [] => []

theorem flatMap_bytes_eq (events : List Event) :
    events.flatMap bytes = ahead events ++ (beyond events).flatMap bytes := by
  fun_induction ahead events with
  | case1 piece rest ih => simp [beyond, ih]
  | case2 f rest h ih => simp [beyond, h, ih]
  | case3 f rest h => simp [beyond, h]
  | case4 => rfl

/-- The events from the next fault on begin with it. -/
theorem beyond_eq_nil_or (events : List Event) :
    beyond events = [] ∨ ∃ f rest, beyond events = fault f :: rest ∧ ¬ f.IsInterrupt := by
  fun_induction beyond events with
  | case1 piece rest ih => exact ih
  | case2 f rest h ih => exact ih
  | case3 f rest h => exact .inr ⟨f, rest, rfl, h⟩
  | case4 => exact .inl rfl

end Event

namespace Stream

/-- The bytes before the next fault that is no interruption. -/
def ahead (s : Stream) : Bytes := s.current ++ Event.ahead s.pending

/-- The events from the next fault that is no interruption on. -/
def beyond (s : Stream) : List Event := Event.beyond s.pending

/-- No piece of data still to come is empty, so that an end of input is the end. -/
def Gapless (s : Stream) : Prop := ∀ event ∈ s.pending, event ≠ .data []

instance (s : Stream) : Decidable s.Gapless :=
  inferInstanceAs (Decidable (∀ event ∈ s.pending, event ≠ .data []))

/-- A gapless stream on which nothing goes wrong but interruptions. -/
structure Steady (s : Stream) : Prop where
  gapless : s.Gapless
  beyond : s.beyond = []

theorem unread_eq (s : Stream) : s.unread = s.ahead ++ s.beyond.flatMap Event.bytes := by
  rw [unread, ahead, beyond, List.append_assoc, Event.flatMap_bytes_eq]

theorem Steady.ahead {s : Stream} (hs : s.Steady) : s.ahead = s.unread := by
  rw [unread_eq, hs.beyond, List.flatMap_nil, List.append_nil]

/-- Pieces of data, none of them empty, make a steady stream. -/
theorem steady_ofEvents {pieces : List Bytes} (h : ∀ piece ∈ pieces, piece ≠ []) (ending : Ending) :
    (ofEvents (pieces.map .data) ending).Steady := by
  refine ⟨?_, ?_⟩
  · intro event hmem
    obtain ⟨piece, hpiece, rfl⟩ := List.mem_map.1 hmem
    intro heq
    exact h piece hpiece (Event.data.inj heq)
  · show Event.beyond (pieces.map .data) = []
    clear h
    induction pieces with
    | nil => rfl
    | cons piece pieces ih => simpa [Event.beyond] using ih

/-- A stream that delivers its bytes one at a time. -/
def bytewise (bytes : Bytes) (ending : Ending) : Stream :=
  .ofEvents ((bytes.map fun b => [b]).map .data) ending

theorem steady_bytewise (bytes : Bytes) (ending : Ending) : (bytewise bytes ending).Steady := by
  refine steady_ofEvents (fun piece hmem => ?_) ending
  obtain ⟨b, -, rfl⟩ := List.mem_map.1 hmem
  simp

@[simp] theorem unread_bytewise (bytes : Bytes) (ending : Ending) :
    (bytewise bytes ending).unread = bytes := by
  induction bytes with
  | nil => rfl
  | cons b bytes ih =>
      simp only [bytewise, unread_ofEvents, List.map_cons, List.flatMap_cons] at ih ⊢
      rw [ih]
      rfl

/-! ### Reading past some bytes -/

/-- Reading past `consumed` leads from the first stream to the second. -/
structure Advances (s : Stream) (consumed : Bytes) (s' : Stream) : Prop where
  ahead : s.ahead = consumed ++ s'.ahead
  beyond : s'.beyond = s.beyond
  ending : s'.ending = s.ending
  gapless : s'.Gapless

namespace Advances

variable {s t u : Stream} {a b : Bytes}

theorem refl (h : s.Gapless) : s.Advances [] s := ⟨rfl, rfl, rfl, h⟩

theorem trans (h : s.Advances a t) (h' : t.Advances b u) : s.Advances (a ++ b) u where
  ahead := by rw [h.ahead, h'.ahead, List.append_assoc]
  beyond := h'.beyond.trans h.beyond
  ending := h'.ending.trans h.ending
  gapless := h'.gapless

theorem unread (h : s.Advances a t) : s.unread = a ++ t.unread := by
  rw [unread_eq, unread_eq, h.ahead, h.beyond, List.append_assoc]

/-- What is left ahead is what followed the bytes that were read past. -/
theorem ahead_eq (h : s.Advances a t) (hs : s.ahead = a ++ b) : t.ahead = b := by
  have heq := h.ahead
  rw [hs] at heq
  exact (List.append_cancel_left heq).symm

theorem unread_eq_of_append (h : s.Advances a t) (hs : s.unread = a ++ b) : t.unread = b := by
  have heq := h.unread
  rw [hs] at heq
  exact (List.append_cancel_left heq).symm

theorem steady (h : s.Advances a t) (hs : s.Steady) : t.Steady :=
  ⟨h.gapless, h.beyond.trans hs.beyond⟩

end Advances

/-- Consuming from the current piece reads past what is consumed. -/
theorem advances_consume {s : Stream} (hs : s.Gapless) (a rest : Bytes)
    (h : s.current = a ++ rest) : s.Advances a (s.consume a.length) where
  ahead := by simp [ahead, consume, h]
  beyond := rfl
  ending := rfl
  gapless := hs

/-! ### What an access shows -/

theorem skipInterrupts_suffix (events : List Event) : skipInterrupts events <:+ events := by
  fun_induction skipInterrupts events with
  | case1 f rest h ih => exact ih.trans (List.suffix_cons _ _)
  | case2 => exact List.suffix_rfl
  | case3 => exact List.suffix_rfl

theorem ahead_skipInterrupts (events : List Event) :
    Event.ahead (skipInterrupts events) = Event.ahead events := by
  fun_induction skipInterrupts events with
  | case1 f rest h ih => simpa [Event.ahead, h] using ih
  | case2 => rfl
  | case3 => rfl

theorem beyond_skipInterrupts (events : List Event) :
    Event.beyond (skipInterrupts events) = Event.beyond events := by
  fun_induction skipInterrupts events with
  | case1 f rest h ih => simpa [Event.beyond, h] using ih
  | case2 => rfl
  | case3 => rfl

theorem pending_settle_suffix (s : Stream) : s.settle.pending <:+ s.pending := by
  unfold settle
  split
  · exact skipInterrupts_suffix s.pending
  · exact List.suffix_rfl

theorem beyond_suffix (s : Stream) : s.beyond <:+ s.pending := by
  unfold beyond
  fun_induction Event.beyond s.pending with
  | case1 piece rest ih => exact ih.trans (List.suffix_cons _ _)
  | case2 f rest h ih => exact ih.trans (List.suffix_cons _ _)
  | case3 => exact List.suffix_rfl
  | case4 => exact List.suffix_rfl

theorem Gapless.of_suffix {s t : Stream} (hs : s.Gapless) (h : t.pending <:+ s.pending) :
    t.Gapless :=
  fun event hmem => hs event (h.subset hmem)

theorem advances_settle {s : Stream} (hs : s.Gapless) : s.Advances [] s.settle := by
  have hgapless := hs.of_suffix s.pending_settle_suffix
  unfold settle at hgapless ⊢
  split
  · rename_i hcurrent
    rw [if_pos hcurrent] at hgapless
    refine ⟨?_, ?_, rfl, hgapless⟩
    · simp [ahead, ahead_skipInterrupts]
    · exact beyond_skipInterrupts s.pending
  · exact .refl hs

/-- Data that is at hand is what a fill shows. -/
theorem fill_of_current {s : Stream} {b : UInt8} {bs : Bytes} (h : s.current = b :: bs) :
    s.fill = (.ok (b :: bs), s) := by
  simp [fill, h]

theorem current_settle (s : Stream) : s.settle.current = s.current := by
  unfold settle
  split <;> rfl

/-- The events after the interruptions in front do not begin with one. -/
theorem not_interrupt_of_skipInterrupts {events rest : List Event} {f : Fault}
    (h : skipInterrupts events = .fault f :: rest) : ¬ f.IsInterrupt := by
  fun_induction skipInterrupts events with
  | case1 g more hg ih => exact ih h
  | case2 g more hg =>
      rw [List.cons.injEq, Event.fault.injEq] at h
      exact h.1 ▸ hg
  | case3 events hne => exact absurd h (hne f rest)

theorem not_interrupt_settle {s : Stream} {f : Fault} {rest : List Event}
    (hcurrent : s.settle.current = []) (hpending : s.settle.pending = .fault f :: rest) :
    ¬ f.IsInterrupt := by
  rw [current_settle] at hcurrent
  rw [settle, if_pos hcurrent] at hpending
  exact not_interrupt_of_skipInterrupts hpending

/-- A fill that meets no data at hand takes the next piece. -/
theorem fill_of_pending {s : Stream} {piece : Bytes} {rest : List Event} (h : s.current = [])
    (hp : s.pending = .data piece :: rest) :
    s.fill = (.ok piece, { s with current := piece, pending := rest }) := by
  simp [fill, h, hp]

/-- A fill behind the interruptions shows the first of the bytes ahead, however they are cut. -/
theorem fill_settle_of_ahead {s : Stream} (hs : s.Gapless) (h : s.ahead ≠ []) :
    ∃ b bs s', s.settle.fill = (.ok (b :: bs), s') ∧ s.Advances [] s' ∧ s'.current = b :: bs := by
  have hsettle := advances_settle hs
  have hahead : s.settle.ahead ≠ [] := by
    rwa [hsettle.ahead, List.nil_append] at h
  cases hcurrent : s.settle.current with
  | cons b bs => exact ⟨b, bs, s.settle, fill_of_current hcurrent, hsettle, hcurrent⟩
  | nil =>
      cases hpending : s.settle.pending with
      | nil => simp [ahead, hcurrent, hpending, Event.ahead] at hahead
      | cons event rest =>
          cases event with
          | data piece =>
              cases piece with
              | nil => exact absurd rfl (hsettle.gapless _ (by simp [hpending]))
              | cons b bs =>
                  refine ⟨b, bs, { s.settle with current := b :: bs, pending := rest },
                    fill_of_pending hcurrent hpending, hsettle.trans (b := []) ⟨?_, ?_, rfl, ?_⟩,
                    rfl⟩
                  · simp [ahead, hcurrent, hpending, Event.ahead]
                  · simp [beyond, hpending, Event.beyond]
                  · intro event hmem
                    exact hsettle.gapless event (by simp [hpending, hmem])
          | fault f =>
              have hf : ¬ f.IsInterrupt := not_interrupt_settle hcurrent hpending
              simp [ahead, hcurrent, hpending, Event.ahead, hf] at hahead

/-- **An access shows the first of the bytes ahead**, however they are cut into pieces. -/
theorem access_of_ahead {s : Stream} (hs : s.Gapless) (h : s.ahead ≠ []) :
    ∃ b bs s', s.access = (.ok (b :: bs), s') ∧ s.Advances [] s' ∧ s'.current = b :: bs := by
  obtain ⟨b, bs, s', hfill, hadv, hcurrent⟩ := fill_settle_of_ahead hs h
  refine ⟨b, bs, s', ?_, hadv, hcurrent⟩
  rw [access, hfill]
  exact fill_of_current hcurrent

/-! ### Where the bytes ahead end -/

/-- What an access shows when there are no bytes ahead: the next fault, or what the stream does once
every event is delivered. -/
def stall (s : Stream) : Except Fault Bytes :=
  match s.beyond, s.ending with
  | .fault f :: _, _ => .error f
  | _, .closed => .ok []
  | _, .silent => .error silence

/-- What is left of a stream once a reader has met what stops it. -/
def past (s : Stream) : Stream := ⟨[], s.beyond.tail, s.ending⟩

/-- What stops a stream is a fault, or its end. -/
theorem stall_eq_ok_nil_iff {s : Stream} :
    s.stall = .ok [] ↔ s.beyond = [] ∧ s.ending = .closed := by
  rcases Event.beyond_eq_nil_or s.pending with hnil | ⟨f, rest, hfault, -⟩
  · cases hending : s.ending <;> simp [stall, beyond, hnil, hending]
  · simp [stall, beyond, hfault]

theorem stall_eq_nil_or_error (s : Stream) : s.stall = .ok [] ∨ ∃ f, s.stall = .error f := by
  unfold stall
  split
  · exact .inr ⟨_, rfl⟩
  · exact .inl rfl
  · exact .inr ⟨_, rfl⟩

theorem stall_ne_ok_cons (s : Stream) (b : UInt8) (bs : Bytes) : s.stall ≠ .ok (b :: bs) := by
  rcases s.stall_eq_nil_or_error with hend | ⟨f, hfault⟩
  · simp [hend]
  · simp [hfault]

/-- A fill behind the interruptions meets what stops the stream. -/
theorem fill_settle_of_stalled {s : Stream} (hs : s.Gapless) (h : s.ahead = []) :
    s.settle.fill = (s.stall, s.past) := by
  have hsettle := advances_settle hs
  have hstall : s.stall = s.settle.stall := by rw [stall, stall, hsettle.beyond, hsettle.ending]
  have hpast : s.past = s.settle.past := by rw [past, past, hsettle.beyond, hsettle.ending]
  rw [hstall, hpast]
  have hahead : s.settle.ahead = [] := by rw [← List.nil_append s.settle.ahead, ← hsettle.ahead, h]
  obtain ⟨hcurrent, hrest⟩ := List.append_eq_nil_iff.1 hahead
  have hfault := @not_interrupt_settle s
  have hgapless := hsettle.gapless
  generalize s.settle = t at *
  obtain ⟨current, pending, ending⟩ := t
  obtain rfl : current = [] := hcurrent
  cases pending with
  | nil => cases ending <;> rfl
  | cons event rest =>
      cases event with
      | data piece =>
          obtain ⟨rfl, -⟩ := List.append_eq_nil_iff.1 hrest
          exact absurd rfl (hgapless _ List.mem_cons_self)
      | fault f =>
          have hf : ¬ f.IsInterrupt := hfault rfl rfl
          simp [fill, stall, past, beyond, Event.beyond, hf]

theorem fill_past_of_closed {s : Stream} (h : s.stall = .ok []) :
    s.past.fill = (.ok [], s.past) := by
  obtain ⟨hbeyond, hending⟩ := stall_eq_ok_nil_iff.1 h
  rw [past, hbeyond, hending]
  rfl

/-- **Behind the bytes ahead an access meets what stops the stream.** -/
theorem access_of_stalled {s : Stream} (hs : s.Gapless) (h : s.ahead = []) :
    s.access = (s.stall, s.past) := by
  rw [access, fill_settle_of_stalled hs h]
  rcases s.stall_eq_nil_or_error with hend | ⟨f, hfault⟩
  · rw [hend]
    exact fill_past_of_closed hend
  · rw [hfault]

theorem gapless_past {s : Stream} (hs : s.Gapless) : s.past.Gapless :=
  hs.of_suffix ((List.tail_suffix _).trans s.beyond_suffix)

/-- **An end of input is the end**: the access after it meets it again. -/
theorem access_of_exhausted {s s' : Stream} (hs : s.Gapless) (h : s.access = (.ok [], s')) :
    s'.access = (.ok [], s') := by
  have hahead : s.ahead = [] := by
    by_cases hne : s.ahead = []
    · exact hne
    · obtain ⟨b, bs, t, ht, -⟩ := access_of_ahead hs hne
      simp [h] at ht
  obtain ⟨hstall, rfl⟩ := Prod.mk.inj (h.symm.trans (access_of_stalled hs hahead))
  obtain ⟨hbeyond, hending⟩ := stall_eq_ok_nil_iff.1 hstall.symm
  rw [past, hbeyond, hending]
  rfl

theorem Advances.stall {s t : Stream} {consumed : Bytes} (h : s.Advances consumed t) :
    t.stall = s.stall := by
  rw [Stream.stall, Stream.stall, h.beyond, h.ending]

theorem Advances.past {s t : Stream} {consumed : Bytes} (h : s.Advances consumed t) :
    t.past = s.past := by
  rw [Stream.past, Stream.past, h.beyond, h.ending]

/-! ### Consuming what an access shows -/

/-- An access that shows data reads past nothing. -/
theorem advances_access {s s' : Stream} {b : UInt8} {bs : Bytes} (hs : s.Gapless)
    (h : s.access = (.ok (b :: bs), s')) : s.Advances [] s' ∧ s'.current = b :: bs := by
  by_cases hahead : s.ahead = []
  · have hstall := (Prod.mk.inj (h.symm.trans (access_of_stalled hs hahead))).1
    exact absurd hstall.symm (s.stall_ne_ok_cons b bs)
  · obtain ⟨c, cs, t, ht, hadv, hcurrent⟩ := access_of_ahead hs hahead
    obtain ⟨hok, rfl⟩ := Prod.mk.inj (h.symm.trans ht)
    exact ⟨hadv, by rw [hcurrent, Except.ok.inj hok]⟩

/-- Taking the whole piece at hand reads past it. -/
theorem advances_access_consume {s s' : Stream} {b : UInt8} {bs : Bytes} (hs : s.Gapless)
    (h : s.access = (.ok (b :: bs), s')) : s.Advances (b :: bs) (s'.consume (bs.length + 1)) := by
  obtain ⟨hadv, hcurrent⟩ := advances_access hs h
  have hconsume := advances_consume hadv.gapless (b :: bs) [] (by rw [hcurrent, List.append_nil])
  exact hadv.trans hconsume

/-- Taking the piece at hand through a byte of it reads past that byte. -/
theorem advances_access_consume_through {s s' : Stream} {b : UInt8} {bs : Bytes} (hs : s.Gapless)
    (h : s.access = (.ok (b :: bs), s')) {raw more : Bytes} {d : UInt8}
    (hpiece : b :: bs = raw ++ d :: more) :
    s.Advances (raw ++ [d]) (s'.consume (raw.length + 1)) := by
  obtain ⟨hadv, hcurrent⟩ := advances_access hs h
  have hconsume := advances_consume hadv.gapless (raw ++ [d]) more (by simp [hcurrent, hpiece])
  rw [List.length_append] at hconsume
  exact hadv.trans (b := raw ++ [d]) hconsume

/-- **The first access to some bytes before a stop byte** shows the stop byte as well, or only bytes
before it. -/
theorem access_before {s : Stream} {raw rest : Bytes} {d : UInt8} (hs : s.Gapless)
    (h : s.ahead = raw ++ d :: rest) :
    ∃ b bs s', s.access = (.ok (b :: bs), s') ∧
      ((∃ more, b :: bs = raw ++ d :: more) ∨ ∃ left, raw = b :: bs ++ left) := by
  obtain ⟨b, bs, s', haccess, hadv, hcurrent⟩ := access_of_ahead hs (by simp [h])
  refine ⟨b, bs, s', haccess, ?_⟩
  have hpiece : b :: bs ++ Event.ahead s'.pending = raw ++ d :: rest := by
    rw [← hcurrent]
    exact hadv.ahead_eq (a := []) h
  rcases List.append_eq_append_iff.1 hpiece with ⟨left, hraw, -⟩ | ⟨more, hshown, hrest⟩
  · exact .inr ⟨left, hraw⟩
  · cases more with
    | nil => exact .inr ⟨[], by simpa using hshown.symm⟩
    | cons c more =>
        obtain ⟨rfl, -⟩ := List.cons.inj hrest
        exact .inl ⟨more, hshown⟩

end Stream

end AttributeWire
