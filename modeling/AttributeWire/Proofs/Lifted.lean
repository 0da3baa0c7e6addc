/-
**Ends of input that are lifted are noticed.**

More input may follow an empty piece.  An access passes over the piece if it is the first that is
met, where a plain retry would take it for the end of the input, and it reports an interruption that
stands right behind the piece.  Asking for fields of length zero takes one access at a time, and so
tells both: if there is more input behind the first end that is met, then the stream goes on where
the one with each empty piece twice still waits.

Main definitions:

* `probe` — the outcomes of fields of length zero, which take one access each;
* `Event.waits` — the number of empty pieces in front;
* `Event.Quiet` — no interruption is met right behind an end of input that is passed over;
* `Reply.ReportsInterruption` — a reply that passes on an interruption.

Main results:

* `exists_probe_ne`, `unlifted_of_probe` — **more input is noticed**;
* `exists_probe_interrupted` — **so is an interruption** that is met;
* `answers_retried` — **when calls are answered as by plain retries**, and when an interruption is
  reported.
-/

import AttributeWire.Proofs.Retry

set_option relaxedAutoImplicit false
set_option autoImplicit false

namespace AttributeWire

/-! ### One access at a time -/

section

variable {s s₁ t : Stream}

/-- Reading a field of length zero takes one access to data. -/
theorem readField_zero_of_data (b : UInt8) (bs : Bytes) :
    ∃ outcome raw n, outcome ≠ .error .prematureEof ∧
      ∀ {s s₁ : Stream}, s.access = (.ok (b :: bs), s₁) →
        readField 0 s = ⟨outcome, raw, s₁.consume (n + 1)⟩ := by
  rcases hbreak : breakField (b :: bs) with ⟨_ | ⟨c, before⟩, _ | d⟩
  · cases breakField_none hbreak
  · refine ⟨Field.ofRaw [] d, [], 0, by simp [Field.ofRaw, Base64.decode?], fun h => ?_⟩
    simp [readField, readFieldFrom_eq, h, hbreak]
  · refine ⟨.error (.tooLong 0), c :: before, bs.length, by simp, fun h => ?_⟩
    simp [readField, readFieldFrom_eq, h, hbreak]
  · refine ⟨.error (.tooLong 0), c :: before, before.length + 1, by simp, fun h => ?_⟩
    simp [readField, readFieldFrom_eq, h, hbreak]

/-- The outcome of the last of `n + 1` fields of length zero. -/
def probe : Nat → Stream → Except FieldError Field
  | 0, s => (readField 0 s).outcome
  | n + 1, s => probe n (readField 0 s).stream

theorem probe_congr (h : s.access = t.access) (n : Nat) : probe n s = probe n t := by
  have hread : readField 0 s = readField 0 t := by
    rw [readField, readField, readFieldFrom_eq, h, ← readFieldFrom_eq]
  cases n with
  | zero => rw [probe, probe, hread]
  | succ n => rw [probe, probe, hread]

/-- A field of length zero tells anything but an end of input from one. -/
theorem probe_zero_ne {answer : Except Fault Bytes} (h : s.access = (answer, s₁))
    (hne : answer ≠ .ok []) : probe 0 s ≠ .error .prematureEof := by
  rcases answer with f | _ | ⟨b, bs⟩
  · rw [probe, readField_of_access_fault h]
    simp
  · exact absurd rfl hne
  · obtain ⟨outcome, raw, n, houtcome, hread⟩ := readField_zero_of_data b bs
    rw [probe, hread h]
    exact houtcome

/-- The current piece is read past, whatever follows it. -/
theorem exists_drained (piece : Bytes) :
    ∃ n, ∀ (pending : List Event) (ending : Ending) (k : Nat),
      probe (n + k) ⟨piece, pending, ending⟩ = probe k ⟨[], pending, ending⟩ := by
  -- each field of length zero shortens the piece
  induction hlength : piece.length using Nat.strongRecOn generalizing piece with
  | ind m ih =>
      cases piece with
      | nil => exact ⟨0, fun pending ending k => by rw [Nat.zero_add]⟩
      | cons b bs =>
          obtain ⟨outcome, raw, j, -, hread⟩ := readField_zero_of_data b bs
          have hshort : (bs.drop j).length < m := by
            rw [← hlength, List.length_drop, List.length_cons]
            omega
          obtain ⟨n, hn⟩ := ih _ hshort (bs.drop j) rfl
          refine ⟨n + 1, fun pending ending k => ?_⟩
          rw [Nat.add_right_comm, probe, hread (Stream.access_current b bs pending ending)]
          exact hn pending ending k

theorem exists_drained_data (b : UInt8) (bs : Bytes) :
    ∃ n, ∀ (rest : List Event) (ending : Ending) (k : Nat),
      probe (n + k) ⟨[], .data (b :: bs) :: rest, ending⟩ = probe k ⟨[], rest, ending⟩ := by
  obtain ⟨n, hn⟩ := exists_drained (b :: bs)
  refine ⟨n, fun rest ending k => ?_⟩
  rw [← hn rest ending k]
  exact probe_congr ((Stream.access_data b bs rest ending).trans
    (Stream.access_current b bs rest ending).symm) (n + k)

/-- What calls for fields of length zero are answered. -/
theorem exists_answer_probe (peer : String) (config : Config) (n : Nat) (s : Stream) :
    ∃ raw, (answers peer config (List.replicate (n + 1) (.field 0)) s)[n]? =
      some (.field (probe n s) raw) := by
  induction n generalizing s with
  | zero => exact ⟨_, rfl⟩
  | succ n ih =>
      obtain ⟨raw, hraw⟩ := ih (readField 0 s).stream
      exact ⟨raw, hraw⟩

end

/-! ### Calls that tell lifted ends of input -/

namespace Event

/-- The number of empty pieces in front, interruptions aside. -/
def waits : List Event → Nat
  | data [] :: rest => waits rest + 1
  | data (_ :: _) :: _ => 0
  | fault f :: rest => if f.IsInterrupt then waits rest else 0
  | [] => 0

end Event

section

variable {ending : Ending} {events : List Event}

/-- With each empty piece twice, each of those in front is an end of input. -/
theorem probe_lasting {n : Nat} (h : n < Event.waits events) :
    probe n ⟨[], Event.lasting events, ending⟩ = .error .prematureEof := by
  fun_induction Event.waits events generalizing n with
  | case1 rest ih =>
      have hread : readField 0 ⟨[], Event.lasting (.data [] :: rest), ending⟩ =
          ⟨.error .prematureEof, [], ⟨[], Event.lasting rest, ending⟩⟩ :=
        readField_of_access_end (Stream.access_gap_data [] (Event.lasting rest) ending)
      cases n with
      | zero => rw [probe, hread]
      | succ n =>
          rw [probe, hread]
          exact ih (Nat.lt_of_succ_lt_succ h)
  | case2 => cases h
  | case3 f rest hf ih => exact (probe_congr (Stream.access_interrupt hf) n).trans (ih h)
  | case4 => cases h
  | case5 => cases h

/-- **If there is more to come**, an access meets it, and each access before that passes over two
empty pieces. -/
theorem exists_probe_ne (h : ¬ Event.Over ending events) :
    ∃ n, 2 * n ≤ Event.waits events ∧ probe n ⟨[], events, ending⟩ ≠ .error .prematureEof := by
  fun_induction Event.Over ending events with
  | case1 =>
      cases ending with
      | closed => exact absurd rfl h
      | silent => exact ⟨0, Nat.zero_le _, probe_zero_ne rfl (by simp)⟩
  | case2 =>
      cases ending with
      | closed => exact absurd rfl h
      | silent => exact ⟨0, Nat.zero_le _, probe_zero_ne rfl (by simp)⟩
  | case3 rest ih =>
      obtain ⟨n, hle, hne⟩ := ih h
      have hread : readField 0 ⟨[], .data [] :: .data [] :: rest, ending⟩ =
          ⟨.error .prematureEof, [], ⟨[], rest, ending⟩⟩ :=
        readField_of_access_end (Stream.access_gap_data [] rest ending)
      refine ⟨n + 1, ?_, ?_⟩
      · simp only [Event.waits]
        omega
      · rw [probe, hread]
        exact hne
  | case4 b bs rest =>
      exact ⟨0, Nat.zero_le _,
        probe_zero_ne (Stream.access_gap_data (b :: bs) rest ending) (by simp)⟩
  | case5 f rest =>
      exact ⟨0, Nat.zero_le _, probe_zero_ne (Stream.access_gap_fault f rest ending) (by simp)⟩
  | case6 b bs rest =>
      exact ⟨0, Nat.zero_le _, probe_zero_ne (Stream.access_data b bs rest ending) (by simp)⟩
  | case7 f rest ih =>
      by_cases hf : f.IsInterrupt
      · obtain ⟨n, hle, hne⟩ := ih fun hover => h ⟨hf, hover⟩
        refine ⟨n, by rwa [Event.waits, if_pos hf], ?_⟩
        rwa [probe_congr (Stream.access_interrupt hf)]
      · exact ⟨0, Nat.zero_le _, probe_zero_ne (Stream.access_fault hf) (by simp)⟩

/-- A stream that is read as with each empty piece twice has no end of input that is lifted. -/
theorem unlifted_of_probe
    (h : ∀ n, probe n ⟨[], Event.lasting events, ending⟩ = probe n ⟨[], events, ending⟩) :
    Event.Unlifted ending events := by
  fun_induction Event.Unlifted ending events with
  | case1 => trivial
  | case2 rest =>
      -- where the one stream goes on, the other still waits at an empty piece
      by_contra hlifted
      obtain ⟨n, hle, hne⟩ := exists_probe_ne hlifted
      have hlt : n < Event.waits (.data [] :: rest) := by
        have hpos : 0 < Event.waits (.data [] :: rest) := Nat.succ_pos _
        omega
      exact hne ((h n).symm.trans (probe_lasting hlt))
  | case3 b bs rest ih =>
      obtain ⟨n, hn⟩ := exists_drained_data b bs
      refine ih fun k => ?_
      have hread := h (n + k)
      rwa [Event.lasting, hn, hn] at hread
  | case4 f rest ih =>
      refine ih fun k => ?_
      by_cases hf : f.IsInterrupt
      · have hread := h k
        rwa [Event.lasting, probe_congr (Stream.access_interrupt hf),
          probe_congr (Stream.access_interrupt hf)] at hread
      · have hread := h (k + 1)
        rwa [Event.lasting, probe, probe, readField_of_access_fault (Stream.access_fault hf),
          readField_of_access_fault (Stream.access_fault hf)] at hread

end

/-! ### Interruptions that are met -/

namespace Event

/-- No interruption is met right behind an end of input that is passed over. -/
def Quiet : List Event → Prop
  | [] => True
  | [data []] => True
  | data [] :: data _ :: rest => Quiet rest
  | data [] :: fault f :: rest => ¬ f.IsInterrupt ∧ Quiet rest
  | data (_ :: _) :: rest => Quiet rest
  | fault _ :: rest => Quiet rest

theorem quiet_of_gapless {events : List Event} (h : ∀ event ∈ events, event ≠ data []) :
    Quiet events := by
  fun_induction Quiet events with
  | case1 => trivial
  | case2 => trivial
  | case3 piece rest ih => exact absurd rfl (h _ List.mem_cons_self)
  | case4 f rest ih => exact absurd rfl (h _ List.mem_cons_self)
  | case5 b bs rest ih => exact ih (List.forall_mem_cons.1 h).2
  | case6 f rest ih => exact ih (List.forall_mem_cons.1 h).2

theorem quiet_lasting (events : List Event) : Quiet (lasting events) := by
  fun_induction lasting events with
  | case1 rest ih => exact ih
  | case2 b bs rest ih => exact ih
  | case3 f rest ih => exact ih
  | case4 => trivial

end Event

section

variable {ending : Ending} {events : List Event}

theorem access_of_end (ending : Ending) :
    let r := (⟨[], [], ending⟩ : Stream).access
    Event.Quiet r.2.pending ∧ ∀ f, r.1 = .error f → ¬ f.IsInterrupt := by
  cases ending with
  | closed => exact ⟨trivial, fun f h => nomatch h⟩
  | silent =>
      refine ⟨trivial, fun f h => ?_⟩
      obtain rfl : Stream.silence = f := Except.error.inj h
      decide

theorem access_of_quiet (h : Event.Quiet events) :
    let r := (⟨[], events, ending⟩ : Stream).access
    Event.Quiet r.2.pending ∧ ∀ f, r.1 = .error f → ¬ f.IsInterrupt := by
  fun_induction Event.Quiet events with
  | case1 => exact access_of_end ending
  | case2 =>
      rw [Stream.access_gap]
      exact access_of_end ending
  | case3 piece rest ih =>
      rw [Stream.access_gap_data]
      exact ⟨h, fun f hf => nomatch hf⟩
  | case4 f rest ih =>
      rw [Stream.access_gap_fault]
      exact ⟨h.2, fun f' hf => Except.error.inj hf ▸ h.1⟩
  | case5 b bs rest ih => exact ⟨h, fun f hf => nomatch hf⟩
  | case6 f rest ih =>
      by_cases hf : f.IsInterrupt
      · rw [Stream.access_interrupt hf]
        exact ih h
      · rw [Stream.access_fault hf]
        exact ⟨h, fun f' hf' => Except.error.inj hf' ▸ hf⟩

theorem quiet_access {s : Stream} (h : Event.Quiet s.pending) :
    Event.Quiet s.access.2.pending ∧ ∀ f, s.access.1 = .error f → ¬ f.IsInterrupt := by
  obtain ⟨_ | ⟨b, bs⟩, pending, ending⟩ := s
  · exact access_of_quiet h
  · exact ⟨h, fun f hf => nomatch hf⟩

theorem keptByAccess_quiet : Stream.KeptByAccess fun s => Event.Quiet s.pending :=
  ⟨fun h => (quiet_access h).1, fun h _ => h⟩

/-- **If an interruption is met behind an end of input**, reading on reports it. -/
theorem exists_probe_interrupted (ending : Ending) (h : ¬ Event.Quiet events) :
    ∃ n f, f.IsInterrupt ∧ probe n ⟨[], events, ending⟩ = .error (.transport f) := by
  fun_induction Event.Quiet events with
  | case1 => exact absurd trivial h
  | case2 => exact absurd trivial h
  | case3 piece rest ih =>
      obtain ⟨n, f, hf, hprobe⟩ := ih h
      cases piece with
      | nil =>
          refine ⟨n + 1, f, hf, ?_⟩
          rwa [probe, readField_of_access_end (Stream.access_gap_data [] rest ending)]
      | cons b bs =>
          obtain ⟨m, hm⟩ := exists_drained (b :: bs)
          refine ⟨m + n, f, hf, ?_⟩
          rw [← hprobe, ← hm rest ending n]
          exact probe_congr ((Stream.access_gap_data (b :: bs) rest ending).trans
            (Stream.access_current b bs rest ending).symm) (m + n)
  | case4 f rest ih =>
      by_cases hf : f.IsInterrupt
      · refine ⟨0, f, hf, ?_⟩
        rw [probe, readField_of_access_fault (Stream.access_gap_fault f rest ending)]
      · obtain ⟨n, f', hf', hprobe⟩ := ih fun hquiet => h ⟨hf, hquiet⟩
        refine ⟨n + 1, f', hf', ?_⟩
        rwa [probe, readField_of_access_fault (Stream.access_gap_fault f rest ending)]
  | case5 b bs rest ih =>
      obtain ⟨n, f, hf, hprobe⟩ := ih h
      obtain ⟨m, hm⟩ := exists_drained_data b bs
      exact ⟨m + n, f, hf, (hm rest ending n).trans hprobe⟩
  | case6 f rest ih =>
      obtain ⟨n, f', hf', hprobe⟩ := ih h
      by_cases hf : f.IsInterrupt
      · exact ⟨n, f', hf', (probe_congr (Stream.access_interrupt hf) n).trans hprobe⟩
      · refine ⟨n + 1, f', hf', ?_⟩
        rwa [probe, readField_of_access_fault (Stream.access_fault hf)]

end

/-! ### Calls -/

/-- The reply passes on an interruption. -/
def Reply.ReportsInterruption (reply : Reply) : Prop :=
  ∃ fault, fault.IsInterrupt ∧ reply.Reports fault

section

variable (peer : String) (config : Config) {s t : Stream}

/-- Calls that are answered alike take the same from accesses. -/
theorem probe_eq_of_answers
    (h : ∀ calls, answers peer config calls s = answers peer config calls t) (n : Nat) :
    probe n s = probe n t := by
  obtain ⟨raw, hs⟩ := exists_answer_probe peer config n s
  obtain ⟨raw', ht⟩ := exists_answer_probe peer config n t
  rw [h, ht, Option.some.injEq, Reply.field.injEq] at hs
  exact hs.1.symm

/-- **The stream is answered as by plain retries** if and only if no end of input is lifted. -/
theorem answers_lasting_iff :
    (∀ calls, answers peer config calls s.lasting = answers peer config calls s) ↔
      Event.Unlifted s.ending s.pending := by
  constructor
  · intro h
    obtain ⟨n, hn⟩ := exists_drained s.current
    refine unlifted_of_probe fun k => ?_
    rw [← hn, ← hn]
    exact probe_eq_of_answers peer config h (n + k)
  · intro h calls
    exact Stream.bisimulation_retried.answers peer config calls (.unlifted h)

theorem not_reportsInterruption_of_quiet (h : Event.Quiet s.pending) {calls : List Call}
    {reply : Reply} (hmem : reply ∈ answers peer config calls s) :
    ¬ reply.ReportsInterruption := by
  rintro ⟨fault, hfault, hreports⟩
  obtain ⟨t, ht, haccess⟩ := keptByAccess_quiet.exists_access peer config h hmem hreports
  exact (quiet_access ht).2 fault haccess hfault

/-- **An interruption is reported** if and only if one is met behind an end of input. -/
theorem not_reportsInterruption_iff :
    (∀ calls, ∀ reply ∈ answers peer config calls s, ¬ reply.ReportsInterruption) ↔
      Event.Quiet s.pending := by
  constructor
  · intro h
    by_contra hmet
    obtain ⟨m, hm⟩ := exists_drained s.current
    obtain ⟨n, f, hf, hprobe⟩ := exists_probe_interrupted s.ending hmet
    obtain ⟨raw, hanswer⟩ := exists_answer_probe peer config (m + n) s
    refine h _ _ (List.mem_of_getElem? hanswer) ⟨f, hf, ?_⟩
    exact (hm s.pending s.ending n).trans hprobe
  · intro h calls reply hmem
    exact not_reportsInterruption_of_quiet peer config h hmem

/-- **Interruptions are retried, but for those behind an empty piece.**  An access acts on the first
fill that is no interruption, unless it is empty: then it acts on the fill behind it.  With each
empty piece twice, accesses are plain retries.  Calls are answered as by plain retries if and only
if the first end of input that is met is the end, and then leave the same bytes unread.  No
interruption is reported by plain retries, and one is by accesses if and only if it is met right
behind an end of input.  Both conditions hold if no piece is empty. -/
theorem answers_retried (s : Stream) :
    (∀ u : Stream, u.access =
      match u.retry with
      | (.ok [], u₁) => u₁.fill
      | (.ok (b :: bs), u₁) => (.ok (b :: bs), u₁)
      | (.error fault, u₁) => (.error fault, u₁)) ∧
    (∀ u : Stream, u.lasting.access = (u.retry.1, u.retry.2.lasting) ∧
      ∀ n, u.lasting.consume n = (u.consume n).lasting) ∧
    ((∀ calls, answers peer config calls s.lasting = answers peer config calls s) ↔
      Event.Unlifted s.ending s.pending) ∧
    (Event.Unlifted s.ending s.pending → ∀ calls,
      (replies peer config calls s.lasting).map (fun reply => reply.2.unread) =
        (replies peer config calls s).map fun reply => reply.2.unread) ∧
    (∀ calls, ∀ reply ∈ answers peer config calls s.lasting, ¬ reply.ReportsInterruption) ∧
    ((∀ calls, ∀ reply ∈ answers peer config calls s, ¬ reply.ReportsInterruption) ↔
      Event.Quiet s.pending) ∧
    (s.Gapless → Event.Unlifted s.ending s.pending ∧ Event.Quiet s.pending) := by
  refine ⟨Stream.access_eq_retry, fun u => ⟨u.access_lasting, u.consume_lasting⟩,
    answers_lasting_iff peer config, ?_, ?_, not_reportsInterruption_iff peer config, ?_⟩
  · intro h calls
    exact Stream.bisimulation_retried.map_replies peer config (fun _ hafter => hafter.unread_eq)
      calls (.unlifted h)
  · intro calls reply hmem
    exact not_reportsInterruption_of_quiet peer config (Event.quiet_lasting s.pending) hmem
  · intro h
    exact ⟨Event.unlifted_of_gapless h, Event.quiet_of_gapless h⟩

end

/-- Interruptions before and within a field, and an end of input that is the end. -/
theorem answers_retried_of_interruptions :
    let interrupt := Event.fault (.ofKind .interrupted)
    let s := Stream.ofEvents [interrupt, .data (Bytes.ofText "YQ"), interrupt, interrupt,
      .data (Bytes.ofText "==:"), interrupt, .data []] .closed
    (∀ calls, answers "test" .standard calls s.lasting = answers "test" .standard calls s) ∧
      ∀ calls, ∀ reply ∈ answers "test" .standard calls s, ¬ reply.ReportsInterruption := by
  intro interrupt s
  obtain ⟨-, -, hlasting, -, -, hquiet, -⟩ := answers_retried "test" .standard s
  exact ⟨hlasting.2 rfl, hquiet.2 trivial⟩

/-- An interruption behind an empty piece is reported, where a plain retry takes the piece for the
end of input. -/
theorem not_answers_retried :
    (¬ ∀ (peer : String) (config : Config) (s : Stream) (calls : List Call),
      answers peer config calls s.lasting = answers peer config calls s) ∧
    ¬ ∀ (peer : String) (config : Config) (s : Stream) (calls : List Call),
      ∀ reply ∈ answers peer config calls s, ¬ reply.ReportsInterruption := by
  let interrupt : Fault := .ofKind .interrupted
  let s := Stream.ofEvents [.data [], .fault interrupt, .data (Bytes.ofText "YQ==:")] .closed
  have hfield (u : Stream) : answers "test" .standard [.field 100] u =
      [.field (readField 100 u).outcome (readField 100 u).raw] := rfl
  have hreported : s.access = (.error interrupt, s.access.2) := rfl
  have hended : s.lasting.access = (.ok [], s.lasting.access.2) := rfl
  constructor
  · intro h
    have heq := h "test" .standard s [.field 100]
    rw [hfield, hfield, readField_of_access_end hended, readField_of_access_fault hreported] at heq
    cases heq
  · intro h
    have hmem : Reply.field (.error (.transport interrupt)) [] ∈
        answers "test" .standard [.field 100] s := by
      rw [hfield, readField_of_access_fault hreported]
      exact List.mem_singleton_self _
    exact h "test" .standard s [.field 100] _ hmem ⟨interrupt, rfl, rfl⟩

end AttributeWire
