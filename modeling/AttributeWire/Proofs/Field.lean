/-
**What reading a field consumes, whatever the pieces.**

A field is found as soon as its written form and its delimiter are ahead on the stream: the pieces
they come in do not matter.  Conversely a field that was read stood at the front of what was unread,
and reading it consumed exactly its written form and its delimiter.  The same holds of a line that
is skipped.

Main definitions:

* `Delimiter.byte`, `Bytes.Undelimited` — the byte of a delimiter, and byte strings without one.

Main results:

* `readFieldFrom_eq`, `skipLine_eq` — reading, access by access;
* `readField_of_ahead`, `skipLine_of_ahead` — **what is ahead is read**;
* `advances_of_readField`, `advances_of_skipLine` — **what was read stood ahead**;
* `access_of_skipLine`, `readField_of_end` — after a line that the end of input cuts off, there is
  no further field.
-/

import AttributeWire.Field
import AttributeWire.Proofs.Stream

set_option relaxedAutoImplicit false
set_option autoImplicit false

namespace AttributeWire

/-! ### Byte strings without a delimiter -/

/-- The byte of a delimiter. -/
def Delimiter.byte : Delimiter → UInt8
  | colon => Bytes.colon
  | newline => Bytes.newline

@[simp] theorem Delimiter.ofByte?_byte (d : Delimiter) : ofByte? d.byte = some d := by
  cases d <;> rfl

theorem Delimiter.byte_of_ofByte? {b : UInt8} {d : Delimiter} (h : ofByte? b = some d) :
    b = d.byte := by
  unfold ofByte? at h
  split at h
  · rename_i hb
    rw [← Option.some.inj h, hb, byte]
  · split at h
    · rename_i hb
      rw [← Option.some.inj h, hb, byte]
    · simp at h

/-- No byte is a delimiter. -/
def Bytes.Undelimited (bytes : Bytes) : Prop := ∀ b ∈ bytes, Delimiter.ofByte? b = none

namespace Bytes

@[simp] theorem undelimited_nil : Undelimited [] := by simp [Undelimited]

@[simp] theorem undelimited_cons {b : UInt8} {bytes : Bytes} :
    Undelimited (b :: bytes) ↔ Delimiter.ofByte? b = none ∧ Undelimited bytes := by
  simp [Undelimited]

@[simp] theorem undelimited_append {bytes more : Bytes} :
    Undelimited (bytes ++ more) ↔ Undelimited bytes ∧ Undelimited more := by
  simp [Undelimited, or_imp, forall_and]

theorem Undelimited.newline_not_mem {bytes : Bytes} (h : bytes.Undelimited) :
    newline ∉ bytes := by
  intro hmem
  have hnone := h _ hmem
  rw [← Delimiter.byte.eq_2, Delimiter.ofByte?_byte] at hnone
  simp at hnone

end Bytes

/-! ### Cutting at the first delimiter -/

/-- Bytes that are no delimiters stay in front of the cut. -/
theorem breakField_undelimited_append {raw : Bytes} (h : raw.Undelimited) (rest : Bytes) :
    breakField (raw ++ rest) = (raw ++ (breakField rest).1, (breakField rest).2) := by
  induction raw with
  | nil => rfl
  | cons b raw ih =>
      obtain ⟨hb, hraw⟩ := Bytes.undelimited_cons.1 h
      simp [breakField, hb, ih hraw]

theorem breakField_append {raw : Bytes} (h : raw.Undelimited) (d : Delimiter) (rest : Bytes) :
    breakField (raw ++ d.byte :: rest) = (raw, some d) := by
  rw [breakField_undelimited_append h]
  simp [breakField]

theorem breakField_of_undelimited {raw : Bytes} (h : raw.Undelimited) :
    breakField raw = (raw, none) := by
  have hnil := breakField_undelimited_append h []
  rwa [breakField, List.append_nil] at hnil

/-- The bytes before the first delimiter contain none, and the delimiter follows them. -/
theorem breakField_some {bytes before : Bytes} {d : Delimiter}
    (h : breakField bytes = (before, some d)) :
    before.Undelimited ∧ ∃ rest, bytes = before ++ d.byte :: rest := by
  induction bytes generalizing before with
  | nil => simp [breakField] at h
  | cons b bytes ih =>
      unfold breakField at h
      split at h
      · rename_i d' hd
        obtain ⟨rfl, hsome⟩ := Prod.mk.inj h
        obtain rfl := Option.some.inj hsome
        exact ⟨Bytes.undelimited_nil, bytes, by rw [Delimiter.byte_of_ofByte? hd]; rfl⟩
      · rename_i hb
        obtain ⟨rfl, hsome⟩ := Prod.mk.inj h
        obtain ⟨hun, rest, hrest⟩ := ih (Prod.ext rfl hsome)
        refine ⟨Bytes.undelimited_cons.2 ⟨hb, hun⟩, rest, ?_⟩
        rw [List.cons_append, ← hrest]

theorem undelimited_of_breakField_none {bytes before : Bytes}
    (h : breakField bytes = (before, none)) : bytes.Undelimited := by
  induction bytes generalizing before with
  | nil => exact Bytes.undelimited_nil
  | cons b bytes ih =>
      unfold breakField at h
      split at h
      · simp at h
      · rename_i hb
        exact Bytes.undelimited_cons.2 ⟨hb, ih (Prod.ext rfl (Prod.mk.inj h).2)⟩

/-! ### Cutting at the first newline -/

theorem breakLine_append {line : Bytes} (h : Bytes.newline ∉ line) (rest : Bytes) :
    breakLine (line ++ Bytes.newline :: rest) = some (line.length + 1) := by
  induction line with
  | nil => simp [breakLine]
  | cons b line ih =>
      obtain ⟨hb, hline⟩ : Bytes.newline ≠ b ∧ Bytes.newline ∉ line := by simpa using h
      simp [breakLine, hb.symm, ih hline]

theorem breakLine_of_not_mem {line : Bytes} (h : Bytes.newline ∉ line) : breakLine line = none := by
  induction line with
  | nil => rfl
  | cons b line ih =>
      obtain ⟨hb, hline⟩ : Bytes.newline ≠ b ∧ Bytes.newline ∉ line := by simpa using h
      simp [breakLine, hb.symm, ih hline]

/-- The bytes before the first newline contain none, and the newline follows them. -/
theorem breakLine_some {bytes : Bytes} {n : Nat} (h : breakLine bytes = some n) :
    ∃ line rest, bytes = line ++ Bytes.newline :: rest ∧ Bytes.newline ∉ line ∧
      n = line.length + 1 := by
  induction bytes generalizing n with
  | nil => simp [breakLine] at h
  | cons b bytes ih =>
      unfold breakLine at h
      split at h
      · rename_i hb
        exact ⟨[], bytes, by rw [hb]; rfl, by simp, (Option.some.inj h).symm⟩
      · rename_i hb
        split at h
        · rename_i m hm
          obtain ⟨line, rest, rfl, hline, rfl⟩ := ih hm
          refine ⟨b :: line, rest, rfl, ?_, (Option.some.inj h).symm⟩
          simp [Ne.symm hb, hline]
        · simp at h

theorem not_mem_of_breakLine_none {bytes : Bytes} (h : breakLine bytes = none) :
    Bytes.newline ∉ bytes := by
  induction bytes with
  | nil => simp
  | cons b bytes ih =>
      unfold breakLine at h
      split at h
      · simp at h
      · rename_i hb
        split at h
        · simp at h
        · rename_i hrest
          simp [Ne.symm hb, ih hrest]

/-! ### Reading, access by access -/

theorem readFieldFrom_eq (limit : Nat) (raw : Bytes) (s : Stream) :
    readFieldFrom limit raw s =
      match s.access with
      | (.error fault, s₁) => ⟨.error (.transport fault), raw, s₁⟩
      | (.ok [], s₁) => ⟨.error .prematureEof, raw, s₁⟩
      | (.ok (b :: bs), s₁) =>
          match breakField (b :: bs) with
          | (before, some delimiter) =>
              if limit < (raw ++ before).length then
                ⟨.error (.tooLong limit), raw ++ before, s₁.consume (before.length + 1)⟩
              else
                ⟨Field.ofRaw (raw ++ before) delimiter, raw ++ before,
                  s₁.consume (before.length + 1)⟩
          | (before, none) =>
              if limit < (raw ++ before).length then
                ⟨.error (.tooLong limit), raw ++ before, s₁.consume (bs.length + 1)⟩
              else readFieldFrom limit (raw ++ before) (s₁.consume (bs.length + 1)) := by
  rw [readFieldFrom]
  rcases s.access with ⟨_ | _ | _, s₁⟩ <;> rfl

theorem skipLine_eq (s : Stream) :
    skipLine s =
      match s.access with
      | (.error fault, s₁) => (.error fault, s₁)
      | (.ok [], s₁) => (.ok false, s₁)
      | (.ok (b :: bs), s₁) =>
          match breakLine (b :: bs) with
          | some n => (.ok true, s₁.consume n)
          | none => skipLine (s₁.consume (bs.length + 1)) := by
  rw [skipLine]
  rcases s.access with ⟨_ | _ | _, s₁⟩ <;> rfl

theorem readField_of_access_end {limit : Nat} {s s₁ : Stream} (h : s.access = (.ok [], s₁)) :
    readField limit s = ⟨.error .prematureEof, [], s₁⟩ := by
  rw [readField, readFieldFrom_eq, h]

theorem readField_of_access_fault {limit : Nat} {s s₁ : Stream} {f : Fault}
    (h : s.access = (.error f, s₁)) : readField limit s = ⟨.error (.transport f), [], s₁⟩ := by
  rw [readField, readFieldFrom_eq, h]

/-! ### Reading what is ahead -/

/-- Reading on when the piece at hand is known. -/
theorem readFieldFrom_of_access {limit : Nat} {raw : Bytes} {s s₁ : Stream} {b : UInt8} {bs : Bytes}
    (h : s.access = (.ok (b :: bs), s₁)) :
    readFieldFrom limit raw s =
      match breakField (b :: bs) with
      | (before, some delimiter) =>
          if limit < (raw ++ before).length then
            ⟨.error (.tooLong limit), raw ++ before, s₁.consume (before.length + 1)⟩
          else
            ⟨Field.ofRaw (raw ++ before) delimiter, raw ++ before, s₁.consume (before.length + 1)⟩
      | (before, none) =>
          if limit < (raw ++ before).length then
            ⟨.error (.tooLong limit), raw ++ before, s₁.consume (bs.length + 1)⟩
          else readFieldFrom limit (raw ++ before) (s₁.consume (bs.length + 1)) := by
  rw [readFieldFrom_eq, h]

/-- **A field whose written form and delimiter are ahead is read**, however they are cut. -/
theorem readFieldFrom_of_ahead {limit : Nat} {d : Delimiter} {rest : Bytes} (more raw : Bytes)
    (s : Stream) (hs : s.Gapless) (hmore : more.Undelimited)
    (hahead : s.ahead = more ++ d.byte :: rest) (hlen : (raw ++ more).length ≤ limit) :
    ∃ s', readFieldFrom limit raw s = ⟨Field.ofRaw (raw ++ more) d, raw ++ more, s'⟩ ∧
      s.Advances (more ++ [d.byte]) s' := by
  -- each piece without the delimiter shortens what is left of the written form
  induction hn : more.length using Nat.strongRecOn generalizing more raw s with
  | ind n ih =>
      obtain ⟨b, bs, s₁, haccess, ⟨left, hpiece⟩ | ⟨left, rfl⟩⟩ := Stream.access_before hs hahead
      · refine ⟨s₁.consume (more.length + 1), ?_,
          Stream.advances_access_consume_through hs haccess hpiece⟩
        rw [readFieldFrom_of_access haccess, hpiece, breakField_append hmore]
        simp only [if_neg (Nat.not_lt.2 hlen)]
      · obtain ⟨hnow, hleft⟩ := Bytes.undelimited_append.1 hmore
        have hconsume := Stream.advances_access_consume hs haccess
        have hahead' : (s₁.consume (bs.length + 1)).ahead = left ++ d.byte :: rest :=
          hconsume.ahead_eq (by rw [hahead, List.append_assoc])
        rw [← List.append_assoc] at hlen
        obtain ⟨s', hread, hadv⟩ := ih left.length (by simp at hn; omega) left (raw ++ b :: bs) _
          hconsume.gapless hleft hahead' hlen rfl
        refine ⟨s', ?_, ?_⟩
        · rw [readFieldFrom_of_access haccess, breakField_of_undelimited hnow]
          have hfits : ¬ limit < (raw ++ b :: bs).length := by
            rw [List.length_append] at hlen
            omega
          simp only [if_neg hfits]
          rw [hread, List.append_assoc]
        · rw [List.append_assoc]
          exact hconsume.trans hadv

theorem readField_of_ahead {limit : Nat} {d : Delimiter} {raw rest : Bytes} {s : Stream}
    (hs : s.Gapless) (hraw : raw.Undelimited) (hahead : s.ahead = raw ++ d.byte :: rest)
    (hlen : raw.length ≤ limit) :
    ∃ s', readField limit s = ⟨Field.ofRaw raw d, raw, s'⟩ ∧ s.Advances (raw ++ [d.byte]) s' :=
  readFieldFrom_of_ahead raw [] s hs hraw hahead hlen

/-- Skipping on when the piece at hand is known. -/
theorem skipLine_of_access {s s₁ : Stream} {b : UInt8} {bs : Bytes}
    (h : s.access = (.ok (b :: bs), s₁)) :
    skipLine s =
      match breakLine (b :: bs) with
      | some n => (.ok true, s₁.consume n)
      | none => skipLine (s₁.consume (bs.length + 1)) := by
  rw [skipLine_eq, h]

/-- **A line that is ahead is skipped**, however it is cut. -/
theorem skipLine_of_ahead {rest : Bytes} (line : Bytes) (s : Stream) (hs : s.Gapless)
    (hline : Bytes.newline ∉ line) (hahead : s.ahead = line ++ Bytes.newline :: rest) :
    ∃ s', skipLine s = (.ok true, s') ∧ s.Advances (line ++ [Bytes.newline]) s' := by
  -- each piece without the newline shortens what is left of the line
  induction hn : line.length using Nat.strongRecOn generalizing line s with
  | ind n ih =>
      obtain ⟨b, bs, s₁, haccess, ⟨left, hpiece⟩ | ⟨left, rfl⟩⟩ := Stream.access_before hs hahead
      · refine ⟨s₁.consume (line.length + 1), ?_,
          Stream.advances_access_consume_through hs haccess hpiece⟩
        rw [skipLine_of_access haccess, hpiece, breakLine_append hline]
      · obtain ⟨hnow, hleft⟩ : Bytes.newline ∉ b :: bs ∧ Bytes.newline ∉ left := by
          rw [List.mem_append] at hline
          exact not_or.1 hline
        have hconsume := Stream.advances_access_consume hs haccess
        have hahead' : (s₁.consume (bs.length + 1)).ahead = left ++ Bytes.newline :: rest :=
          hconsume.ahead_eq (by rw [hahead, List.append_assoc])
        obtain ⟨s', hskip, hadv⟩ := ih left.length (by simp at hn; omega) left _ hconsume.gapless
          hleft hahead' rfl
        refine ⟨s', ?_, ?_⟩
        · rw [skipLine_of_access haccess, breakLine_of_not_mem hnow]
          exact hskip
        · rw [List.append_assoc]
          exact hconsume.trans hadv

/-! ### What was read -/

theorem Field.ofRaw_eq_ok {raw : Bytes} {d : Delimiter} {field : Field}
    (h : Field.ofRaw raw d = .ok field) :
    Base64.decode? raw = some field.plain ∧ field.delimiter = d := by
  unfold Field.ofRaw at h
  split at h
  · rename_i plain hplain
    obtain rfl := Except.ok.inj h
    exact ⟨hplain, rfl⟩
  · simp at h

/-- **A field that was read stood ahead**, and exactly it was consumed. -/
theorem advances_of_readFieldFrom {limit : Nat} {raw : Bytes} {s : Stream} {field : Field}
    (hs : s.Gapless) (h : (readFieldFrom limit raw s).outcome = .ok field) :
    ∃ more, more.Undelimited ∧ (raw ++ more).length ≤ limit ∧
      Base64.decode? (raw ++ more) = some field.plain ∧
      s.Advances (more ++ [field.delimiter.byte]) (readFieldFrom limit raw s).stream := by
  fun_induction readFieldFrom limit raw s with
  | case1 => simp at h
  | case2 => simp at h
  | case3 => simp at h
  | case4 raw s b bs s₁ haccess before d hbreak hfits =>
      obtain ⟨hun, rest, hpiece⟩ := breakField_some hbreak
      obtain ⟨hdecode, hd⟩ := Field.ofRaw_eq_ok h
      refine ⟨before, hun, Nat.le_of_not_lt hfits, hdecode, ?_⟩
      rw [hd]
      exact Stream.advances_access_consume_through hs haccess hpiece
  | case5 => simp at h
  | case6 raw s b bs s₁ haccess before hbreak hfits ih =>
      have hconsume := Stream.advances_access_consume hs haccess
      obtain ⟨more, hun, hlen, hdecode, hadv⟩ := ih hconsume.gapless h
      obtain rfl := breakField_none hbreak
      refine ⟨b :: bs ++ more, ?_, ?_, ?_, ?_⟩
      · exact Bytes.undelimited_append.2 ⟨undelimited_of_breakField_none hbreak, hun⟩
      · rwa [← List.append_assoc]
      · rwa [← List.append_assoc]
      · rw [List.append_assoc]
        exact hconsume.trans hadv

theorem advances_of_readField {limit : Nat} {s s' : Stream} {field : Field} {raw : Bytes}
    (hs : s.Gapless) (h : readField limit s = ⟨.ok field, raw, s'⟩) :
    ∃ raw, raw.Undelimited ∧ raw.length ≤ limit ∧ Base64.decode? raw = some field.plain ∧
      s.Advances (raw ++ [field.delimiter.byte]) s' := by
  have hok : (readFieldFrom limit [] s).outcome = .ok field := by rw [← readField, h]
  have hread := advances_of_readFieldFrom hs hok
  rwa [← readField, h] at hread

/-- **A line that was skipped stood ahead**, and exactly it was consumed. -/
theorem advances_of_skipLine {s s' : Stream} (hs : s.Gapless) (h : skipLine s = (.ok true, s')) :
    ∃ line, Bytes.newline ∉ line ∧ s.Advances (line ++ [Bytes.newline]) s' := by
  fun_induction skipLine s with
  | case1 => simp at h
  | case2 => simp at h
  | case3 s b bs s₁ haccess n hbreak =>
      obtain ⟨line, rest, hpiece, hline, rfl⟩ := breakLine_some hbreak
      refine ⟨line, hline, ?_⟩
      rw [← (Prod.mk.inj h).2]
      exact Stream.advances_access_consume_through hs haccess hpiece
  | case4 s b bs s₁ haccess hbreak ih =>
      have hconsume := Stream.advances_access_consume hs haccess
      obtain ⟨line, hline, hadv⟩ := ih hconsume.gapless h
      refine ⟨b :: bs ++ line, ?_, ?_⟩
      · rw [List.mem_append]
        exact not_or.2 ⟨not_mem_of_breakLine_none hbreak, hline⟩
      · rw [List.append_assoc]
        exact hconsume.trans hadv

/-- A line that the end of input cuts off leaves the stream at its end. -/
theorem access_of_skipLine {s s' : Stream} (hs : s.Gapless) (h : skipLine s = (.ok false, s')) :
    s'.access = (.ok [], s') := by
  fun_induction skipLine s with
  | case1 => simp at h
  | case2 s s₁ haccess =>
      rw [← (Prod.mk.inj h).2]
      exact Stream.access_of_exhausted hs haccess
  | case3 => simp at h
  | case4 s b bs s₁ haccess hbreak ih =>
      exact ih (Stream.advances_access_consume hs haccess).gapless h

/-- At the end of its input a stream gives no field. -/
theorem readField_of_end {limit : Nat} {s t : Stream} (h : s.access = (.ok [], t)) :
    (readField limit s).outcome = .error .prematureEof := by
  rw [readField_of_access_end h]

theorem readField_of_prematureEof {limit : Nat} {s : Stream}
    (h : (readField limit s).outcome = .error .prematureEof) :
    ∃ raw u, readField limit s = ⟨.error .prematureEof, raw, u⟩ :=
  ⟨(readField limit s).raw, (readField limit s).stream, by rw [← h]⟩

end AttributeWire
