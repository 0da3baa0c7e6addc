/-
**What was read stood in front, on any stream.**

Pieces of data may be empty, and faults may come between them: a field that was read nevertheless
stood at the front of what was unread, with its delimiter behind it, and exactly that was consumed.
The same holds of the rest of a line that is skipped, except that an end of input ends it as well.
Such an end need not be the end of everything, since data may follow an empty piece.

Main definitions:

* `WrittenForm` — the written form of a byte string, within the limit;
* `AttributeText` — the line of an attribute, in any written form;
* `WithinLine` — what is consumed between two streams is within one line.

Main results:

* `unread_of_readField`, `unread_of_readName`, `unread_of_readValue` — **a field that was read**
  stood in front;
* `unread_of_skipLine` — **so did the rest of a line** that was skipped;
* `withinLine_of_readName`, `withinLine_of_readValue`, `withinLine_of_skipLine` — a step that fails
  consumes from the front, too, and **no step leaves its line**.
-/

import AttributeWire.Scan
import AttributeWire.Proofs.Blocks

set_option relaxedAutoImplicit false
set_option autoImplicit false

namespace AttributeWire

/-- The bytes are a written form of a byte string, and are within the limit. -/
structure WrittenForm (config : Config) (raw plain : Bytes) : Prop where
  fits : raw.length ≤ config.fieldLimit
  decodes : Base64.decode? raw = some plain

theorem WrittenForm.undelimited {config : Config} {raw plain : Bytes}
    (h : WrittenForm config raw plain) : raw.Undelimited :=
  Base64.undelimited_of_decode? h.decodes

/-- The line of an attribute: a written form of its name before the colon, and one of its value
between the colon and the newline. -/
def AttributeText (config : Config) (pair : Bytes × Bytes) (text : Bytes) : Prop :=
  ∃ raw raw', WrittenForm config raw pair.1 ∧ WrittenForm config raw' pair.2 ∧
    text = raw ++ Bytes.colon :: (raw' ++ [Bytes.newline])

/-! ### Fields -/

/-- What stands before the first delimiter is determined. -/
theorem eq_of_undelimited_append {raw raw' more more' : Bytes} {d d' : Delimiter}
    (hraw : raw.Undelimited) (hraw' : raw'.Undelimited)
    (h : raw ++ d.byte :: more = raw' ++ d'.byte :: more') : raw = raw' := by
  have hbreak := breakField_append hraw d more
  rw [h, breakField_append hraw'] at hbreak
  exact (Prod.mk.inj hbreak).1.symm

/-- The first line is determined, and so is the rest. -/
theorem eq_of_line_append {line line' more more' : Bytes} (hline : Bytes.newline ∉ line)
    (hline' : Bytes.newline ∉ line')
    (h : line ++ Bytes.newline :: more = line' ++ Bytes.newline :: more') :
    line = line' ∧ more = more' := by
  have hbreak := breakLine_append hline more
  rw [h, breakLine_append hline' more'] at hbreak
  have hlen : line'.length = line.length := Nat.succ.inj (Option.some.inj hbreak)
  obtain ⟨rfl, hmore⟩ := List.append_inj h hlen.symm
  exact ⟨rfl, (List.cons.inj hmore).2⟩

/-- What stands before the first colon of a line is a written form of its name. -/
theorem AttributeText.name_eq {config : Config} {name value other more : Bytes}
    (h : AttributeText config (name, value) (Base64.encode other ++ Bytes.colon :: more)) :
    name = other := by
  obtain ⟨raw, raw', hname, -, htext⟩ := h
  have hcolon : Base64.encode other ++ Delimiter.colon.byte :: more =
      raw ++ Delimiter.colon.byte :: (raw' ++ [Bytes.newline]) := htext
  have hraw := eq_of_undelimited_append (Base64.undelimited_encode other) hname.undelimited hcolon
  have hdecodes := hname.decodes
  rw [← hraw, Base64.decode?_encode] at hdecodes
  exact (Option.some.inj hdecodes).symm

/-- Consuming from what an access shows takes it from the front of what is unread. -/
theorem Stream.unread_access_consume {s s₁ : Stream} {piece front rest : Bytes}
    (h : s.access = (.ok piece, s₁)) (hpiece : piece = front ++ rest) :
    s.unread = front ++ (s₁.consume front.length).unread := by
  have hcurrent := current_of_access h
  have hle : front.length ≤ s₁.current.length := by
    rw [hcurrent, hpiece, List.length_append]
    exact Nat.le_add_right _ _
  rw [unread_consume hle, ← unread_of_access h, Stream.unread, hcurrent, hpiece]
  simp

section

variable {config : Config} {s s₁ : Stream} {name : Field} {log : List LogEntry}

theorem unread_of_readFieldFrom {limit : Nat} {raw : Bytes} {field : Field}
    (h : (readFieldFrom limit raw s).outcome = .ok field) :
    ∃ more, more.Undelimited ∧ (raw ++ more).length ≤ limit ∧
      Base64.decode? (raw ++ more) = some field.plain ∧
      s.unread = more ++ field.delimiter.byte :: (readFieldFrom limit raw s).stream.unread := by
  fun_induction readFieldFrom limit raw s with
  | case1 => simp at h
  | case2 => simp at h
  | case3 => simp at h
  | case4 raw s b bs s₁ haccess before d hbreak hfits =>
      obtain ⟨hun, rest, hpiece⟩ := breakField_some hbreak
      obtain ⟨hdecode, hd⟩ := Field.ofRaw_eq_ok h
      refine ⟨before, hun, Nat.le_of_not_lt hfits, hdecode, ?_⟩
      have hfront : b :: bs = (before ++ [d.byte]) ++ rest := by simp [hpiece]
      have hunread := Stream.unread_access_consume haccess hfront
      rw [List.length_append, List.append_assoc] at hunread
      rw [hd]
      exact hunread
  | case5 => simp at h
  | case6 raw s b bs s₁ haccess before hbreak hfits ih =>
      obtain ⟨more, hun, hlen, hdecode, hrest⟩ := ih h
      obtain rfl := breakField_none hbreak
      refine ⟨b :: bs ++ more, ?_, ?_, ?_, ?_⟩
      · exact Bytes.undelimited_append.2 ⟨undelimited_of_breakField_none hbreak, hun⟩
      · rwa [← List.append_assoc]
      · rwa [← List.append_assoc]
      · have hunread := Stream.unread_access_consume haccess (List.append_nil _).symm
        rw [hunread, List.append_assoc, ← hrest]
        rfl

/-- **A field that was read** stood in front. -/
theorem unread_of_readField {limit : Nat} {field : Field} {raw : Bytes}
    (h : readField limit s = ⟨.ok field, raw, s₁⟩) :
    ∃ raw, raw.Undelimited ∧ raw.length ≤ limit ∧ Base64.decode? raw = some field.plain ∧
      s.unread = raw ++ field.delimiter.byte :: s₁.unread := by
  have hok : (readFieldFrom limit [] s).outcome = .ok field := by rw [← readField, h]
  have hread := unread_of_readFieldFrom hok
  rwa [← readField, h] at hread

/-- **A name that was read** stood in front. -/
theorem unread_of_readName (h : readName config s = ⟨.ok name, log, s₁⟩) :
    log = [.nameRead name.plain] ∧ ∃ raw, WrittenForm config raw name.plain ∧
      s.unread = raw ++ name.delimiter.byte :: s₁.unread := by
  unfold readName at h
  split at h
  · rename_i field gathered s₁ hread
    simp only [Attempt.mk.injEq, Except.ok.injEq] at h
    obtain ⟨rfl, rfl, rfl⟩ := h
    obtain ⟨raw, -, hfits, hplain, hunread⟩ := unread_of_readField hread
    exact ⟨rfl, raw, ⟨hfits, hplain⟩, hunread⟩
  · simp at h

/-- **A value that was read** stood in front, and the name before it ended with a colon. -/
theorem unread_of_readValue {kind : String} {value : Bytes}
    (h : readValue config kind name s = ⟨.ok value, log, s₁⟩) :
    name.delimiter = .colon ∧ log = [.valueRead value] ∧
      ∃ raw, WrittenForm config raw value ∧
        s.unread = raw ++ Bytes.newline :: s₁.unread := by
  unfold readValue at h
  split at h
  · simp at h
  · rename_i hcolon
    split at h
    · simp at h
    · rename_i plain gathered s₁ hread
      simp only [Attempt.mk.injEq, Except.ok.injEq] at h
      obtain ⟨rfl, rfl, rfl⟩ := h
      obtain ⟨raw, -, hfits, hplain, hunread⟩ := unread_of_readField hread
      refine ⟨?_, rfl, raw, ⟨hfits, hplain⟩, hunread⟩
      cases hd : name.delimiter with
      | colon => rfl
      | newline => exact absurd hd hcolon
    · simp at h

/-! ### The rest of a line -/

/-- What a skip consumes of a line: the newline too, unless the input ended before it. -/
theorem unread_of_skipLine {whole : Bool} (h : skipLine s = (.ok whole, s₁)) :
    ∃ line, Bytes.newline ∉ line ∧
      s.unread = line ++ ((if whole then [Bytes.newline] else []) ++ s₁.unread) := by
  fun_induction skipLine s with
  | case1 => simp at h
  | case2 s s₂ haccess =>
      obtain ⟨rfl, rfl⟩ : false = whole ∧ s₂ = s₁ := by simpa using h
      exact ⟨[], by simp, by simp [Stream.unread_of_access haccess]⟩
  | case3 s b bs s₂ haccess n hbreak =>
      obtain ⟨rfl, rfl⟩ : true = whole ∧ s₂.consume n = s₁ := by simpa using h
      obtain ⟨line, rest, hpiece, hline, rfl⟩ := breakLine_some hbreak
      refine ⟨line, hline, ?_⟩
      have hfront : b :: bs = (line ++ [Bytes.newline]) ++ rest := by simp [hpiece]
      have hunread := Stream.unread_access_consume haccess hfront
      rw [List.length_append, List.append_assoc] at hunread
      exact hunread
  | case4 s b bs s₂ haccess hbreak ih =>
      obtain ⟨line, hline, hrest⟩ := ih h
      refine ⟨b :: bs ++ line, ?_, ?_⟩
      · rw [List.mem_append]
        exact not_or.2 ⟨not_mem_of_breakLine_none hbreak, hline⟩
      · have hunread := Stream.unread_access_consume haccess (List.append_nil _).symm
        rw [hunread, List.append_assoc, ← hrest]
        rfl

/-! ### Steps that may fail -/

/-- What is consumed between the streams is within one line: a newline comes last, if at all. -/
def WithinLine (s u : Stream) : Prop :=
  ∃ front, s.unread = front ++ u.unread ∧ Bytes.newline ∉ front.dropLast

namespace WithinLine

variable {u : Stream} {front : Bytes}

theorem of_unread (h : s.unread = u.unread) : WithinLine s u := ⟨[], h, by simp⟩

/-- A text without a newline, and whatever byte is behind it. -/
theorem of_append (hfront : Bytes.newline ∉ front) {b : UInt8}
    (hunread : s.unread = front ++ b :: u.unread) : WithinLine s u :=
  ⟨front ++ [b], by rw [hunread, List.append_assoc]; rfl, by rwa [List.dropLast_concat]⟩

/-- A text without a newline in front changes nothing. -/
theorem after (hfront : Bytes.newline ∉ front) (hunread : s.unread = front ++ s₁.unread)
    (h : WithinLine s₁ u) : WithinLine s u := by
  obtain ⟨rest, hrest, hlast⟩ := h
  refine ⟨front ++ rest, by rw [hunread, hrest, List.append_assoc], fun hmem => ?_⟩
  by_cases hnil : rest = []
  · rw [hnil, List.append_nil] at hmem
    exact hfront (List.dropLast_subset front hmem)
  · rw [List.dropLast_append_of_ne_nil hnil] at hmem
    exact (List.mem_append.1 hmem).elim hfront hlast

theorem suffix (h : WithinLine s u) : u.unread <:+ s.unread := by
  obtain ⟨front, hfront, -⟩ := h
  exact ⟨front, hfront.symm⟩

end WithinLine

/-- Reading a field stays within the line, however it ends. -/
theorem withinLine_readFieldFrom (limit : Nat) (raw : Bytes) (s : Stream) :
    WithinLine s (readFieldFrom limit raw s).stream := by
  have delimited {s s₁ : Stream} {b : UInt8} {bs before : Bytes} {d : Delimiter}
      (haccess : s.access = (.ok (b :: bs), s₁))
      (hbreak : breakField (b :: bs) = (before, some d)) :
      WithinLine s (s₁.consume (before.length + 1)) := by
    obtain ⟨hun, rest, hpiece⟩ := breakField_some hbreak
    have hfront : b :: bs = (before ++ [d.byte]) ++ rest := by simp [hpiece]
    have hunread := Stream.unread_access_consume haccess hfront
    rw [List.length_append, List.append_assoc] at hunread
    exact .of_append hun.newline_not_mem hunread
  have undelimited {s s₁ u : Stream} {b : UInt8} {bs before : Bytes}
      (haccess : s.access = (.ok (b :: bs), s₁)) (hbreak : breakField (b :: bs) = (before, none))
      (h : WithinLine (s₁.consume (bs.length + 1)) u) : WithinLine s u :=
    .after (undelimited_of_breakField_none hbreak).newline_not_mem
      (Stream.unread_access_consume haccess (List.append_nil _).symm) h
  fun_induction readFieldFrom limit raw s with
  | case1 raw s fault s₁ haccess => exact .of_unread (Stream.unread_of_access haccess).symm
  | case2 raw s s₁ haccess => exact .of_unread (Stream.unread_of_access haccess).symm
  | case3 raw s b bs s₁ haccess before d hbreak hlong => exact delimited haccess hbreak
  | case4 raw s b bs s₁ haccess before d hbreak hfits => exact delimited haccess hbreak
  | case5 raw s b bs s₁ haccess before hbreak hlong =>
      exact undelimited haccess hbreak (.of_unread rfl)
  | case6 raw s b bs s₁ haccess before hbreak hfits ih => exact undelimited haccess hbreak ih

/-- **So does reading a name**, -/
theorem withinLine_of_readName {u : Stream} {answer : Except ScanError Field}
    (h : readName config s = ⟨answer, log, u⟩) : WithinLine s u := by
  have hfield := withinLine_readFieldFrom config.fieldLimit [] s
  rw [← readField] at hfield
  unfold readName at h
  split at h <;> simp_all

/-- reading a value, -/
theorem withinLine_of_readValue {kind : String} {u : Stream} {answer : Except ScanError Bytes}
    (h : readValue config kind name s = ⟨answer, log, u⟩) : WithinLine s u := by
  have hfield := withinLine_readFieldFrom config.fieldLimit [] s
  rw [← readField] at hfield
  unfold readValue at h
  split at h
  · exact (Attempt.mk.inj h).2.2 ▸ .of_unread rfl
  · split at h <;> simp_all

/-- and skipping the rest of a line. -/
theorem withinLine_of_skipLine {u : Stream} {answer : Except Fault Bool}
    (h : skipLine s = (answer, u)) : WithinLine s u := by
  fun_induction skipLine s with
  | case1 s fault s₁ haccess =>
      obtain rfl := (Prod.mk.inj h).2
      exact .of_unread (Stream.unread_of_access haccess).symm
  | case2 s s₁ haccess =>
      obtain rfl := (Prod.mk.inj h).2
      exact .of_unread (Stream.unread_of_access haccess).symm
  | case3 s b bs s₁ haccess n hbreak =>
      obtain rfl := (Prod.mk.inj h).2
      obtain ⟨line, rest, hpiece, hline, rfl⟩ := breakLine_some hbreak
      have hfront : b :: bs = (line ++ [Bytes.newline]) ++ rest := by simp [hpiece]
      have hunread := Stream.unread_access_consume haccess hfront
      rw [List.length_append, List.append_assoc] at hunread
      exact .of_append hline hunread
  | case4 s b bs s₁ haccess hbreak ih =>
      exact .after (not_mem_of_breakLine_none hbreak)
        (Stream.unread_access_consume haccess (List.append_nil _).symm) (ih h)

/-- At the end of the input there is no line to skip. -/
theorem skipLine_of_end (h : s.access = (.ok [], s₁)) : skipLine s = (.ok false, s₁) := by
  rw [skipLine_eq, h]

end

end AttributeWire
