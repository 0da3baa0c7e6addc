/-
**A scan sees decoded fields only.**

The base64 form of a byte string is not unique: the last bits of a block may be anything, and blocks
with padding may stand in the middle.  Two texts that say the same, field by field, with the same
delimiters, are therefore read alike, whatever the bytes on the wire: a name that is looked for, the
empty name that ends a list, a name that is captured twice, and what is shown of them are all told
from the decoded bytes.

Main definitions:

* `Wording`, `Spells` — what a text says, field by field, and the texts that say it;
* `Wording.LeftAfter` — a stream that has read past the first fields of a wording;
* `Wording.SameLeft` — two streams that have read past the same number of fields.

Main results:

* `Wording.LeftAfter.readField`, `Wording.LeftAfter.skipLine` — **what is read, and how many fields
  it takes**, is told by the wording;
* `lockstep_sameLeft` — **two spellings are read in lockstep**, and no field is too long;
* `scan_spelled_alike` — **a scan cannot tell two spellings apart**.
-/

import AttributeWire.Proofs.Lockstep
import AttributeWire.Proofs.Reading

set_option relaxedAutoImplicit false
set_option autoImplicit false

namespace AttributeWire

/-! ### What a text says -/

/-- What a text says: its fields with their delimiters, and what follows the last delimiter. -/
structure Wording where
  /-- The fields that have a delimiter. -/
  fields : List Field
  /-- What the bytes behind the last delimiter decode to. -/
  last : Bytes

namespace Wording

/-- What is left behind the first `n` fields; what follows the last delimiter is a field as well. -/
def drop (n : Nat) (w : Wording) : Wording :=
  ⟨w.fields.drop n, if n ≤ w.fields.length then w.last else []⟩

@[simp] theorem drop_zero (w : Wording) : w.drop 0 = w := by simp [drop]

theorem drop_drop (n k : Nat) (w : Wording) : (w.drop n).drop k = w.drop (n + k) := by
  simp only [drop, List.drop_drop, List.length_drop, mk.injEq, true_and]
  by_cases hn : n ≤ w.fields.length
  · by_cases hk : k ≤ w.fields.length - n
    · rw [if_pos hk, if_pos hn, if_pos (by omega)]
    · rw [if_neg hk, if_neg (by omega)]
  · rw [if_neg hn, if_neg (by omega : ¬ n + k ≤ w.fields.length), ite_self]

theorem drop_succ_cons (n : Nat) (field : Field) (fields : List Field) (last : Bytes) :
    drop (n + 1) ⟨field :: fields, last⟩ = drop n ⟨fields, last⟩ := by
  simp [drop]

theorem drop_eq_nil {n : Nat} {w : Wording} (h : w.fields.length < n) : w.drop n = ⟨[], []⟩ := by
  rw [drop, if_neg (Nat.not_le.2 h), List.drop_of_length_le (Nat.le_of_lt h)]

/-- The number of fields before the one that ends the first line. -/
def line? (w : Wording) : Option Nat := w.fields.findIdx? fun f => f.delimiter = .newline

end Wording

/-- The text says just this: each field is written in some form within the limit, and so is what
follows the last delimiter. -/
inductive Spells (config : Config) : Wording → Bytes → Prop
  | last {raw plain : Bytes} (h : WrittenForm config raw plain) : Spells config ⟨[], plain⟩ raw
  | field {raw plain last text : Bytes} {fields : List Field} (d : Delimiter)
      (h : WrittenForm config raw plain) (hrest : Spells config ⟨fields, last⟩ text) :
      Spells config ⟨⟨plain, d⟩ :: fields, last⟩ (raw ++ d.byte :: text)

section

variable {config : Config} {w : Wording} {text : Bytes}

theorem spells_nil (config : Config) : Spells config ⟨[], []⟩ [] := .last ⟨Nat.zero_le _, rfl⟩

/-- The first line of a text is where the wording has it. -/
theorem Spells.of_line {n : Nat} (h : Spells config w text) (hline : w.line? = some n) :
    ∃ line rest, text = line ++ Bytes.newline :: rest ∧ Bytes.newline ∉ line ∧
      Spells config (w.drop (n + 1)) rest := by
  induction h generalizing n with
  | last h => simp [Wording.line?] at hline
  | @field raw plain last text fields d h hrest ih =>
      have hraw := h.undelimited.newline_not_mem
      cases d with
      | newline =>
          obtain rfl : 0 = n := by simpa [Wording.line?, List.findIdx?_cons] using hline
          refine ⟨raw, text, rfl, hraw, ?_⟩
          rwa [Wording.drop_succ_cons, Wording.drop_zero]
      | colon =>
          obtain ⟨m, hm, rfl⟩ : ∃ m, (Wording.mk fields last).line? = some m ∧ m + 1 = n := by
            simpa [Wording.line?, List.findIdx?_cons] using hline
          obtain ⟨line, rest, rfl, hnot, hspells⟩ := ih hm
          refine ⟨raw ++ Bytes.colon :: line, rest, by simp [Delimiter.byte], ?_, ?_⟩
          · simp [hraw, hnot, Bytes.colon_ne_newline.symm]
          · rwa [Wording.drop_succ_cons]

theorem Spells.newline_not_mem (h : Spells config w text) (hline : w.line? = none) :
    Bytes.newline ∉ text := by
  induction h with
  | last h => exact h.undelimited.newline_not_mem
  | @field raw plain last text fields d h hrest ih =>
      have hraw := h.undelimited.newline_not_mem
      cases d with
      | newline => simp [Wording.line?, List.findIdx?_cons] at hline
      | colon =>
          have hrest : (Wording.mk fields last).line? = none := by
            simpa [Wording.line?, List.findIdx?_cons] using hline
          simp [Delimiter.byte, hraw, ih hrest, Bytes.colon_ne_newline.symm]

end

/-! ### Reading what a wording says -/

namespace Stream

/-- A steady stream holds nothing behind the bytes ahead. -/
theorem Steady.advances_past {s : Stream} (hs : s.Steady) : s.Advances s.ahead s.past where
  ahead := by rw [past, hs.beyond]; exact (List.append_nil _).symm
  beyond := by rw [past, hs.beyond]; rfl
  ending := rfl
  gapless := gapless_past hs.gapless

theorem Steady.stall_eq {s t : Stream} (hs : s.Steady) (ht : t.Steady)
    (h : s.ending = t.ending) : s.stall = t.stall := by
  rw [stall, stall, hs.beyond, ht.beyond, h]

theorem Steady.unread_past {s : Stream} (hs : s.Steady) : s.past.unread = [] := by
  rw [past, hs.beyond]
  rfl

end Stream

namespace Wording

/-- What reading the first field gives, if the stream stops with `stall`. -/
def first (stall : Except Fault Bytes) (w : Wording) : Except FieldError Field :=
  match w.fields with
  | field :: _ => .ok field
  | [] => .error (.ofStall stall)

/-- What skipping the first line gives, if the stream stops with `stall`. -/
def lineEnd (stall : Except Fault Bytes) (w : Wording) : Except Fault Bool :=
  if w.line?.isSome then .ok true else stall.map fun _ => false

/-- The number of fields that skipping the first line takes. -/
def lineLength (w : Wording) : Nat := (w.line?.getD w.fields.length) + 1

end Wording

section

variable {config : Config} {w : Wording} {s : Stream}

/-- **Reading a field takes the first one of the wording.** -/
theorem Spells.readField (hs : s.Steady) (h : Spells config w s.unread) :
    ∃ raw s', readField config.fieldLimit s = ⟨w.first s.stall, raw, s'⟩ ∧
      (∃ front, s.Advances front s') ∧ Spells config (w.drop 1) s'.unread := by
  generalize htext : s.unread = text at h
  have hahead := hs.ahead.trans htext
  cases h with
  | last h =>
      rw [← hahead] at h
      refine ⟨s.ahead, s.past, ?_, ⟨s.ahead, hs.advances_past⟩, ?_⟩
      · exact readFieldFrom_of_undelimited [] s hs.gapless h.undelimited h.fits
      · rw [Wording.drop_eq_nil Nat.zero_lt_one, hs.unread_past]
        exact spells_nil config
  | @field raw plain last text fields d h hrest =>
      obtain ⟨s', hread, hadv⟩ := readField_of_ahead hs.gapless h.undelimited hahead h.fits
      refine ⟨raw, s', ?_, ⟨_, hadv⟩, ?_⟩
      · rw [hread, Field.ofRaw, h.decodes]
        rfl
      · have hunread : s'.unread = text := hadv.unread_eq_of_append (by simp [htext])
        rwa [hunread, Wording.drop_succ_cons, Wording.drop_zero]

/-- **Skipping a line takes the first one of the wording.** -/
theorem Spells.skipLine (hs : s.Steady) (h : Spells config w s.unread) :
    ∃ s', skipLine s = (w.lineEnd s.stall, s') ∧
      (∃ front, s.Advances front s') ∧ Spells config (w.drop w.lineLength) s'.unread := by
  have hahead := hs.ahead
  cases hline : w.line? with
  | some n =>
      obtain ⟨line, rest, htext, hnot, hspells⟩ := h.of_line hline
      obtain ⟨s', hskip, hadv⟩ := skipLine_of_ahead line s hs.gapless hnot (hahead.trans htext)
      have hunread : s'.unread = rest := hadv.unread_eq_of_append (by simp [htext])
      refine ⟨s', ?_, ⟨_, hadv⟩, ?_⟩
      · simp [hskip, Wording.lineEnd, hline]
      · simpa [Wording.lineLength, hline, hunread] using hspells
  | none =>
      have hnot := h.newline_not_mem hline
      rw [← hahead] at hnot
      refine ⟨s.past, ?_, ⟨s.ahead, hs.advances_past⟩, ?_⟩
      · simp [skipLine_of_not_mem s hs.gapless hnot, Wording.lineEnd, hline]
      · have hlength : w.fields.length < w.lineLength := by simp [Wording.lineLength, hline]
        rw [Wording.drop_eq_nil hlength, hs.unread_past]
        exact spells_nil config

end

/-! ### Streams that have read past some fields -/

/-- The second stream is what is left of the first one when the first `n` fields of the wording are
read past, and it brings the others. -/
structure Wording.LeftAfter (config : Config) (w : Wording) (n : Nat) (s s' : Stream) : Prop where
  advances : ∃ front, s.Advances front s'
  spells : Spells config (w.drop n) s'.unread

/-- The same number of fields is read past on two streams. -/
def Wording.SameLeft (config : Config) (w : Wording) (s t s' t' : Stream) : Prop :=
  ∃ n, w.LeftAfter config n s s' ∧ w.LeftAfter config n t t'

namespace Wording.LeftAfter

variable {config : Config} {w : Wording} {n : Nat} {s s' : Stream}

theorem refl (hs : s.Gapless) (h : Spells config w s.unread) : w.LeftAfter config 0 s s :=
  ⟨⟨[], .refl hs⟩, by rwa [drop_zero]⟩

/-- The field that is read is the next one of the wording. -/
theorem readField (hs : s.Steady) (h : w.LeftAfter config n s s') :
    (readField config.fieldLimit s').outcome = (w.drop n).first s.stall ∧
      w.LeftAfter config (n + 1) s (AttributeWire.readField config.fieldLimit s').stream := by
  obtain ⟨⟨front, hadv⟩, hspells⟩ := h
  obtain ⟨raw, s'', hread, ⟨front', hadv'⟩, hspells'⟩ := hspells.readField (hadv.steady hs)
  rw [hread, hadv.stall]
  rw [drop_drop] at hspells'
  exact ⟨rfl, ⟨_, hadv.trans hadv'⟩, hspells'⟩

/-- The line that is skipped is the next one of the wording. -/
theorem skipLine (hs : s.Steady) (h : w.LeftAfter config n s s') :
    (skipLine s').1 = (w.drop n).lineEnd s.stall ∧
      w.LeftAfter config (n + (w.drop n).lineLength) s (AttributeWire.skipLine s').2 := by
  obtain ⟨⟨front, hadv⟩, hspells⟩ := h
  obtain ⟨s'', hskip, ⟨front', hadv'⟩, hspells'⟩ := hspells.skipLine (hadv.steady hs)
  rw [hskip, hadv.stall]
  rw [drop_drop] at hspells'
  exact ⟨rfl, ⟨_, hadv.trans hadv'⟩, hspells'⟩

end Wording.LeftAfter

/-- **Two spellings are read in lockstep**, and no field is too long. -/
theorem lockstep_sameLeft {config : Config} {w : Wording} {s t : Stream} (hs : s.Steady)
    (ht : t.Steady) (hending : s.ending = t.ending) :
    Lockstep config.fieldLimit (w.SameLeft config s t) fun _ _ => False where
  field := by
    rintro s' t' ⟨n, hs', ht'⟩
    obtain ⟨houtcome, hleft⟩ := hs'.readField hs
    obtain ⟨houtcome', hleft'⟩ := ht'.readField ht
    rw [houtcome, houtcome', hs.stall_eq ht hending]
    exact ⟨rfl, .inl ⟨n + 1, hleft, hleft'⟩⟩
  line := by
    rintro s' t' ⟨n, hs', ht'⟩
    obtain ⟨hanswer, hleft⟩ := hs'.skipLine hs
    obtain ⟨hanswer', hleft'⟩ := ht'.skipLine ht
    rw [hanswer, hanswer', hs.stall_eq ht hending]
    exact ⟨rfl, _, hleft, hleft'⟩

/-! ### Two spellings -/

/-- **A scan sees only decoded fields.**  On two streams that spell the same wording, any scan has
the same count or error, the same destinations and the same log, and reads past the same number of
fields. -/
theorem scan_spelled_alike {config : Config} {w : Wording} {s t : Stream} (hs : s.Steady)
    (ht : t.Steady) (hending : s.ending = t.ending) (hspells : Spells config w s.unread)
    (hspells' : Spells config w t.unread) (flags : Flags) (list : WishList) :
    (scan config flags list t).outcome = (scan config flags list s).outcome ∧
      (scan config flags list t).list = (scan config flags list s).list ∧
      (scan config flags list t).log = (scan config flags list s).log ∧
      w.SameLeft config s t (scan config flags list s).stream
        (scan config flags list t).stream := by
  have hagrees := (lockstep_sameLeft hs ht hending).scan flags list
    ⟨0, Wording.LeftAfter.refl hs.gapless hspells, Wording.LeftAfter.refl ht.gapless hspells'⟩
  exact ⟨hagrees.outcome, hagrees.list, hagrees.log, hagrees.stream.resolve_right And.right⟩

/-- The last bits of a padded block may be anything, and padded blocks may follow one another. -/
theorem scan_spelled_alike_of_slack :
    let said (name value : String) :=
      Bytes.ofText name ++ Bytes.colon :: (Bytes.ofText value ++ [Bytes.newline, Bytes.newline])
    let s := Stream.bytewise (said "YQ==" "YWIx") .closed
    let t := Stream.bytewise (said "YR==" "YQ==YjE=") .closed
    let list : WishList := ⟨[⟨Bytes.ofText "a", .str []⟩], some .empty⟩
    (scan .standard ⟨true, true, false⟩ list t).outcome =
        (scan .standard ⟨true, true, false⟩ list s).outcome ∧
      (scan .standard ⟨true, true, false⟩ list t).list =
        (scan .standard ⟨true, true, false⟩ list s).list := by
  intro said s t list
  let w : Wording := ⟨[⟨[97], .colon⟩, ⟨[97, 98, 49], .newline⟩, ⟨[], .newline⟩], []⟩
  have hnil : WrittenForm .standard [] [] := ⟨Nat.zero_le _, rfl⟩
  have spells {name value : String} (hname : WrittenForm .standard (Bytes.ofText name) [97])
      (hvalue : WrittenForm .standard (Bytes.ofText value) [97, 98, 49]) :
      Spells .standard w (said name value) :=
    .field .colon hname (.field .newline hvalue (.field .newline hnil (spells_nil .standard)))
  have hs : Spells .standard w s.unread := by
    rw [Stream.unread_bytewise]
    exact spells ⟨by decide, by decide⟩ ⟨by decide, by decide⟩
  have ht : Spells .standard w t.unread := by
    rw [Stream.unread_bytewise]
    exact spells ⟨by decide, by decide⟩ ⟨by decide, by decide⟩
  have hsteady : s.Steady := Stream.steady_bytewise _ _
  have hsteady' : t.Steady := Stream.steady_bytewise _ _
  obtain ⟨houtcome, hlist, -⟩ :=
    scan_spelled_alike hsteady hsteady' rfl hs ht ⟨true, true, false⟩ list
  exact ⟨houtcome, hlist⟩

end AttributeWire
