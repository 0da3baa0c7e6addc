/-
**A piece at hand.**

If the bytes of a reading step are at hand in one piece, then the step takes them from the front and
leaves the rest, whatever the rest is.  A stream that shows the same piece only when it is asked is
read alike.

Main definitions:

* `Stream.whole`, `Stream.Shows` — a stream of one piece, and streams that show the same piece.

Main results:

* `readName_front`, `readValue_front`, `skipLine_front` — **what stands in front is read**, whatever
  follows it;
* `readName_of_access_eq`, `seek_of_access_eq` — what is read depends on what is shown.
-/

import AttributeWire.Proofs.Attribute
import AttributeWire.Proofs.Reading

set_option relaxedAutoImplicit false
set_option autoImplicit false

namespace AttributeWire

/-! ### Streams of one piece -/

namespace Stream

/-- A stream whose one piece is at hand. -/
abbrev whole (bytes : Bytes) (ending : Ending) : Stream := ⟨bytes, [], ending⟩

/-- A stream that shows the bytes in one piece. -/
structure Shows (s : Stream) (bytes : Bytes) (ending : Ending) : Prop where
  access : s.access = (whole bytes ending).access
  unread : s.unread = bytes

variable {bytes more : Bytes} {ending : Ending}

@[simp] theorem unread_whole (bytes : Bytes) (ending : Ending) :
    (whole bytes ending).unread = bytes := by
  simp [unread]

theorem shows_of_eq {s : Stream} (h : s = whole s.unread ending) : s.Shows s.unread ending :=
  ⟨congrArg Stream.access h, rfl⟩

theorem shows_ofEvents (bytes : Bytes) (ending : Ending) :
    (ofEvents [.data bytes] ending).Shows bytes ending := by
  constructor
  · cases bytes <;> cases ending <;> rfl
  · simp

/-- The piece at hand is shown until it is used up. -/
theorem access_front (d : UInt8) (front more : Bytes) (pending : List Event) (ending : Ending) :
    ∃ b bs, front ++ d :: more = b :: bs ∧
      access ⟨front ++ d :: more, pending, ending⟩ =
        (.ok (b :: bs), ⟨front ++ d :: more, pending, ending⟩) := by
  cases front with
  | nil => exact ⟨d, more, rfl, rfl⟩
  | cons b bs => exact ⟨b, bs ++ d :: more, rfl, rfl⟩

theorem consume_front (d : UInt8) (front more : Bytes) (pending : List Event) (ending : Ending) :
    consume (front.length + 1) ⟨front ++ d :: more, pending, ending⟩ = ⟨more, pending, ending⟩ := by
  simp [consume, List.drop_append]

end Stream

section

variable {config : Config} {flags : Flags} {target : Wanted} {s' : Stream}
  {bytes raw line plain value : Bytes} {ending : Ending}

/-! ### Reading from the front -/

/-- A field is read from the front, whatever follows it. -/
theorem readField_front {limit : Nat} (d : Delimiter) (more : Bytes) (pending : List Event)
    (ending : Ending) (hraw : raw.Undelimited) (hfits : raw.length ≤ limit) :
    readField limit ⟨raw ++ d.byte :: more, pending, ending⟩ =
      ⟨Field.ofRaw raw d, raw, ⟨more, pending, ending⟩⟩ := by
  obtain ⟨b, bs, hcons, haccess⟩ := Stream.access_front d.byte raw more pending ending
  rw [readField, readFieldFrom_of_access haccess, ← hcons, breakField_append hraw]
  simp only [List.nil_append, if_neg (Nat.not_lt.2 hfits), Stream.consume_front]

/-- The rest of a line is skipped, whatever follows it. -/
theorem skipLine_front (more : Bytes) (pending : List Event) (ending : Ending)
    (hline : Bytes.newline ∉ line) :
    skipLine ⟨line ++ Bytes.newline :: more, pending, ending⟩ =
      (.ok true, ⟨more, pending, ending⟩) := by
  obtain ⟨b, bs, hcons, haccess⟩ := Stream.access_front Bytes.newline line more pending ending
  rw [skipLine_of_access haccess, ← hcons, breakLine_append hline]
  simp only [Stream.consume_front]

/-- On one piece a line that was skipped stood in front, and the rest is left. -/
theorem eq_whole_of_skipLine (h : skipLine (.whole bytes ending) = (.ok true, s')) :
    s' = .whole s'.unread ending ∧
      ∃ line, Bytes.newline ∉ line ∧ bytes = line ++ Bytes.newline :: s'.unread := by
  obtain ⟨line, hline, hunread⟩ := unread_of_skipLine h
  rw [Stream.unread_whole, if_pos rfl, List.singleton_append] at hunread
  refine ⟨?_, line, hline, hunread⟩
  rw [hunread, skipLine_front _ [] ending hline] at h
  exact (Prod.mk.inj h).2.symm

theorem readName_front (d : Delimiter) (more : Bytes) (pending : List Event) (ending : Ending)
    (hraw : WrittenForm config raw plain) :
    readName config ⟨raw ++ d.byte :: more, pending, ending⟩ =
      ⟨.ok ⟨plain, d⟩, [.nameRead plain], ⟨more, pending, ending⟩⟩ := by
  rw [readName, readField_front d more pending ending hraw.undelimited hraw.fits]
  simp only [Field.ofRaw, hraw.decodes]

theorem readValue_front (kind : String) (more : Bytes) (pending : List Event) (ending : Ending)
    (hraw : WrittenForm config raw value) :
    readValue config kind ⟨plain, .colon⟩ ⟨raw ++ Bytes.newline :: more, pending, ending⟩ =
      ⟨.ok value, [.valueRead value], ⟨more, pending, ending⟩⟩ := by
  have hread := readField_front .newline more pending ending hraw.undelimited hraw.fits
  rw [Delimiter.byte] at hread
  simp [readValue, hread, Field.ofRaw, hraw.decodes]

/-! ### What is read depends on what is shown -/

theorem readName_of_access_eq {s t : Stream} (h : s.access = t.access) :
    readName config s = readName config t := by
  have hread : readField config.fieldLimit s = readField config.fieldLimit t := by
    rw [readField, readField]
    unfold readFieldFrom
    rw [h]
  rw [readName, hread, readName]

theorem seek_of_access_eq {s t : Stream} (h : s.access = t.access) :
    seek config flags target s = seek config flags target t := by
  have hread : readName config s = readName config t := readName_of_access_eq h
  rcases ht : readName config t with ⟨e | name, log, u⟩
  · rw [seek_of_readName_error ht, seek_of_readName_error (hread.trans ht)]
  · rw [seek_of_readName ht, seek_of_readName (hread.trans ht)]

end

end AttributeWire
