/-
**A field, told from the bytes ahead at once.**

A field is read piece by piece, and its length is checked after each piece, before anything is
decoded.  What comes out is told here without pieces: from the run of bytes ahead, from the index
of the first delimiter in it, and from what stops the stream behind it.  The limit comes first: a
written form that is too long is neither decoded nor missed at the end of input.

Main definitions:

* `Bytes.isDelimiter` — the bytes that end a field;
* `FieldRead.AtOnce` — what reading a field is to give.

Main results:

* `findIdx?_isDelimiter_of_some`, `findIdx?_isDelimiter_of_none` — the index of the first delimiter
  is where a field is cut;
* `readField_at_once` — **reading a field gives just that**, on every stream without empty pieces.
-/

import AttributeWire.Proofs.Pieces

set_option relaxedAutoImplicit false
set_option autoImplicit false

namespace AttributeWire

/-! ### The index of the first delimiter -/

/-- The byte ends a field. -/
def Bytes.isDelimiter (b : UInt8) : Bool := b = colon ∨ b = newline

theorem Delimiter.ofByte?_eq_none_iff {b : UInt8} :
    ofByte? b = none ↔ Bytes.isDelimiter b = false := by
  unfold ofByte? Bytes.isDelimiter
  split
  · simp_all
  · split <;> simp_all

@[simp] theorem Delimiter.isDelimiter_byte (d : Delimiter) : Bytes.isDelimiter d.byte = true := by
  cases d <;> rfl

theorem Bytes.Undelimited.isDelimiter_eq_false {bytes : Bytes} (h : bytes.Undelimited) :
    ∀ b ∈ bytes, isDelimiter b = false :=
  fun b hb => Delimiter.ofByte?_eq_none_iff.1 (h b hb)

section

variable {bytes before : Bytes} {d : Delimiter}

theorem findIdx?_isDelimiter_of_some (h : breakField bytes = (before, some d)) :
    bytes.findIdx? Bytes.isDelimiter = some before.length := by
  obtain ⟨hun, rest, rfl⟩ := breakField_some h
  have hnone : before.findIdx? Bytes.isDelimiter = none :=
    List.findIdx?_eq_none_iff.2 hun.isDelimiter_eq_false
  rw [List.findIdx?_append, hnone, List.findIdx?_cons, Delimiter.isDelimiter_byte]
  simp

theorem findIdx?_isDelimiter_of_none (h : breakField bytes = (before, none)) :
    bytes.findIdx? Bytes.isDelimiter = none :=
  List.findIdx?_eq_none_iff.2 (undelimited_of_breakField_none h).isDelimiter_eq_false

end

/-! ### What reading a field gives -/

/-- What reading a field of at most `limit` bytes from a stream is to give.  Nothing in it depends
on the fields that were read before, as the written form is gathered anew. -/
structure FieldRead.AtOnce (limit : Nat) (s : Stream) (read : FieldRead) : Prop where
  /-- Within the limit, the bytes before the first delimiter are the written form.  They and the
  delimiter are consumed, also if they do not decode. -/
  found : ∀ i, s.ahead.findIdx? Bytes.isDelimiter = some i → i ≤ limit →
    s.Advances (s.ahead.take (i + 1)) read.stream ∧
    read.stream.unread = s.unread.drop (i + 1) ∧
    read.raw = s.ahead.take i ∧
    read.outcome =
      match Base64.decode? (s.ahead.take i) with
      | some plain => .ok ⟨plain, if s.ahead[i]? = some Bytes.colon then .colon else .newline⟩
      | none => .error (.malformedBase64 ((s.ahead.take i).take 100))
  /-- A delimiter behind the limit is too late. -/
  late : ∀ i, s.ahead.findIdx? Bytes.isDelimiter = some i → limit < i →
    read.outcome = .error (.tooLong limit)
  /-- Without a delimiter, more bytes than the limit are too many. -/
  endless : s.ahead.findIdx? Bytes.isDelimiter = none → limit < s.ahead.length →
    read.outcome = .error (.tooLong limit)
  /-- Otherwise every byte ahead is consumed, and what stops the stream is reported. -/
  cutOff : s.ahead.findIdx? Bytes.isDelimiter = none → s.ahead.length ≤ limit →
    read.raw = s.ahead ∧
    match s.beyond, s.ending with
    | .fault f :: rest, ending =>
        read.outcome = .error (.transport f) ∧ read.stream = ⟨[], rest, ending⟩
    | _, .closed => read.outcome = .error .prematureEof ∧ read.stream = ⟨[], [], .closed⟩
    | _, .silent =>
        read.outcome = .error (.transport Stream.silence) ∧ read.stream = ⟨[], [], .silent⟩

namespace FieldRead

variable {limit : Nat} {s : Stream}

/-- Both ways of being too long are one: the bytes before the cut are more than the limit. -/
theorem atOnce_of_tooLong {before : Bytes} {d : Option Delimiter} {read : FieldRead}
    (hbreak : breakField s.ahead = (before, d)) (hlong : limit < before.length)
    (h : read.outcome = .error (.tooLong limit)) : read.AtOnce limit s := by
  cases d with
  | some d =>
      have hfind := findIdx?_isDelimiter_of_some hbreak
      refine ⟨fun i hi hfits => ?_, fun i _ _ => h, fun hnone => ?_, fun hnone => ?_⟩
      · rw [hfind, Option.some.injEq] at hi
        omega
      · simp [hfind] at hnone
      · simp [hfind] at hnone
  | none =>
      have hfind := findIdx?_isDelimiter_of_none hbreak
      obtain rfl := breakField_none hbreak
      refine ⟨fun i hi => ?_, fun i hi => ?_, fun _ _ => h, fun _ hfits => ?_⟩
      · simp [hfind] at hi
      · simp [hfind] at hi
      · omega

theorem atOnce_of_found {raw rest : Bytes} {d : Delimiter} (hs : s.Gapless)
    (hraw : raw.Undelimited) (hahead : s.ahead = raw ++ d.byte :: rest)
    (hfits : raw.length ≤ limit) : (readField limit s).AtOnce limit s := by
  obtain ⟨s', hread, hadv⟩ := readField_of_ahead hs hraw hahead hfits
  have hfind : s.ahead.findIdx? Bytes.isDelimiter = some raw.length :=
    findIdx?_isDelimiter_of_some (by rw [hahead, breakField_append hraw])
  have hthrough : s.ahead.take (raw.length + 1) = raw ++ [d.byte] := by
    rw [hahead, List.take_length_add_append, List.take_succ_cons, List.take_zero]
  have hbefore : s.ahead.take raw.length = raw := by rw [hahead, List.take_left]
  have hbyte : s.ahead[raw.length]? = some d.byte := by simp [hahead]
  rw [hread]
  refine ⟨fun i hi _ => ?_, fun i hi hlate => ?_, fun hnone => ?_, fun hnone => ?_⟩
  · obtain rfl := Option.some.inj (hfind.symm.trans hi)
    rw [hthrough, hbefore, hbyte]
    refine ⟨hadv, ?_, rfl, ?_⟩
    · have hlength : (raw ++ [d.byte]).length = raw.length + 1 := by simp
      rw [hadv.unread, ← hlength, List.drop_left]
    · unfold Field.ofRaw
      cases d <;> rfl
  · obtain rfl := Option.some.inj (hfind.symm.trans hi)
    omega
  · simp [hfind] at hnone
  · simp [hfind] at hnone

theorem atOnce_of_cutOff (hs : s.Gapless) (hun : s.ahead.Undelimited)
    (hfits : s.ahead.length ≤ limit) : (readField limit s).AtOnce limit s := by
  have hread : readField limit s = ⟨.error (.ofStall s.stall), s.ahead, s.past⟩ :=
    readFieldFrom_of_undelimited [] s hs hun hfits
  have hfind := findIdx?_isDelimiter_of_none (breakField_of_undelimited hun)
  rw [hread]
  refine ⟨fun i hi => ?_, fun i hi => ?_, fun _ hlong => ?_, fun _ _ => ⟨rfl, ?_⟩⟩
  · simp [hfind] at hi
  · simp [hfind] at hi
  · omega
  · rcases Event.beyond_eq_nil_or s.pending with hnil | ⟨f, rest, hfault, -⟩
    · cases hending : s.ending <;>
        simp [Stream.beyond, hnil, hending, Stream.stall, Stream.past, FieldError.ofStall]
    · simp [Stream.beyond, hfault, Stream.stall, Stream.past, FieldError.ofStall]

end FieldRead

/-- **Reading a field gives what the bytes ahead give at once**, whatever the pieces, the
interruptions and the limit. -/
theorem readField_at_once (limit : Nat) (s : Stream) (hs : s.Gapless) :
    (readField limit s).AtOnce limit s := by
  rcases hbreak : breakField s.ahead with ⟨raw, _ | d⟩
  · have hun := undelimited_of_breakField_none hbreak
    rcases Nat.lt_or_ge limit s.ahead.length with hlong | hfits
    · refine FieldRead.atOnce_of_tooLong (breakField_of_undelimited hun) hlong ?_
      exact readFieldFrom_tooLong [] s.ahead s hs hun (List.append_nil _).symm (Nat.zero_le _) hlong
    · exact FieldRead.atOnce_of_cutOff hs hun hfits
  · obtain ⟨hraw, rest, hahead⟩ := breakField_some hbreak
    rcases Nat.lt_or_ge limit raw.length with hlong | hfits
    · refine FieldRead.atOnce_of_tooLong hbreak hlong ?_
      exact readFieldFrom_tooLong [] raw s hs hraw hahead (Nat.zero_le _) hlong
    · exact FieldRead.atOnce_of_found hs hraw hahead hfits

/-- A delimiter right at the limit, in the second piece and behind an interruption, is in time. -/
theorem readField_at_once_of_limit :
    let s := Stream.ofEvents [.data [89, 81], .fault (.ofKind .interrupted),
      .data [61, 61, 58, 90]] .closed
    s.ahead.findIdx? Bytes.isDelimiter = some 4 ∧
      (readField 4 s).outcome = .ok ⟨[97], .colon⟩ ∧ (readField 4 s).stream.unread = [90] := by
  intro s
  have hs : s.Gapless := by decide
  have hindex : s.ahead.findIdx? Bytes.isDelimiter = some 4 := by decide
  obtain ⟨-, hunread, -, houtcome⟩ := (readField_at_once 4 s hs).found 4 hindex (by decide)
  exact ⟨hindex, houtcome.trans rfl, hunread⟩

end AttributeWire
