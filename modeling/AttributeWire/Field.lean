/-
**Fields of an attribute line.**

A field is a run of bytes up to a colon or a newline, and is the base64 form of a name or a value.
It is read piece by piece, and its written form may not grow beyond a limit; the limit is checked
after each piece, so that a delimiter further on in the same piece is consumed before the field is
found too long.

Main definitions:

* `Delimiter`, `Field` — what ends a field, and a field that was read;
* `FieldError`, `FieldError.message` — why none was read;
* `breakField`, `breakLine` — a piece of data cut at its first delimiter, or its first newline;
* `readField` — reads a field, and gives what was gathered of its written form in any case;
* `skipLine` — discards input through the next newline.

Main results:

* `length_unread_readField` — reading a field successfully consumes input;
* `length_unread_skipLine` — skipping a line never gives input back.
-/

import AttributeWire.Base64
import AttributeWire.Text.Utf8
import AttributeWire.Stream

set_option relaxedAutoImplicit false
set_option autoImplicit false

namespace AttributeWire

/-! ### Fields and their errors -/

/-- What ends a field. -/
inductive Delimiter where
  /-- A colon: a value follows. -/
  | colon
  /-- A newline: the attribute is over. -/
  | newline
deriving DecidableEq, Repr

/-- A field that was read. -/
structure Field where
  /-- The decoded bytes. -/
  plain : Bytes
  /-- What ended the field. -/
  delimiter : Delimiter
deriving DecidableEq, Repr

/-- How many bytes of malformed data a message shows. -/
def echoLength : Nat := 100

/-- Why a field could not be read. -/
inductive FieldError where
  /-- The input ended inside the field. -/
  | prematureEof
  /-- The written form is longer than the limit. -/
  | tooLong (limit : Nat)
  /-- The written form is not base64; the beginning of it is kept for the message. -/
  | malformedBase64 (echo : Bytes)
  /-- The stream failed. -/
  | transport (fault : Fault)
deriving DecidableEq, Repr

/-- The text of an error. -/
def FieldError.message : FieldError → String
  | .prematureEof => "premature end-of-input"
  | .tooLong limit => s!"string length > {limit} characters"
  | .malformedBase64 echo => "malformed base64 data: " ++ Utf8.lossy echo
  | .transport fault => fault.message

/-! ### Cutting a piece of data -/

/-- The delimiter a byte is. -/
def Delimiter.ofByte? (b : UInt8) : Option Delimiter :=
  if b = Bytes.colon then some .colon
  else if b = Bytes.newline then some .newline
  else none

/-- Cuts at the first delimiter: the bytes before it, and the delimiter, `none` if there is
none. -/
def breakField : Bytes → Bytes × Option Delimiter
  | [] => ([], none)
  | b :: rest =>
      match Delimiter.ofByte? b with
      | some delimiter => ([], some delimiter)
      | none =>
          let (before, delimiter) := breakField rest
          (b :: before, delimiter)

/-- The number of bytes through the first newline, `none` if there is no newline. -/
def breakLine : Bytes → Option Nat
  | [] => none
  | b :: rest =>
      if b = Bytes.newline then some 1
      else match breakLine rest with
        | some n => some (n + 1)
        | none => none

theorem breakField_none {bytes before : Bytes} (h : breakField bytes = (before, none)) :
    before = bytes := by
  induction bytes generalizing before with
  | nil => simpa [breakField] using h.symm
  | cons b rest ih =>
      unfold breakField at h
      split at h
      · simp at h
      · simp only [Prod.mk.injEq] at h
        have hrest : breakField rest = ((breakField rest).1, none) := Prod.ext rfl h.2
        rw [← h.1, ih hrest]

theorem breakLine_pos {bytes : Bytes} {n : Nat} (h : breakLine bytes = some n) : 0 < n := by
  cases bytes with
  | nil => simp [breakLine] at h
  | cons b rest =>
      simp only [breakLine] at h
      split at h
      · simp only [Option.some.injEq] at h
        omega
      · split at h
        · simp only [Option.some.injEq] at h
          omega
        · simp at h

/-! ### Reading a field -/

/-- What reading a field gives. -/
structure FieldRead where
  /-- The field, or why there is none. -/
  outcome : Except FieldError Field
  /-- The written form as far as it was gathered. -/
  raw : Bytes
  /-- The stream afterwards. -/
  stream : Stream
deriving Repr

/-- Decodes the written form of a field. -/
def Field.ofRaw (raw : Bytes) (delimiter : Delimiter) : Except FieldError Field :=
  match Base64.decode? raw with
  | some plain => .ok ⟨plain, delimiter⟩
  | none => .error (.malformedBase64 (raw.take echoLength))

/-- Reads on in a field of which `raw` has been gathered. -/
def readFieldFrom (limit : Nat) (raw : Bytes) (s : Stream) : FieldRead :=
  match _h : s.access with
  | (.error fault, s) => ⟨.error (.transport fault), raw, s⟩
  | (.ok [], s) => ⟨.error .prematureEof, raw, s⟩
  | (.ok (b :: bs), s) =>
      match breakField (b :: bs) with
      | (before, some delimiter) =>
          -- the delimiter is consumed even if the field turns out too long
          if limit < (raw ++ before).length then
            ⟨.error (.tooLong limit), raw ++ before, s.consume (before.length + 1)⟩
          else
            ⟨Field.ofRaw (raw ++ before) delimiter, raw ++ before, s.consume (before.length + 1)⟩
      | (before, none) =>
          if limit < (raw ++ before).length then
            ⟨.error (.tooLong limit), raw ++ before, s.consume (bs.length + 1)⟩
          else readFieldFrom limit (raw ++ before) (s.consume (bs.length + 1))
termination_by s.unread.length
decreasing_by
  exact Stream.length_unread_access_consume _h (Nat.succ_pos _)

/-- Reads the next field, whose written form may have at most `limit` bytes. -/
def readField (limit : Nat) (s : Stream) : FieldRead := readFieldFrom limit [] s

/-- Discards input through the next newline.  The answer says whether there was one before the end
of input. -/
def skipLine (s : Stream) : Except Fault Bool × Stream :=
  match _h : s.access with
  | (.error fault, s) => (.error fault, s)
  | (.ok [], s) => (.ok false, s)
  | (.ok (b :: bs), s) =>
      match breakLine (b :: bs) with
      | some n => (.ok true, s.consume n)
      | none => skipLine (s.consume (bs.length + 1))
termination_by s.unread.length
decreasing_by
  exact Stream.length_unread_access_consume _h (Nat.succ_pos _)

/-! ### Progress -/

/-- Reading on in a field never gives input back. -/
theorem length_unread_readFieldFrom_le (limit : Nat) (raw : Bytes) (s : Stream) :
    (readFieldFrom limit raw s).stream.unread.length ≤ s.unread.length := by
  fun_induction readFieldFrom limit raw s with
  | case1 raw s fault s' h => exact Nat.le_of_eq (by rw [Stream.unread_of_access h])
  | case2 raw s s' h => exact Nat.le_of_eq (by rw [Stream.unread_of_access h])
  | case3 raw s b bs s' h before delimiter hb hlong =>
      exact Nat.le_of_lt (Stream.length_unread_access_consume h (Nat.succ_pos _))
  | case4 raw s b bs s' h before delimiter hb hlong =>
      exact Nat.le_of_lt (Stream.length_unread_access_consume h (Nat.succ_pos _))
  | case5 raw s b bs s' h before hb hlong =>
      exact Nat.le_of_lt (Stream.length_unread_access_consume h (Nat.succ_pos _))
  | case6 raw s b bs s' h before hb hlong ih =>
      exact Nat.le_trans ih
        (Nat.le_of_lt (Stream.length_unread_access_consume h (Nat.succ_pos _)))

theorem length_unread_readFieldFrom_lt {limit : Nat} {raw : Bytes} {s : Stream} {field : Field}
    (h : (readFieldFrom limit raw s).outcome = .ok field) :
    (readFieldFrom limit raw s).stream.unread.length < s.unread.length := by
  rw [readFieldFrom] at h ⊢
  split at h
  · simp at h
  · simp at h
  · rename_i b bs s' ha
    have shorter {n : Nat} (pos : 0 < n) := Stream.length_unread_access_consume ha pos
    split
    · split <;> exact shorter (Nat.succ_pos _)
    · split
      · exact shorter (Nat.succ_pos _)
      · exact Nat.lt_of_le_of_lt (length_unread_readFieldFrom_le ..) (shorter (Nat.succ_pos _))

/-- **Reading a field successfully consumes input.** -/
theorem length_unread_readField {limit : Nat} {s : Stream} {field : Field} {raw : Bytes}
    {s' : Stream} (h : readField limit s = ⟨.ok field, raw, s'⟩) :
    s'.unread.length < s.unread.length := by
  have hok : (readFieldFrom limit [] s).outcome = .ok field := by rw [← readField, h]
  have hlt := length_unread_readFieldFrom_lt hok
  rwa [← readField, h] at hlt

/-- **Skipping a line never gives input back.** -/
theorem length_unread_skipLine (s : Stream) :
    (skipLine s).2.unread.length ≤ s.unread.length := by
  fun_induction skipLine s with
  | case1 s fault s' h => exact Nat.le_of_eq (by rw [Stream.unread_of_access h])
  | case2 s s' h => exact Nat.le_of_eq (by rw [Stream.unread_of_access h])
  | case3 s b bs s' h n hn =>
      exact Nat.le_of_lt (Stream.length_unread_access_consume h (breakLine_pos hn))
  | case4 s b bs s' h hn ih =>
      exact Nat.le_trans ih
        (Nat.le_of_lt (Stream.length_unread_access_consume h (Nat.succ_pos _)))

end AttributeWire
