/-
**Reading UTF-8 one byte at a time.**

A byte string that is meant for a reader is shown as text even when it is not valid UTF-8: each
longest beginning of a well-formed sequence that cannot be continued, and each byte that begins
nothing, is one malformed part.  The machine below finds the scalar values and the malformed parts
in one pass; showing a byte string writes U+FFFD for every malformed part, and reading it strictly
fails if there is one.

Main definitions:

* `Utf8.State`, `Utf8.step` — where the machine stands between bytes, and one byte of progress;
* `Utf8.parts` — the scalar values of a byte string, `none` for a malformed part;
* `Utf8.lossy` — the text shown for a byte string;
* `Utf8.decode?` — the text a byte string is, if it is one.
-/

import AttributeWire.Bytes

set_option relaxedAutoImplicit false
set_option autoImplicit false

namespace AttributeWire

namespace Utf8

/-! ### The machine -/

/-- Where the machine stands between two bytes. -/
inductive State where
  /-- Between scalar values. -/
  | start
  /-- Inside a sequence: this many continuation bytes are owed, the next one lies between the
  bounds, and the bits read so far make up `bits`. -/
  | inside (owed : Nat) (low high : UInt8) (bits : Nat)
deriving DecidableEq, Repr

/-- The first byte of a sequence.  The bounds for the second byte leave out overlong forms,
surrogates and values above U+10FFFF. -/
def lead (b : UInt8) : List (Option Char) × State :=
  if b ≤ 0x7F then ([some (Char.ofNat b.toNat)], .start)
  else if 0xC2 ≤ b ∧ b ≤ 0xDF then ([], .inside 1 0x80 0xBF (b.toNat % 32))
  else if b = 0xE0 then ([], .inside 2 0xA0 0xBF 0)
  else if b = 0xED then ([], .inside 2 0x80 0x9F 13)
  else if 0xE1 ≤ b ∧ b ≤ 0xEF then ([], .inside 2 0x80 0xBF (b.toNat % 16))
  else if b = 0xF0 then ([], .inside 3 0x90 0xBF 0)
  else if 0xF1 ≤ b ∧ b ≤ 0xF3 then ([], .inside 3 0x80 0xBF (b.toNat % 8))
  else if b = 0xF4 then ([], .inside 3 0x80 0x8F 4)
  else ([none], .start)

/-- One byte: the parts it completes and the state after it.  A byte that cannot continue a
sequence ends it as a malformed part and is then read as a first byte. -/
def step : State → UInt8 → List (Option Char) × State
  | .start, b => lead b
  | .inside owed low high bits, b =>
      if low ≤ b ∧ b ≤ high then
        let bits := bits * 64 + b.toNat % 64
        if owed ≤ 1 then ([some (Char.ofNat bits)], .start)
        else ([], .inside (owed - 1) 0x80 0xBF bits)
      else
        let (parts, next) := lead b
        (none :: parts, next)

/-- The parts of what follows a state.  A sequence that the end cuts off is malformed. -/
def partsFrom : State → Bytes → List (Option Char)
  | .start, [] => []
  | .inside .., [] => [none]
  | q, b :: rest =>
      let (parts, next) := step q b
      parts ++ partsFrom next rest

/-! ### Byte strings as text -/

/-- The scalar values of a byte string in order, `none` standing for a malformed part. -/
def parts (bytes : Bytes) : List (Option Char) := partsFrom .start bytes

/-- The text shown for a byte string, with U+FFFD for every malformed part. -/
def lossy (bytes : Bytes) : String :=
  String.ofList ((parts bytes).map fun part => part.getD '\uFFFD')

/-- The characters of a list of parts, if none is malformed. -/
def wellFormed? : List (Option Char) → Option (List Char)
  | [] => some []
  | none :: _ => none
  | some c :: rest =>
      match wellFormed? rest with
      | some cs => some (c :: cs)
      | none => none

/-- The text a byte string is, if it is valid UTF-8. -/
def decode? (bytes : Bytes) : Option (List Char) := wellFormed? (parts bytes)

@[simp] theorem parts_nil : parts [] = [] := rfl

theorem partsFrom_start_cons_of_le {b : UInt8} (h : b ≤ 0x7F) (rest : Bytes) :
    partsFrom .start (b :: rest) = some (Char.ofNat b.toNat) :: partsFrom .start rest := by
  simp [partsFrom, step, lead, h]

end Utf8

end AttributeWire
