/-
**How strictly a list is matched.**

Three flags say what happens when a list and a wish list do not agree.  Callers hand them over as
bits of a byte; a byte with any other bit set is no set of flags.

Main definitions:

* `Flags` — the three flags;
* `FlagBits`, `FlagBits.toFlags?` — a byte of flags, and the flags it stands for;
* `FlagBits.text` — the byte as it is shown, unknown bits in hexadecimal.
-/

set_option relaxedAutoImplicit false
set_option autoImplicit false

namespace AttributeWire

/-- How strictly a list is matched. -/
structure Flags where
  /-- Warn when the list ends before every wish is satisfied. -/
  missing : Bool
  /-- Warn and stop at the first attribute that was not asked for, or is captured twice. -/
  extra : Bool
  /-- Leave the rest of the list to the next scan. -/
  more : Bool
deriving DecidableEq, Repr

/-- A byte that may be a set of flags. -/
structure FlagBits where
  /-- The byte. -/
  bits : UInt8
deriving DecidableEq, Repr

namespace FlagBits

/-- No flag. -/
def none : FlagBits := ⟨0⟩

/-- The bit of `Flags.missing`. -/
def missing : FlagBits := ⟨1⟩

/-- The bit of `Flags.extra`. -/
def extra : FlagBits := ⟨2⟩

/-- The bit of `Flags.more`. -/
def more : FlagBits := ⟨4⟩

/-- Both warnings. -/
def strict : FlagBits := ⟨3⟩

/-- Every bit of `other` is set in `flags`. -/
def Contains (flags other : FlagBits) : Prop := flags.bits &&& other.bits = other.bits

instance (flags other : FlagBits) : Decidable (flags.Contains other) :=
  inferInstanceAs (Decidable (flags.bits &&& other.bits = other.bits))

/-- The byte without the bits that are no flags. -/
def truncate (flags : FlagBits) : FlagBits := ⟨flags.bits &&& 7⟩

/-- The bits that are no flags. -/
def unknown (flags : FlagBits) : UInt8 := flags.bits &&& 0xF8

/-- Every bit that is set is a flag. -/
def Known (flags : FlagBits) : Prop := flags.unknown = 0

instance (flags : FlagBits) : Decidable flags.Known :=
  inferInstanceAs (Decidable (flags.unknown = 0))

/-- The flags a byte stands for, if all its bits are flags. -/
def toFlags? (flags : FlagBits) : Option Flags :=
  if flags.Known then
    some ⟨decide (flags.Contains missing), decide (flags.Contains extra),
      decide (flags.Contains more)⟩
  else .none

/-- A byte in hexadecimal, without leading zeros. -/
def hexText (b : UInt8) : String := "0x" ++ String.ofList (Nat.toDigits 16 b.toNat)

/-- The names of the flags that are set, and the unknown bits, separated by bars; an empty set is
shown as the number zero. -/
def text (flags : FlagBits) : String :=
  let names := [(missing, "MISSING"), (extra, "EXTRA"), (more, "MORE")].filterMap fun named =>
    if flags.Contains named.1 then some named.2 else .none
  let parts := if flags.Known then names else names ++ [hexText flags.unknown]
  "ScanFlags(" ++ (if parts = [] then "0x0" else " | ".intercalate parts) ++ ")"

end FlagBits

/-- The byte of a set of flags. -/
def Flags.toBits (flags : Flags) : FlagBits :=
  ⟨(if flags.missing then 1 else 0) ||| (if flags.extra then 2 else 0) |||
    (if flags.more then 4 else 0)⟩

@[simp] theorem Flags.toFlags?_toBits (flags : Flags) : flags.toBits.toFlags? = some flags := by
  obtain ⟨missing, extra, more⟩ := flags
  cases missing <;> cases extra <;> cases more <;> decide

end AttributeWire
