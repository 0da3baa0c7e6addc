/-
**The configuration of a reader.**

Two settings govern how a reader treats its input: how long a line may be, and how long a read may
wait.  The base64 form of one name or value may be twice as long as a line.

Main definitions:

* `Config`, `Config.standard` — the two settings, and the ones used by default;
* `Config.fieldLimit` — the longest written form of a name or value;
* `Config.Valid` — what a configuration must satisfy to be used.
-/

import AttributeWire.Duration

set_option relaxedAutoImplicit false
set_option autoImplicit false

namespace AttributeWire

/-- The settings of a reader. -/
structure Config where
  /-- How long a line may be. -/
  lineLimit : UInt64
  /-- How long a read from a socket may wait; without it, for ever. -/
  readTimeout : Option Duration
deriving DecidableEq, Repr

namespace Config

/-- The configuration that is used when none is given. -/
def standard : Config := ⟨2048, none⟩

/-- The longest written form of a name or value: twice the line limit, as far as 64 bits reach. -/
def fieldLimit (config : Config) : Nat := min (config.lineLimit.toNat * 2) (UInt64.size - 1)

/-- A configuration that may be used: lines may have some length. -/
def Valid (config : Config) : Prop := config.lineLimit ≠ 0

instance (config : Config) : Decidable config.Valid :=
  inferInstanceAs (Decidable (config.lineLimit ≠ 0))

/-- The text of the fault of a configuration that is not valid. -/
def zeroLimitMessage : String := "line_limit must be greater than zero"

@[simp] theorem fieldLimit_standard : standard.fieldLimit = 4096 := rfl

end Config

end AttributeWire
