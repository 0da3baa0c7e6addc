/-
**What may be wrong with a configuration.**

A configuration file may be unreadable, may not be TOML, or may give a setting a value of the wrong
kind.  Each of these is a case of its own, and the texts name the value that was found and what was
expected.  A fault that has a place in the file is reported with the line it is on.

Main definitions:

* `SettingError`, `SettingError.message` — why a document gives no configuration;
* `SettingError.report` — the same with its place in the document;
* `ConfigError`, `ConfigError.message` — why a file gives none.
-/

import AttributeWire.Config
import AttributeWire.Duration.Seconds
import AttributeWire.Duration.Units
import AttributeWire.Text.Excerpt

set_option relaxedAutoImplicit false
set_option autoImplicit false

namespace AttributeWire

/-- Why a document gives no configuration. -/
inductive SettingError where
  /-- The text is no TOML document. -/
  | malformed
  /-- An integer has more than 128 bits, or is no number. -/
  | hugeInteger
  /-- A number is beyond the largest floating-point number. -/
  | hugeFloat
  /-- A value of the wrong kind. -/
  | wrongKind (found expected : String)
  /-- A value of the right kind that is out of bounds. -/
  | outOfBounds (found expected : String)
  /-- A timeout that is neither a number nor a text. -/
  | noTimeout
  /-- A timeout that is a number but no duration. -/
  | badSeconds (error : SecondsError)
  /-- A timeout that is a text but no duration. -/
  | badWords (error : DurationError)
deriving DecidableEq, Repr

/-- The text of an error. -/
def SettingError.message : SettingError → String
  | malformed => "malformed document"
  | hugeInteger => "integer number overflowed"
  | hugeFloat => "floating-point number overflowed"
  | wrongKind found expected => s!"invalid type: {found}, expected {expected}"
  | outOfBounds found expected => s!"invalid value: {found}, expected {expected}"
  | noTimeout => "data did not match any variant of untagged enum DurationValue"
  | badSeconds error => error.message
  | badWords error => error.message

/-- The text of an error with its place in the document, if that is known.  The report of a place
ends its last line. -/
def SettingError.report (error : SettingError) (place : Option Excerpt) : String :=
  match place with
  | none => error.message
  | some excerpt =>
      let title := s!"TOML parse error at line {excerpt.row + 1}, column {excerpt.column + 1}"
      String.join ((title :: excerpt.lines ++ [error.message]).map fun line => line ++ "\n")

/-- Why a file gives no configuration. -/
inductive ConfigError where
  /-- The file cannot be read. -/
  | unreadable (path : String) (reason : String)
  /-- The document gives none. -/
  | setting (error : SettingError) (place : Option Excerpt)
  /-- Lines may have no length at all. -/
  | zeroLimit
deriving DecidableEq, Repr

/-- The text of an error. -/
def ConfigError.message : ConfigError → String
  | unreadable path reason => s!"reading {path}: {reason}"
  | setting error place => "invalid scan configuration: " ++ error.report place
  | zeroLimit => Config.zeroLimitMessage

end AttributeWire
