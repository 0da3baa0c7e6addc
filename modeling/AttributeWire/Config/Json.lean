/-
**Configurations in JSON.**

A configuration is written as an object with the line limit, and with the timeout in words if there
is one.  It is read from an object, whose other members mean nothing, or from an array that holds
the settings in that order; settings left out have their defaults.  The line limit has to be an
integer; the timeout is null for none, a number of seconds, or a duration in words.  What is read
may have a line limit of zero.

Main definitions:

* `Config.toJson` — the text of a configuration;
* `Config.ofJson?` — the configuration of a text.
-/

import AttributeWire.Config
import AttributeWire.Duration.Seconds
import AttributeWire.Duration.Units
import AttributeWire.Json.Value

set_option relaxedAutoImplicit false
set_option autoImplicit false

namespace AttributeWire

namespace Config

/-! ### Writing -/

/-- The text of a configuration. -/
def toJson (config : Config) : String :=
  "\x7b\"line_limit\":" ++ toString config.lineLimit.toNat
    ++ (match config.readTimeout with
        | none => ""
        | some timeout => ",\"read_timeout\":\"" ++ timeout.words ++ "\"")
    ++ "\x7d"

/-! ### Reading -/

/-- The line limit that a value gives. -/
def limitOfJson? : Json.Value → Option UInt64
  | .number numeral =>
      match numeral.value? with
      | some (.natural n) => some n
      | _ => none
  | _ => none

/-- The timeout that a value gives, or its absence. -/
def timeoutOfJson? : Json.Value → Option (Option Duration)
  | .null => some none
  | .number numeral =>
      match numeral.value? with
      | some (.natural n) => some (some (.ofSeconds n))
      | some (.negative n) => (Duration.ofFloatSeconds (.ofRatio true n 1)).toOption.map some
      | some (.real value) => (Duration.ofFloatSeconds value).toOption.map some
      | none => none
  | .string pieces =>
      match Json.decodePieces pieces with
      | some chars => (Duration.ofWords chars).toOption.map some
      | none => none
  | _ => none

/-- Settings read so far. -/
structure Given where
  /-- The line limit, once it was given. -/
  limit : Option UInt64
  /-- The timeout or its absence, once it was given. -/
  timeout : Option (Option Duration)

namespace Given

/-- No settings yet. -/
def none : Given := ⟨.none, .none⟩

/-- The configuration with defaults for what was not given. -/
def toConfig (p : Given) : Config :=
  ⟨p.limit.getD Config.standard.lineLimit, p.timeout.getD Config.standard.readTimeout⟩

/-- Takes on the setting of a member, if it is one that was not given before. -/
def takeMember (p : Given) (name : List Char) (value : Json.Value) : Option Given :=
  -- a setting is given once, whatever its value
  if name = "line_limit".toList then
    if p.limit.isSome then .none
    else (limitOfJson? value).map fun limit => { p with limit := some limit }
  else if name = "read_timeout".toList then
    if p.timeout.isSome then .none
    else (timeoutOfJson? value).map fun timeout => { p with timeout := some timeout }
  else some p

/-- Takes on the settings of members one after the other. -/
def takeMembers (p : Given) : List (List Json.Piece × Json.Value) → Option Given
  | [] => some p
  | (name, value) :: members =>
      match Json.decodePieces name with
      | .none => .none
      | some name =>
          match p.takeMember name value with
          | some p => p.takeMembers members
          | .none => .none

end Given

/-- The configuration of a document. -/
def ofDocument? : Json.Value → Option Config
  | .object members => (Given.none.takeMembers members).map Given.toConfig
  | .array [] => some .standard
  | .array [limit] =>
      (limitOfJson? limit).map fun limit => ⟨limit, Config.standard.readTimeout⟩
  | .array [limit, timeout] =>
      match limitOfJson? limit, timeoutOfJson? timeout with
      | some limit, some timeout => some ⟨limit, timeout⟩
      | _, _ => none
  | _ => none

/-- The configuration of a JSON text. -/
def ofJson? (text : List Char) : Option Config :=
  match Json.parse? text with
  | some value => ofDocument? value
  | none => none

end Config

end AttributeWire
