/-
**What a scan reports.**

A scan keeps a log of what it looks for and what it reads, warns about attributes that do not fit
the wish list, and may fail.  Errors and log entries are values; their texts name the peer, which is
the same for a whole scan and so is a parameter of the text and not a part of the value.

Main definitions:

* `FieldPart` — the two halves of an attribute;
* `ScanError`, `ScanError.message`, `ScanError.causes` — why a scan failed;
* `LogEntry`, `LogEntry.message`, `LogEntry.level` — one entry of the log.
-/

import AttributeWire.Config
import AttributeWire.Field
import AttributeWire.Wish

set_option relaxedAutoImplicit false
set_option autoImplicit false

namespace AttributeWire

/-! ### Errors -/

/-- The half of an attribute that is being read. -/
inductive FieldPart where
  | name
  | value
deriving DecidableEq, Repr

/-- The words for a half of an attribute. -/
def FieldPart.text : FieldPart → String
  | .name => "input attribute name"
  | .value => "input attribute value"

/-- Why a scan failed. -/
inductive ScanError where
  /-- The input ended inside a field. -/
  | prematureEof (part : FieldPart)
  /-- The written form of a field is longer than the limit. -/
  | fieldTooLong (part : FieldPart) (limit : Nat)
  /-- The written form of a field is not base64. -/
  | malformedBase64 (echo : Bytes)
  /-- A value is not a number of the width wanted. -/
  | malformedNumber (echo : Bytes)
  /-- An attribute that was wanted has no value. -/
  | missingValue (kind : String) (name : Bytes)
  /-- An attribute that was wanted has more than one value. -/
  | multipleValues (name : Bytes)
  /-- A read waited longer than it may. -/
  | timedOut (timeout : Duration)
  /-- The stream failed. -/
  | io (fault : Fault)
deriving DecidableEq, Repr

namespace ScanError

/-- The text of an error, given the name of the peer. -/
def message (peer : String) : ScanError → String
  | prematureEof part => s!"premature end-of-input from {peer} while reading {part.text}"
  | fieldTooLong part limit =>
      s!"string length > {limit} characters from {peer} while reading {part.text}"
  | malformedBase64 echo => s!"malformed base64 data from {peer}: {Utf8.lossy echo}"
  | malformedNumber echo =>
      s!"malformed numerical data from {peer} while reading {FieldPart.value.text}: "
        ++ Utf8.lossy echo
  | missingValue kind name => s!"missing value for {kind} attribute {Utf8.lossy name} from {peer}"
  | multipleValues name => s!"multiple values for attribute {Utf8.lossy name} from {peer}"
  | timedOut timeout => s!"timed out after {timeout.text} reading from {peer}"
  | io fault => s!"error reading from {peer}: {fault.message}"

/-- The texts of what caused an error, the nearest cause first. -/
def causes : ScanError → List String
  | io fault => [fault.message]
  | _ => []

/-- The stream itself failed, as opposed to the peer sending something malformed. -/
def isTransport : ScanError → Bool
  | timedOut _ => true
  | io _ => true
  | _ => false

/-- A fault of the stream: one of waiting is a timeout if a timeout is configured. -/
def ofFault (config : Config) (fault : Fault) : ScanError :=
  match config.readTimeout with
  | some timeout => if fault.IsTimeout then timedOut timeout else io fault
  | none => io fault

/-- The error of a field, in the half of the attribute that was being read. -/
def ofField (config : Config) (part : FieldPart) : FieldError → ScanError
  | .prematureEof => prematureEof part
  | .tooLong limit => fieldTooLong part limit
  | .malformedBase64 echo => malformedBase64 echo
  | .transport fault => ofFault config fault

end ScanError

/-! ### Log entries -/

/-- How serious a log entry is. -/
inductive Level where
  | trace
  | debug
  | info
  | warn
  | error
deriving DecidableEq, Repr

/-- The name of a level in a log. -/
def Level.text : Level → String
  | trace => "TRACE"
  | debug => "DEBUG"
  | info => "INFO"
  | warn => "WARN"
  | error => "ERROR"

/-- The place of a level among all levels, the most serious first. -/
def Level.rank : Level → Nat
  | error => 1
  | warn => 2
  | info => 3
  | debug => 4
  | trace => 5

/-- One entry of the log of a scan. -/
inductive LogEntry where
  /-- The next name is read in search of this. -/
  | wanted (target : Wanted)
  /-- A name was read. -/
  | nameRead (plain : Bytes)
  /-- A value was read. -/
  | valueRead (plain : Bytes)
  /-- The list ended before the attribute of this name. -/
  | missing (name : Bytes)
  /-- An attribute of this name was not asked for. -/
  | spurious (name : Bytes)
  /-- An attribute of this name is already captured. -/
  | duplicate (name : Bytes)
deriving DecidableEq, Repr

namespace LogEntry

/-- The level of an entry. -/
def level : LogEntry → Level
  | wanted _ => .trace
  | nameRead _ => .trace
  | valueRead _ => .trace
  | missing _ => .warn
  | spurious _ => .warn
  | duplicate _ => .warn

/-- The text of an entry, given the name of the peer.  An empty name is shown as the end of the
list, which it nearly always is. -/
def message (peer : String) : LogEntry → String
  | wanted target => s!"{peer}: wanted attribute: {Utf8.lossy target.describe}"
  | nameRead plain =>
      s!"{peer}: {FieldPart.name.text}: " ++ (if plain = [] then "(end)" else Utf8.lossy plain)
  | valueRead plain => s!"{peer}: {FieldPart.value.text}: {Utf8.lossy plain}"
  | missing name => s!"missing attribute {Utf8.lossy name} in input from {peer}"
  | spurious name => s!"spurious attribute {Utf8.lossy name} in input from {peer}"
  | duplicate name => s!"duplicate attribute {Utf8.lossy name} in input from {peer}"

end LogEntry

end AttributeWire
