/-
**Configurations in TOML.**

The keys `line_limit` and `read_timeout` of a document are the settings, and other keys mean
nothing.  Keys are looked at in their order as texts, and the first fault is reported; a number too
large for anything is a fault wherever it stands.  A timeout is a number of seconds, whole or not,
or a duration in words.

Main definitions:

* `Config.Misfit` — an error with the place of the value it is about;
* `Config.limitOfToml`, `Config.timeoutOfToml` — the settings of a value;
* `Config.ofToml` — the configuration of a text;
* `Config.ofFile` — the configuration of a file.
-/

import AttributeWire.Config.Error
import AttributeWire.Fault
import AttributeWire.Text.Quoted
import AttributeWire.Text.Utf8
import AttributeWire.Toml.Reader
import AttributeWire.Binary64.Shortest

set_option relaxedAutoImplicit false
set_option autoImplicit false

namespace AttributeWire

namespace Config

open Toml (Key Node Scalar)

/-! ### Order of keys -/

/-- Puts an entry in its place among entries that are in order. -/
def placeEntry (entry : Key × Node) : List (Key × Node) → List (Key × Node)
  | [] => [entry]
  | first :: rest =>
      if entry.1 < first.1 then entry :: first :: rest else first :: placeEntry entry rest

/-- Entries in the order of their keys. -/
def inOrder (entries : List (Key × Node)) : List (Key × Node) := entries.foldr placeEntry []

/-! ### Faults and their places -/

/-- An error with the place of the value it is about. -/
structure Misfit where
  /-- What is wrong. -/
  error : SettingError
  /-- Where it is wrong. -/
  span : Span
deriving DecidableEq, Repr

/-! ### Numbers too large for anything -/

/-- Two to the power of a number of bits. -/
def reach (bits : Nat) : Int := (Nat.pow 2 bits : Nat)

/-- The text of an integer of more than 64 bits. -/
def wideText (n : Int) : String :=
  s!"integer `{n}` as " ++ (if n < reach 127 then "i128" else "u128")

/-- An integer beyond 64 bits, and whether it is beyond 128 bits too. -/
def integerFault? (wideAllowed : Bool) (n : Int) : Option SettingError :=
  if n < -reach 127 ∨ reach 128 ≤ n then some .hugeInteger
  else if !wideAllowed ∧ (n < -reach 63 ∨ reach 64 ≤ n) then
    some (.wrongKind (wideText n) "any value")
  else none

/-- The fault of a scalar that is looked at only for being a value. -/
def scalarFault? (wideAllowed : Bool) : Scalar → Option SettingError
  | .integer n => integerFault? wideAllowed n
  | .noInteger => some .hugeInteger
  | .hugeFloat => some .hugeFloat
  | _ => none

/-- The fault under the least of the keys. -/
def firstFault : List (Key × Misfit) → Option (Key × Misfit)
  | [] => none
  | fault :: rest =>
      match firstFault rest with
      | none => some fault
      | some other => some (if other.1 < fault.1 then other else fault)

mutual

/-- The first fault in a value that is looked at only for being one. -/
def nodeFault? (wideAllowed : Bool) : Node → Option Misfit
  | .scalar span value => (scalarFault? wideAllowed value).map fun error => ⟨error, span⟩
  | .array _ items => itemsFault? wideAllowed items
  | .table _ _ entries => (firstFault (entryFaults wideAllowed entries)).map Prod.snd
  | .tables _ items => tablesFault? wideAllowed items

/-- The first fault in the items of an array. -/
def itemsFault? (wideAllowed : Bool) : List Node → Option Misfit
  | [] => none
  | item :: items =>
      match nodeFault? wideAllowed item with
      | some fault => some fault
      | none => itemsFault? wideAllowed items

/-- The faults in the entries of a table. -/
def entryFaults (wideAllowed : Bool) : List (Key × Node) → List (Key × Misfit)
  | [] => []
  | (key, node) :: entries =>
      match nodeFault? wideAllowed node with
      | some fault => (key, fault) :: entryFaults wideAllowed entries
      | none => entryFaults wideAllowed entries

/-- The first fault in an array of tables. -/
def tablesFault? (wideAllowed : Bool) : List (List (Key × Node)) → Option Misfit
  | [] => none
  | item :: items =>
      match firstFault (entryFaults wideAllowed item) with
      | some fault => some fault.2
      | none => tablesFault? wideAllowed items

end

/-! ### The settings -/

/-- The line limit that an integer gives. -/
def limitOfInteger (n : Int) : Except SettingError UInt64 :=
  if n < -reach 127 ∨ reach 128 ≤ n then .error .hugeInteger
  else if n < -reach 63 ∨ reach 64 ≤ n then .error (.wrongKind (wideText n) "usize")
  else if n < 0 then .error (.outOfBounds s!"integer `{n}`" "usize")
  else .ok (UInt64.ofNat n.toNat)

/-- The line limit that a value gives. -/
def limitOfToml : Node → Except SettingError UInt64
  | .scalar _ (.integer n) => limitOfInteger n
  | .scalar _ .noInteger => .error .hugeInteger
  | .scalar _ (.float value) => .error (.wrongKind s!"floating point `{value.text}`" "usize")
  | .scalar _ .hugeFloat => .error .hugeFloat
  | .scalar _ (.string chars) => .error (.wrongKind ("string " ++ Quoted.string chars) "usize")
  | .scalar _ (.boolean value) => .error (.wrongKind s!"boolean `{value}`" "usize")
  | .array _ _ => .error (.wrongKind "sequence" "usize")
  | .tables _ _ => .error (.wrongKind "sequence" "usize")
  | .scalar _ .dateTime => .error (.wrongKind "map" "usize")
  | .table _ _ _ => .error (.wrongKind "map" "usize")

/-- The duration of a floating-point number of seconds. -/
def timeoutOfFloat (value : Binary64) : Except SettingError Duration :=
  match Duration.ofFloatSeconds value with
  | .ok d => .ok d
  | .error e => .error (.badSeconds e)

/-- The duration of a text. -/
def timeoutOfWords (chars : List Char) : Except SettingError Duration :=
  match Duration.ofWords chars with
  | .ok d => .ok d
  | .error e => .error (.badWords e)

/-- The timeout that a value gives. -/
def timeoutOfToml : Node → Except SettingError Duration
  | .scalar _ (.integer n) =>
      if n < 0 then timeoutOfFloat (.ofRatio true n.natAbs 1)
      else .ok (.ofSeconds (UInt64.ofNat n.toNat))
  | .scalar _ (.float value) => timeoutOfFloat value
  | .scalar _ (.string chars) => timeoutOfWords chars
  | _ => .error .noTimeout

/-! ### Documents and files -/

/-- A setting, or its error with the place of a value. -/
def located {α : Type} (node : Node) (setting : Except SettingError α) : Except Misfit α :=
  match setting with
  | .ok value => .ok value
  | .error error => .error ⟨error, node.span⟩

/-- Takes on the setting of an entry, if it is one. -/
def takeEntry (config : Config) (entry : Key × Node) : Except Misfit Config :=
  if entry.1 = "line_limit".toList then
    (located entry.2 (limitOfToml entry.2)).map fun limit => { config with lineLimit := limit }
  else if entry.1 = "read_timeout".toList then
    match nodeFault? false entry.2 with
    | some fault => .error fault
    | none =>
        (located entry.2 (timeoutOfToml entry.2)).map fun timeout =>
          { config with readTimeout := some timeout }
  else
    match nodeFault? true entry.2 with
    | some fault => .error fault
    | none => .ok config

/-- Takes on the settings of entries one after the other. -/
def takeEntries (config : Config) : List (Key × Node) → Except Misfit Config
  | [] => .ok config
  | entry :: entries =>
      match config.takeEntry entry with
      | .ok config => config.takeEntries entries
      | .error e => .error e

/-- The configuration of a TOML text. -/
def ofToml (text : List Char) : Except ConfigError Config :=
  match Toml.parse? text with
  | none => .error (.setting .malformed none)
  | some table =>
      match takeEntries .standard (inOrder table.entries) with
      | .error fault => .error (.setting fault.error (some (.ofSpan text fault.span)))
      | .ok config => if config.Valid then .ok config else .error .zeroLimit

/-- The configuration of a file, given what reading the file gave. -/
def ofFile (path : String) (contents : Except Fault Bytes) : Except ConfigError Config :=
  match contents with
  | .error fault => .error (.unreadable path fault.message)
  | .ok bytes =>
      match Utf8.decode? bytes with
      | none => .error (.unreadable path "stream did not contain valid UTF-8")
      | some text => ofToml text

/-- A configuration in a file is valid. -/
theorem valid_of_ofToml {text : List Char} {config : Config} (h : ofToml text = .ok config) :
    config.Valid := by
  unfold ofToml at h
  split at h
  · simp at h
  · split at h
    · simp at h
    · split at h
      · simp_all
      · simp at h

end Config

end AttributeWire
