/-
**The arguments of the command.**

The command has two tasks.  `scan` decodes attribute lists, with options that each take a value,
after a space or an equals sign, and may be given once; `encode` takes any number of arguments in
the form `NAME=VALUE`.  A lone `--` ends the options.  The one option in front of the task asks for
a verbose log.  Arguments are read in order, and the first that is wrong, or asks for help, decides.

Main definitions:

* `ScanTask`, `Task`, `Invocation` — what is to be done;
* `Task.configPath?`, `Task.readsInput` — what a task needs of its surroundings;
* `Parsed` — an invocation, a request for help, or a misuse;
* `Invocation.parse` — reads the arguments.
-/

import AttributeWire.Decimal
import AttributeWire.Flags
import AttributeWire.Text.Lines

set_option relaxedAutoImplicit false
set_option autoImplicit false

namespace AttributeWire

/-- How attribute lists are to be decoded, as far as that was said. -/
structure ScanTask where
  /-- The socket to read from, instead of the standard input. -/
  socket : Option String
  /-- How strictly lists are matched. -/
  flags : Option Flags
  /-- The file with the configuration. -/
  config : Option String
  /-- A line limit that takes the place of the configured one. -/
  lineLimit : Option UInt64
  /-- How many lists to read at most. -/
  lists : Option UInt64
deriving DecidableEq, Repr

/-- What the command is to do. -/
inductive Task where
  /-- Decode attribute lists. -/
  | scan (task : ScanTask)
  /-- Write one attribute list. -/
  | encode (attributes : List String)
deriving DecidableEq, Repr

namespace Task

/-- The file that a task is configured by. -/
def configPath? : Task → Option String
  | scan task => task.config
  | encode _ => none

/-- The task reads the standard input. -/
def readsInput : Task → Bool
  | scan task => task.socket.isNone
  | encode _ => false

end Task

/-- A task, and how much of it to log. -/
structure Invocation where
  /-- Everything is to be logged. -/
  verbose : Bool
  /-- The task. -/
  task : Task
deriving DecidableEq, Repr

/-- What the arguments ask for. -/
inductive Parsed where
  /-- A task. -/
  | run (invocation : Invocation)
  /-- An explanation. -/
  | help
  /-- Nothing that makes sense. -/
  | misuse
deriving DecidableEq, Repr

namespace ScanTask

/-- Nothing was said. -/
def standard : ScanTask := ⟨none, none, none, none, none⟩

/-- The flags of a word. -/
def flagsOf? (word : List Char) : Option Flags :=
  if word = "none".toList then some ⟨false, false, false⟩
  else if word = "missing".toList then some ⟨true, false, false⟩
  else if word = "extra".toList then some ⟨false, true, false⟩
  else if word = "strict".toList then some ⟨true, true, false⟩
  else none

/-- A number of 64 bits, which may have a plus sign. -/
def numberOf? (word : List Char) : Option UInt64 :=
  match word with
  | '+' :: digits => Decimal.uint64? (Bytes.ofText (String.ofList digits))
  | digits => Decimal.uint64? (Bytes.ofText (String.ofList digits))

/-- The name of a file or socket, which is not empty. -/
def pathOf? (word : List Char) : Option String :=
  if word = [] then none else some (String.ofList word)

/-- Sets what was not set before. -/
def setOnce {α : Type} (old new : Option α) : Option (Option α) :=
  match old, new with
  | none, some value => some (some value)
  | _, _ => none

/-- Takes on an option with its value. -/
def setOption (task : ScanTask) (name value : List Char) : Option ScanTask :=
  if name = "--socket".toList then
    (setOnce task.socket (pathOf? value)).map fun v => { task with socket := v }
  else if name = "--flags".toList then
    (setOnce task.flags (flagsOf? value)).map fun v => { task with flags := v }
  else if name = "--config".toList then
    (setOnce task.config (pathOf? value)).map fun v => { task with config := v }
  else if name = "--line-limit".toList then
    (setOnce task.lineLimit (numberOf? value)).map fun v => { task with lineLimit := v }
  else if name = "--lists".toList then
    (setOnce task.lists (numberOf? value)).map fun v => { task with lists := v }
  else none

end ScanTask

namespace Invocation

/-! ### The shapes of arguments -/

/-- The argument begins with a dash and is more than that. -/
def isOption : List Char → Bool
  | '-' :: _ :: _ => true
  | _ => false

/-- The argument asks for help. -/
def asksHelp (arg : List Char) : Bool :=
  arg = "--help".toList || "-h".toList.isPrefixOf arg

/-! ### The tasks -/

/-- Reads the options of `scan`. -/
def parseScan (verbose : Bool) (task : ScanTask) : List (List Char) → Parsed
  | [] => .run ⟨verbose, .scan task⟩
  | arg :: rest =>
      if asksHelp arg then .help
      else if arg = "--".toList then
        if rest = [] then .run ⟨verbose, .scan task⟩ else .misuse
      else if !isOption arg then .misuse
      else
        match Lines.splitOnce? '=' arg with
        | some (name, value) =>
            match task.setOption name value with
            | some task => parseScan verbose task rest
            | none => .misuse
        | none =>
            match rest with
            | value :: rest =>
                -- a value with a dash in front has to follow an equals sign
                if isOption value then .misuse
                else
                  match task.setOption arg value with
                  | some task => parseScan verbose task rest
                  | none => .misuse
            | [] => .misuse

/-- Reads the arguments of `encode` after some of them. -/
def parseEncode (verbose : Bool) (attributes : List String) : List (List Char) → Parsed
  | [] => .run ⟨verbose, .encode attributes⟩
  | arg :: rest =>
      if asksHelp arg then .help
      else if arg = "--".toList then
        .run ⟨verbose, .encode (attributes ++ rest.map String.ofList)⟩
      else if isOption arg then .misuse
      else parseEncode verbose (attributes ++ [String.ofList arg]) rest

/-- Reads what help is asked about. -/
def parseHelp : List (List Char) → Parsed
  | [] => .help
  | [topic] =>
      if topic = "scan".toList ∨ topic = "encode".toList ∨ topic = "help".toList then .help
      else .misuse
  | _ => .misuse

/-! ### The command -/

/-- Reads the letters of one argument in front of the task.  The result says whether the log is
verbose, if the letters do not end the matter. -/
def parseLetters (verbose : Bool) : List Char → Except Parsed Bool
  | [] => .ok verbose
  | 'h' :: _ => .error .help
  | 'v' :: rest => if verbose then .error .misuse else parseLetters true rest
  | _ => .error .misuse

/-- Reads the arguments in front of the task, and the task. -/
def parseFrom (verbose : Bool) : List (List Char) → Parsed
  | [] => .misuse
  | arg :: rest =>
      if arg = "--help".toList then .help
      else if arg = "--verbose".toList then
        if verbose then .misuse else parseFrom true rest
      else if arg = "scan".toList then parseScan verbose .standard rest
      else if arg = "encode".toList then parseEncode verbose [] rest
      else if arg = "help".toList then parseHelp rest
      else
        match arg with
        | '-' :: '-' :: _ => .misuse
        | '-' :: letter :: letters =>
            match parseLetters verbose (letter :: letters) with
            | .ok verbose => parseFrom verbose rest
            | .error parsed => parsed
        | _ => .misuse

/-- Reads the arguments of the command. -/
def parse (args : List String) : Parsed := parseFrom false (args.map String.toList)

end Invocation

end AttributeWire
