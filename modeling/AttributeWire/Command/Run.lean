/-
**Running the command.**

What the command does depends on its arguments and on its surroundings.  The result is an exit code
with what is written to the standard output and the text for the diagnostic output.

Decoding prints each list as it is read.  A list with all three expected attributes is printed with
their values and the captured attributes, any other with the number of attributes that were found.
Encoding writes each argument as it is checked, so an argument that is wrong leaves what stands
before it.

Main definitions:

* `Outcome` — the result;
* `Failure`, `Failure.text` — why the command failed, and how it says so;
* `Message`, `Message.text` — a log message, and how it is written;
* `Record.text` — how a decoded list is printed;
* `decodeLists`, `encodeAttributes` — the two tasks;
* `Command.run` — the command.
-/

import AttributeWire.Channel
import AttributeWire.Command.Arguments
import AttributeWire.Command.LogFilter
import AttributeWire.Command.Paths
import AttributeWire.Config.Toml
import AttributeWire.Printer

set_option relaxedAutoImplicit false
set_option autoImplicit false

namespace AttributeWire

/-! ### Results -/

/-- The result of the command. -/
inductive Outcome where
  /-- The arguments make no sense. -/
  | misuse
  /-- An explanation was asked for. -/
  | help
  /-- The command ran. -/
  | finished (exit : UInt8) (stdout : Bytes) (stderr : String)
deriving DecidableEq, Repr

/-! ### Failures -/

/-- Why the command failed. -/
structure Failure where
  /-- What could not be done. -/
  summary : String
  /-- Why, the nearest reason first. -/
  causes : List String
deriving DecidableEq, Repr

namespace Failure

/-- A text with some characters in front of its first line and others in front of the rest. -/
def hang (first rest text : String) : String :=
  first ++ String.intercalate ("\n" ++ rest) (Lines.linesOf text)

/-- A number at the end of five columns. -/
def column (n : Nat) : String :=
  let digits := toString n
  String.ofList (List.replicate (5 - digits.length) ' ') ++ digits

/-- The causes with their numbers from `n` on. -/
def numbered (n : Nat) : List String → String
  | [] => ""
  | cause :: causes =>
      "\n" ++ hang (column n ++ ": ") "       " cause ++ numbered (n + 1) causes

/-- What is said about the causes.  Only several are numbered. -/
def causesText : List String → String
  | [] => ""
  | [cause] => "\n\nCaused by:\n" ++ hang "    " "    " cause
  | causes => "\n\nCaused by:" ++ numbered 0 causes

/-- What is said about a failure. -/
def text (failure : Failure) : String :=
  "Error: " ++ failure.summary ++ causesText failure.causes ++ "\n"

/-- A configuration that could not be had. -/
def ofConfigError (e : ConfigError) : Failure :=
  match e with
  | .unreadable _ reason => ⟨e.message, [reason]⟩
  | .setting error place => ⟨e.message, [error.report place]⟩
  | .zeroLimit => ⟨e.message, []⟩

end Failure

/-! ### The log -/

/-- A log message. -/
structure Message where
  /-- How serious it is. -/
  level : Level
  /-- What part of the program it comes from. -/
  target : String
  /-- What it says. -/
  content : String
deriving DecidableEq, Repr

namespace Message

/-- A character as it stands in the log: those that could control a terminal are written by their
numbers. -/
def escape (c : Char) : List Char :=
  if c = '\x1b' then "\\x1b".toList
  else if c = '\x07' then "\\x07".toList
  else if c = '\x08' then "\\x08".toList
  else if c = '\x0c' then "\\x0c".toList
  else if c = '\x7f' then "\\x7f".toList
  else if 0x80 ≤ c.toNat ∧ c.toNat ≤ 0x9f then
    ['\\', 'u', '\x7b'] ++ Nat.toDigits 16 c.toNat ++ ['\x7d']
  else [c]

/-- A message as it stands in the log. -/
def text (m : Message) : String :=
  m.level.text ++ " " ++ m.target ++ ": " ++ String.ofList (m.content.toList.flatMap escape) ++ "\n"

/-- The message of an entry in the log of a scan. -/
def ofEntry (peer : String) (entry : LogEntry) : Message :=
  ⟨entry.level, "attr_proto::scanner", entry.message peer⟩

/-- The message at the end of decoding. -/
def decoded (peer : String) (count : Nat) : Message :=
  ⟨.debug, "attr_dump", s!"decoded {count} attribute lists from {peer}"⟩

end Message

/-- The messages that a filter lets through. -/
def LogFilter.text (filter : LogFilter) (messages : List Message) : String :=
  String.join ((messages.filter fun m => filter.Enabled m.level m.target).map Message.text)

/-! ### Decoding -/

/-- The wish list of a decoded list: three attributes, and a capture of the others. -/
def expectedList : WishList :=
  ⟨[⟨Bytes.ofText "number", .uint 0⟩, ⟨Bytes.ofText "long_number", .ulong 0⟩,
    ⟨Bytes.ofText "string", .str []⟩], some .empty⟩

/-- How a decoded list is printed. -/
structure Record where
  /-- How many attributes were found. -/
  count : Nat
  /-- The expected attributes. -/
  expected : List Wish
  /-- The other attributes. -/
  others : Table

namespace Record

/-- The line of an expected attribute; values are shown as text. -/
def wishLine (wish : Wish) : String :=
  Utf8.lossy wish.name ++ " " ++ Utf8.lossy wish.value.text ++ "\n"

/-- The line of another attribute. -/
def otherLine (entry : Bytes × Bytes) : String :=
  "(hash) " ++ Utf8.lossy entry.1 ++ " " ++ Utf8.lossy entry.2 ++ "\n"

/-- The lines of a list, or only the number of attributes if one of the expected is missing. -/
def text (r : Record) : String :=
  if r.count < r.expected.length then s!"return: {r.count}\n"
  else String.join (r.expected.map wishLine ++ r.others.entries.map otherLine)

/-- The record of a list that was scanned. -/
def ofScan (count : Nat) (list : WishList) : Record :=
  ⟨count, list.wishes, list.capture.getD .empty⟩

end Record

/-- What a task has done. -/
structure Transcript where
  /-- What was written to the standard output. -/
  stdout : Bytes
  /-- What was logged. -/
  log : List Message
  /-- Why the task failed, if it did. -/
  failure : Option Failure

/-- The same after something else was written and logged. -/
def Transcript.after (stdout : Bytes) (log : List Message) (t : Transcript) : Transcript :=
  ⟨stdout ++ t.stdout, log ++ t.log, t.failure⟩

/-- A number of lists was read and no more are to be. -/
def isEnough (limit : Option UInt64) (count : Nat) : Bool :=
  match limit with
  | some limit => limit.toNat ≤ count
  | none => false

/-- Decodes lists up to the end of the input, or up to a number of lists; `count` have been decoded
before. -/
def decodeLists (flags : Flags) (limit : Option UInt64) (count : Nat) (channel : Channel) :
    Transcript :=
  if isEnough limit count then ⟨[], [.decoded channel.peer count], none⟩
  else
    match _hend : channel.atEnd with
    | (.error e, _) => ⟨[], [], some ⟨e.message channel.peer, e.causes⟩⟩
    | (.ok true, _) => ⟨[], [.decoded channel.peer count], none⟩
    | (.ok false, channel₁) =>
        match _hscan : channel₁.scan flags expectedList with
        | ⟨.error e, _, log, _⟩ =>
            ⟨[], log.map (Message.ofEntry channel.peer),
              some ⟨s!"reading attribute list {count + 1}", e.message channel.peer :: e.causes⟩⟩
        | ⟨.ok found, list, log, s⟩ =>
            (decodeLists flags limit (count + 1) { channel₁ with stream := s }).after
              (Bytes.ofText (Record.ofScan found list).text)
              (log.map (Message.ofEntry channel.peer))
termination_by channel.stream.unread.length
decreasing_by
  have hu := channel.unread_atEnd
  rw [_hend] at hu
  rw [Channel.scan] at _hscan
  have hfound : (scan channel₁.config flags expectedList channel₁.stream).outcome = .ok found := by
    rw [_hscan]
  have hlt := length_unread_scan (by simp [expectedList]) hfound
  rw [_hscan] at hlt
  rw [← hu]
  exact hlt

/-- The configuration of a task. -/
def ScanTask.configuration (task : ScanTask) (env : Environment) : Except Failure Config :=
  let loaded := match task.config with
    | some path => Config.ofFile path (env.read path)
    | none => .ok .standard
  match loaded with
  | .error e => .error (.ofConfigError e)
  | .ok config =>
      let config := match task.lineLimit with
        | some limit => { config with lineLimit := limit }
        | none => config
      -- a limit of zero in the file was refused before the override could mend it
      if config.Valid then .ok config else .error (.ofConfigError .zeroLimit)

/-- The channel of a task. -/
def ScanTask.channel (task : ScanTask) (env : Environment) (config : Config) :
    Except Failure Channel :=
  match task.socket with
  | none => .ok ⟨"stdin", config, env.stdin⟩
  | some path =>
      match env.connect path config with
      | .ok channel => .ok channel
      | .error fault => .error ⟨"connecting to " ++ path, [fault.message]⟩

/-- Decodes lists as a task says.  Unless it says otherwise, matching is strict. -/
def ScanTask.run (task : ScanTask) (env : Environment) : Transcript :=
  match task.configuration env with
  | .error failure => ⟨[], [], some failure⟩
  | .ok config =>
      match task.channel env config with
      | .error failure => ⟨[], [], some failure⟩
      | .ok channel => decodeLists (task.flags.getD ⟨true, true, false⟩) task.lists 0 channel

/-! ### Encoding -/

/-- Writes attributes in the form `NAME=VALUE`, up to the first that has another form, and the end
of the list if there is none. -/
def encodeAttributes : List String → Transcript
  | [] => ⟨terminatorLine, [], none⟩
  | text :: texts =>
      match Lines.splitOnce? '=' text.toList with
      | none => ⟨[], [], some ⟨text ++ ": expected NAME=VALUE", []⟩⟩
      | some ([], _) => ⟨[], [], some ⟨text ++ ": attribute name must not be empty", []⟩⟩
      | some (name, value) =>
          (encodeAttributes texts).after
            (attributeLine (Bytes.ofText (String.ofList name))
              (Bytes.ofText (String.ofList value))) []

/-! ### The command -/

namespace Command

/-- The filter for the log: the setting if there is one, else by how verbose the log is to be. -/
def filterText (verbose : Bool) (setting : Option String) : String :=
  match setting with
  | some text => text
  | none =>
      if verbose then "attr_proto=trace,attr_dump=trace" else "attr_proto=warn,attr_dump=warn"

/-- Does a task. -/
def perform (env : Environment) : Task → Transcript
  | .scan task => task.run env
  | .encode attributes => encodeAttributes attributes

/-- The result of a task, with the messages that a filter lets through. -/
def Transcript.outcome (filter : LogFilter) (t : Transcript) : Outcome :=
  .finished (if t.failure.isSome then 1 else 0) t.stdout
    (filter.text t.log ++ (t.failure.map Failure.text).getD "")

/-- The command with its arguments. -/
def run (args : List String) (env : Environment) : Outcome :=
  match Invocation.parse args with
  | .misuse => .misuse
  | .help => .help
  | .run invocation =>
      match LogFilter.parse (filterText invocation.verbose env.logSetting).toList with
      | .error e => .finished 1 [] (Failure.text ⟨"parsing log filter", e.causes⟩)
      | .ok filter => Transcript.outcome filter (perform env invocation.task)

end Command

end AttributeWire
