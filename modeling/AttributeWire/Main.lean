/-
**The command line.**

The command reads what its arguments point to, is run as a function of that, and what comes out is
written.  All decisions are made by `Command.run`.  Sockets cannot be reached from here, so a task
that names one finds nothing there.

Main definitions:

* `Command.usage` — what the command says about itself;
* `Command.surroundings` — what a task needs, read from the system;
* `main` — the command.
-/

import AttributeWire.Command.Run

set_option relaxedAutoImplicit false
set_option autoImplicit false

namespace AttributeWire

namespace Command

/-- What the command says about itself. -/
def usage : String :=
  "Decode and encode attribute lists.\n\n"
    ++ "  [-v] scan [--socket PATH] [--flags none|missing|extra|strict] [--config PATH]\n"
    ++ "            [--line-limit N] [--lists N]\n"
    ++ "  [-v] encode [NAME=VALUE]...\n"

/-- The fault that the system reports. -/
def faultOf (e : IO.Error) : Fault :=
  match e with
  | .noFileOrDirectory .. => .ofKind .notFound
  | .inappropriateType _ 21 _ => .isADirectory
  | .inappropriateType .. => .notADirectory
  | .noSuchThing .. => .notReadable
  | .invalidArgument .. => .nameTooLong
  | e => ⟨.other, e.toString⟩

/-- What is at a path, as far as it can be read. -/
def resourceAt (path : String) : IO (Except Fault Resource) :=
  try
    let contents ← IO.FS.readBinFile path
    return .ok (.file contents.data.toList)
  catch e => return .error (faultOf e)

/-- What a task needs, read from the system. -/
def surroundings (task : Task) : IO Environment := do
  let nothing : Except Fault Resource := .error (.ofKind .notFound)
  let config ← match task.configPath? with
    | some path => resourceAt path
    | none => pure nothing
  let input ← if task.readsInput then (← IO.getStdin).readBinToEnd else pure .empty
  let logSetting ← IO.getEnv "ATTR_DUMP_LOG"
  return {
    stdin := .ofEvents [.data input.data.toList] .closed
    resource := fun path => if task.configPath? = some path then config else nothing
    logSetting := logSetting }

/-- Writes what came out, and gives the exit code. -/
def report (outcome : Outcome) : IO UInt32 := do
  match outcome with
  | .misuse =>
      IO.eprint usage
      return 2
  | .help =>
      IO.print usage
      return 0
  | .finished exit stdout stderr =>
      let out ← IO.getStdout
      out.write ⟨stdout.toArray⟩
      out.flush
      IO.eprint stderr
      return exit.toUInt32

/-- Runs the command on its arguments. -/
def invoke (args : List String) : IO UInt32 := do
  let task := match Invocation.parse args with
    | .run invocation => invocation.task
    | _ => .encode []
  let environment ← surroundings task
  report (run args environment)

end Command

end AttributeWire

/-- The command. -/
def main (args : List String) : IO UInt32 := AttributeWire.Command.invoke args
