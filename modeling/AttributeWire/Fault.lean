/-
**Faults of a stream or a sink.**

A fault is what the transport reports instead of data: its kind, which decides how the reader goes
on, and a text, which is shown and never looked at.

Main definitions:

* `FaultKind`, `FaultKind.description` — the kinds of fault and the text each has by default;
* `Fault` — a kind with its text.
-/

set_option relaxedAutoImplicit false
set_option autoImplicit false

namespace AttributeWire

/-- What went wrong with a stream or a sink. -/
inductive FaultKind where
  | interrupted
  | wouldBlock
  | timedOut
  | connectionReset
  | brokenPipe
  | unexpectedEof
  | writeZero
  | notFound
  | invalidInput
  | other
deriving DecidableEq, Repr

/-- The text of a fault that carries none of its own. -/
def FaultKind.description : FaultKind → String
  | .interrupted => "operation interrupted"
  | .wouldBlock => "operation would block"
  | .timedOut => "timed out"
  | .connectionReset => "connection reset"
  | .brokenPipe => "broken pipe"
  | .unexpectedEof => "unexpected end of file"
  | .writeZero => "failed to write whole buffer"
  | .notFound => "No such file or directory (os error 2)"
  | .invalidInput => "cannot set a 0 duration timeout"
  | .other => "other error"

/-- A fault of a stream or a sink. -/
structure Fault where
  /-- The kind, which decides what is done about the fault. -/
  kind : FaultKind
  /-- The text that is shown. -/
  message : String
deriving DecidableEq, Repr

namespace Fault

/-- The fault of a kind with the text the kind has by default. -/
def ofKind (kind : FaultKind) : Fault := ⟨kind, kind.description⟩

/-- The read is to be tried again. -/
def IsInterrupt (fault : Fault) : Prop := fault.kind = .interrupted

instance (fault : Fault) : Decidable fault.IsInterrupt :=
  inferInstanceAs (Decidable (fault.kind = .interrupted))

/-- The read gave up waiting. -/
def IsTimeout (fault : Fault) : Prop := fault.kind = .wouldBlock ∨ fault.kind = .timedOut

instance (fault : Fault) : Decidable fault.IsTimeout :=
  inferInstanceAs (Decidable (fault.kind = .wouldBlock ∨ fault.kind = .timedOut))

@[simp] theorem ofKind_kind (kind : FaultKind) : (ofKind kind).kind = kind := rfl

end Fault

end AttributeWire
