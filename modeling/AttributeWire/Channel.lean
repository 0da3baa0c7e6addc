/-
**Channels to a peer.**

A channel is a stream together with what names it in messages and how it is to be read.  One is
made from any stream, or by connecting to a service that listens on a socket; a socket cannot be
given a timeout of zero.

Main definitions:

* `Channel` — a stream, the name of the peer, and the configuration;
* `Service`, `Channel.connect` — a listening service, and a channel to it;
* `Channel.scan`, `Channel.atEnd` — reads a list, and looks whether there is input left;
* `Stream.drain` — everything that is left of a stream.

Main results:

* `Channel.unread_atEnd` — looking for the end consumes nothing.
-/

import AttributeWire.Scan

set_option relaxedAutoImplicit false
set_option autoImplicit false

namespace AttributeWire

/-! ### Draining a stream -/

/-- Everything a stream gives before its next end of input, and the fault that cut it short if one
did.  Interruptions are passed over, and each fill is acted on as it comes. -/
def Stream.drain (s : Stream) : Bytes × Option Fault × Stream :=
  -- one fill for each piece, where an access would take two
  match _h : s.settle.fill with
  | (.error fault, s₁) => ([], some fault, s₁)
  | (.ok [], s₁) => ([], none, s₁)
  | (.ok (b :: bs), s₁) =>
      let (rest, fault, s₂) := drain (s₁.consume (bs.length + 1))
      (b :: bs ++ rest, fault, s₂)
termination_by s.unread.length
decreasing_by
  have hc := Stream.current_of_fill _h
  have hu := s.settle.unread_fill
  rw [_h, Stream.unread_settle] at hu
  rw [← hu]
  simp only [Stream.consume, Stream.unread, hc, List.length_append, List.length_drop,
    List.length_cons]
  omega

/-! ### Channels -/

/-- A stream with the name of the peer and the configuration. -/
structure Channel where
  /-- What names the peer in messages. -/
  peer : String
  /-- How the stream is read. -/
  config : Config
  /-- The stream. -/
  stream : Stream

/-- A service that listens on a socket. -/
structure Service where
  /-- What it sends to whoever connects. -/
  data : Bytes
  /-- Whether it keeps the connection open after that. -/
  holds : Bool
deriving DecidableEq, Repr

/-- The input that a client of the service sees. -/
def Service.stream (service : Service) : Stream :=
  .ofEvents [.data service.data] (if service.holds then .silent else .closed)

namespace Channel

/-- A channel to the service at a path, if one listens there and the timeout is not zero. -/
def connect (path : String) (service : Option Service) (config : Config) : Except Fault Channel :=
  match service with
  | none => .error (.ofKind .notFound)
  | some service =>
      if config.readTimeout = some .zero then .error (.ofKind .invalidInput)
      else .ok ⟨path, config, service.stream⟩

/-- Reads the next attribute list. -/
def scan (channel : Channel) (flags : Flags) (list : WishList) : ScanResult :=
  AttributeWire.scan channel.config flags list channel.stream

/-- Whether the peer has closed the stream. -/
def atEnd (channel : Channel) : Except ScanError Bool × Channel :=
  match channel.stream.access with
  | (.ok available, s) => (.ok available.isEmpty, { channel with stream := s })
  | (.error fault, s) => (.error (.ofFault channel.config fault), { channel with stream := s })

/-- **Looking for the end consumes nothing.** -/
@[simp] theorem unread_atEnd (channel : Channel) :
    channel.atEnd.2.stream.unread = channel.stream.unread := by
  have h := channel.stream.unread_access
  unfold atEnd
  split <;> simp_all

end Channel

end AttributeWire
