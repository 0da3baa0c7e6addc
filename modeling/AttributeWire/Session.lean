/-
**Conversations with a channel.**

A session answers requests one after the other: scans, looks for the end of input, questions about
the channel, and finally draining the stream, after which the channel is gone.  A scan may be asked
for with flags that are none, or with a draft that is no wish list; such a request is a misuse by
the caller and touches nothing.

Main definitions:

* `Draft`, `Misuse` — how a caller states a wish list, and what may be wrong with a request;
* `Request`, `Answer` — what is asked and what is answered;
* `Session`, `Session.step`, `Session.run` — one request, and several.
-/

import AttributeWire.Channel

set_option relaxedAutoImplicit false
set_option autoImplicit false

namespace AttributeWire

/-! ### Requests and answers -/

/-- How a caller states a wish list. -/
inductive Draft where
  /-- All entries at once, the marker included. -/
  | whole (entries : List Entry)
  /-- One entry after the other, up to the one that completes the list. -/
  | stepwise (entries : List Entry)

namespace Draft

/-- The entries as they were stated. -/
def entries : Draft → List Entry
  | whole entries => entries
  | stepwise entries => entries

/-- The wish list that is meant, and the entries that hold nothing a scan of it stores into. -/
def toWishList : Draft → Except DraftError (WishList × List Entry)
  | whole entries => (WishList.ofEntries entries).map fun list => (list, [.terminator])
  | stepwise entries => .ok (WishList.take entries)

end Draft

/-- What may be wrong with a request. -/
inductive Misuse where
  /-- The draft is no wish list. -/
  | draft (error : DraftError)
  /-- The flags have unknown bits. -/
  | flags (bits : FlagBits)
deriving DecidableEq, Repr

/-- The text of a misuse. -/
def Misuse.message : Misuse → String
  | draft error => error.message
  | flags bits => "attr scan: bad flags: " ++ FlagBits.hexText bits.bits

/-- What is asked. -/
inductive Request where
  /-- Read the next attribute list. -/
  | scan (flags : FlagBits) (draft : Draft)
  /-- Has the peer closed the stream? -/
  | atEnd
  /-- What is this channel? -/
  | describe
  /-- Give up the channel and read what is left. -/
  | drain

/-- What is answered. -/
inductive Answer where
  /-- A scan was made: its outcome, the entries with the values that were stored, and its log. -/
  | scanned (outcome : Except ScanError Nat) (entries : List Entry) (log : List LogEntry)
  /-- The scan was asked for wrongly, and the entries are as they were. -/
  | refused (misuse : Misuse) (entries : List Entry)
  /-- Whether the peer has closed the stream. -/
  | atEnd (outcome : Except ScanError Bool)
  /-- The name of the peer and the configuration. -/
  | description (peer : String) (config : Config)
  /-- What was left, and the fault that cut it short if one did. -/
  | drained (rest : Bytes) (fault : Option Fault)
  /-- The channel is gone. -/
  | gone

/-! ### Sessions -/

/-- A channel, as long as it has not been given up. -/
inductive Session where
  /-- The channel can be used. -/
  | active (channel : Channel)
  /-- The channel was given up, and this is its stream. -/
  | closed (stream : Stream)

namespace Session

/-- The bytes not yet consumed. -/
def unread : Session → Bytes
  | active channel => channel.stream.unread
  | closed stream => stream.unread

/-- A request for a scan.  The draft is looked at before the flags. -/
def scan (channel : Channel) (flags : FlagBits) (draft : Draft) : Answer × Session :=
  match draft.toWishList with
  | .error e => (.refused (.draft e) draft.entries, active channel)
  | .ok (list, unused) =>
      match flags.toFlags? with
      | none => (.refused (.flags flags) draft.entries, active channel)
      | some known =>
          let r := channel.scan known list
          (.scanned r.outcome (r.list.holders ++ unused) r.log,
            active { channel with stream := r.stream })

/-- One request. -/
def step : Session → Request → Answer × Session
  | closed stream, _ => (.gone, closed stream)
  | active channel, .scan flags draft => scan channel flags draft
  | active channel, .atEnd =>
      let (outcome, channel) := channel.atEnd
      (.atEnd outcome, active channel)
  | active channel, .describe => (.description channel.peer channel.config, active channel)
  | active channel, .drain =>
      let (rest, fault, stream) := channel.stream.drain
      (.drained rest fault, closed stream)

/-- Several requests in order: each answer, with the session as the request leaves it. -/
def run : Session → List Request → List (Answer × Session)
  | _, [] => []
  | session, request :: requests =>
      let reply := session.step request
      reply :: run reply.2 requests

@[simp] theorem run_nil (session : Session) : session.run [] = [] := rfl

theorem run_cons (session : Session) (request : Request) (requests : List Request) :
    session.run (request :: requests) =
      session.step request :: run (session.step request).2 requests := rfl

@[simp] theorem length_run (session : Session) (requests : List Request) :
    (session.run requests).length = requests.length := by
  induction requests generalizing session with
  | nil => rfl
  | cons request requests ih => simp [run_cons, ih]

end Session

end AttributeWire
