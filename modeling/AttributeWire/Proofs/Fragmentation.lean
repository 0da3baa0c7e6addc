/-
**Conversations take no notice of pieces or interruptions.**

Two channels whose streams carry the same bytes, and the same faults between the same bytes, answer
every request alike, however the bytes are cut and wherever reading them is interrupted: scans,
looks for the end of input, and draining.  This goes on until a field is too long.  That failure is
still answered alike, but how much of the field is consumed by then depends on the pieces.

Main definitions:

* `Session.Alike` — two sessions whose streams carry the same;
* `Answer.IsTooLong`, `beforeTooLong` — the failure after which they may part, and how many requests
  are answered before it;
* `SameUntilTooLong` — the same answers through that failure, and the same bytes unread before it.

Main results:

* `Session.Alike.step` — **one request** is answered alike, and leaves the sessions alike unless a
  field is too long;
* `Session.Alike.run` — **several requests**, by induction;
* `run_alike` — **fragmentation and interruptions are invisible**.
-/

import AttributeWire.Proofs.Lockstep
import AttributeWire.Session

set_option relaxedAutoImplicit false
set_option autoImplicit false

namespace AttributeWire

/-! ### Answers after which sessions may part -/

/-- A scan failed because a field is too long. -/
def Answer.IsTooLong : Answer → Prop
  | .scanned outcome _ _ => TooLong outcome
  | _ => False

instance {α : Type} : (outcome : Except ScanError α) → Decidable (TooLong outcome)
  | .error e => inferInstanceAs (Decidable e.IsTooLong)
  | .ok _ => inferInstanceAs (Decidable False)

instance : (answer : Answer) → Decidable answer.IsTooLong
  | .scanned outcome _ _ => inferInstanceAs (Decidable (TooLong outcome))
  | .refused _ _ => inferInstanceAs (Decidable False)
  | .atEnd _ => inferInstanceAs (Decidable False)
  | .description _ _ => inferInstanceAs (Decidable False)
  | .drained _ _ => inferInstanceAs (Decidable False)
  | .gone => inferInstanceAs (Decidable False)

/-- How many requests are answered before a field is too long. -/
def beforeTooLong (replies : List (Answer × Session)) : Nat :=
  replies.findIdx fun reply => reply.1.IsTooLong

theorem beforeTooLong_of_tooLong {reply : Answer × Session} (replies : List (Answer × Session))
    (h : reply.1.IsTooLong) : beforeTooLong (reply :: replies) = 0 := by
  simp [beforeTooLong, List.findIdx_cons, h]

theorem beforeTooLong_of_not_tooLong {reply : Answer × Session} (replies : List (Answer × Session))
    (h : ¬ reply.1.IsTooLong) :
    beforeTooLong (reply :: replies) = beforeTooLong replies + 1 := by
  simp [beforeTooLong, List.findIdx_cons, h]

/-- The same answers through the first field that is too long, and the same bytes unread before. -/
structure SameUntilTooLong (replies replies' : List (Answer × Session)) : Prop where
  count : beforeTooLong replies' = beforeTooLong replies
  answers : (replies'.take (beforeTooLong replies + 1)).map Prod.fst =
    (replies.take (beforeTooLong replies + 1)).map Prod.fst
  unread : (replies'.take (beforeTooLong replies)).map (fun reply => reply.2.unread) =
    (replies.take (beforeTooLong replies)).map fun reply => reply.2.unread

namespace SameUntilTooLong

variable {reply reply' : Answer × Session} {replies replies' : List (Answer × Session)}

theorem nil : SameUntilTooLong [] [] := ⟨rfl, rfl, rfl⟩

/-- What follows a field that is too long does not matter. -/
theorem of_tooLong (hanswer : reply'.1 = reply.1) (hlong : reply.1.IsTooLong) :
    SameUntilTooLong (reply :: replies) (reply' :: replies') := by
  have hcount := beforeTooLong_of_tooLong replies hlong
  have hcount' := beforeTooLong_of_tooLong replies' (hanswer ▸ hlong)
  refine ⟨hcount'.trans hcount.symm, ?_, ?_⟩
  · rw [hcount]
    simpa using hanswer
  · rw [hcount]
    rfl

theorem cons (hanswer : reply'.1 = reply.1) (hlong : ¬ reply.1.IsTooLong)
    (hunread : reply'.2.unread = reply.2.unread) (h : SameUntilTooLong replies replies') :
    SameUntilTooLong (reply :: replies) (reply' :: replies') := by
  have hcount := beforeTooLong_of_not_tooLong replies hlong
  have hcount' := beforeTooLong_of_not_tooLong replies' (hanswer ▸ hlong)
  refine ⟨?_, ?_, ?_⟩
  · rw [hcount, hcount', h.count]
  · rw [hcount, List.take_succ_cons, List.take_succ_cons, List.map_cons, List.map_cons, hanswer,
      h.answers]
  · rw [hcount, List.take_succ_cons, List.take_succ_cons, List.map_cons, List.map_cons, hunread,
      h.unread]

end SameUntilTooLong

/-! ### One request -/

/-- A look for the end of input is answered alike. -/
theorem atEnd_alike {s t : Stream} (h : s.Alike t) (peer : String) (config : Config) :
    ∃ outcome s' t', Channel.atEnd ⟨peer, config, s⟩ = (outcome, ⟨peer, config, s'⟩) ∧
      Channel.atEnd ⟨peer, config, t⟩ = (outcome, ⟨peer, config, t'⟩) ∧ s'.Alike t' := by
  by_cases hnil : s.ahead = []
  · obtain ⟨hstall, hpast⟩ := h.stalled
    have hs := Stream.access_of_stalled h.left hnil
    have ht := Stream.access_of_stalled h.right (h.ahead ▸ hnil)
    rw [← hstall] at ht
    simp only [Channel.atEnd, hs, ht]
    rcases s.stall with fault | available
    · exact ⟨_, _, _, rfl, rfl, hpast⟩
    · exact ⟨_, _, _, rfl, rfl, hpast⟩
  · -- the pieces that are shown may differ, but neither is empty
    obtain ⟨b, bs, s', hs, hadv, -⟩ := Stream.access_of_ahead h.left hnil
    obtain ⟨c, cs, t', ht, hadv', -⟩ := Stream.access_of_ahead h.right (h.ahead ▸ hnil)
    simp only [Channel.atEnd, hs, ht]
    exact ⟨_, _, _, rfl, rfl, h.advance hadv hadv'⟩

namespace Session

/-- Two sessions with the same peer and configuration, whose streams carry the same. -/
inductive Alike : Session → Session → Prop
  | active {s t : Stream} (peer : String) (config : Config) (h : s.Alike t) :
      Alike (active ⟨peer, config, s⟩) (active ⟨peer, config, t⟩)
  | closed {s t : Stream} (h : s.Alike t) : Alike (closed s) (closed t)

namespace Alike

variable {a b : Session}

theorem unread (h : a.Alike b) : b.unread = a.unread := by
  cases h with
  | active peer config h => exact h.unread.symm
  | closed h => exact h.unread.symm

/-- A request for a scan is answered alike, whether it is refused or not. -/
theorem scan {s t : Stream} (h : s.Alike t) (peer : String) (config : Config) (flags : FlagBits)
    (draft : Draft) :
    let reply := Session.scan ⟨peer, config, s⟩ flags draft
    let reply' := Session.scan ⟨peer, config, t⟩ flags draft
    reply'.1 = reply.1 ∧ (reply.2.Alike reply'.2 ∨ reply.1.IsTooLong) := by
  simp only [Session.scan]
  rcases draft.toWishList with e | ⟨list, unused⟩
  · exact ⟨rfl, .inl (.active peer config h)⟩
  · rcases flags.toFlags? with _ | known
    · exact ⟨rfl, .inl (.active peer config h)⟩
    · have hscan := (lockstep_alike config.fieldLimit).scan known list h
      simp only [Channel.scan, hscan.outcome, hscan.list, hscan.log]
      exact ⟨trivial, hscan.stream.imp (.active peer config) And.left⟩

/-- **One request** is answered alike, and leaves the sessions alike unless a field is too long. -/
theorem step (h : a.Alike b) (request : Request) :
    (b.step request).1 = (a.step request).1 ∧
      ((a.step request).2.Alike (b.step request).2 ∨ (a.step request).1.IsTooLong) := by
  cases h with
  | closed h => exact ⟨rfl, .inl (.closed h)⟩
  | active peer config h =>
      cases request with
      | scan flags draft => exact scan h peer config flags draft
      | atEnd =>
          obtain ⟨outcome, s', t', hs, ht, h'⟩ := atEnd_alike h peer config
          simp only [Session.step, hs, ht]
          exact ⟨trivial, .inl (.active peer config h')⟩
      | describe => exact ⟨rfl, .inl (.active peer config h)⟩
      | drain =>
          obtain ⟨hrest, hfault, h'⟩ := drain_alike h
          simp only [Session.step, hrest, hfault]
          exact ⟨trivial, .inl (.closed h')⟩

/-! ### Several requests -/

/-- **Several requests** are answered alike through the first field that is too long. -/
theorem run (h : a.Alike b) (requests : List Request) :
    SameUntilTooLong (a.run requests) (b.run requests) := by
  induction requests generalizing a b with
  | nil => exact .nil
  | cons request requests ih =>
      obtain ⟨hanswer, hafter⟩ := h.step request
      rw [run_cons, run_cons]
      by_cases hlong : (a.step request).1.IsTooLong
      · exact .of_tooLong hanswer hlong
      · have hnext := hafter.resolve_right hlong
        exact .cons hanswer hlong hnext.unread (ih hnext)

end Alike

end Session

/-- **Fragmentation and interruptions are invisible.**  On streams that carry the same bytes, and
the same faults between them, the same requests have the same answers through the first that fails
because a field is too long, and leave the same bytes unread before that. -/
theorem run_alike {s t : Stream} (h : s.Alike t) (peer : String) (config : Config)
    (requests : List Request) :
    SameUntilTooLong ((Session.active ⟨peer, config, s⟩).run requests)
      ((Session.active ⟨peer, config, t⟩).run requests) :=
  Session.Alike.run (.active peer config h) requests

/-- A list and a timeout behind it, whole or cut within a name and interrupted. -/
theorem run_alike_of_interruptions :
    let interrupt := Event.fault (.ofKind .interrupted)
    let timeout := Event.fault (.ofKind .timedOut)
    let whole := Stream.ofEvents [.data (listText [([97], [49])]), timeout, .data [10]] .closed
    let pieces := Stream.ofEvents [interrupt, .data [89, 81], interrupt,
      .data [61, 61, 58, 77, 81, 61, 61, 10, 10], timeout, interrupt, .data [10]] .closed
    let requests :=
      [Request.scan ⟨0⟩ (.whole [.named ⟨[97], .str []⟩, .terminator]), .atEnd, .drain]
    SameUntilTooLong ((Session.active ⟨"peer", .standard, whole⟩).run requests)
      ((Session.active ⟨"peer", .standard, pieces⟩).run requests) := by
  intro interrupt timeout whole pieces requests
  have halike : whole.Alike pieces := ⟨by decide, by decide, by decide, rfl⟩
  exact run_alike halike "peer" .standard requests

end AttributeWire
