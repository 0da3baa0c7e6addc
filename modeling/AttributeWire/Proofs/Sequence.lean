/-
**Lists do not run into each other.**

Scans that no attribute may stop, and that do not leave the rest of a list to the next one, take the
segments of a stream one after the other: the i-th scan consumes the i-th segment, whatever is
wished for, and is answered as it would be on a channel that holds this segment and nothing else.
So neither what came before nor what comes later has any influence.  This holds as long as the scans
succeed.

Main definitions:

* `Request.TakesList` — a scan whose flags let it neither stop at an attribute nor leave the rest;
* `Answer.Succeeded` — a scan was made and did not fail.

Main results:

* `Session.step_segment` — **one scan** takes a segment, and depends on nothing else;
* `run_segments` — **several scans** take the segments in order.
-/

import AttributeWire.Proofs.Exact
import AttributeWire.Proofs.Subsequence
import AttributeWire.Session

set_option relaxedAutoImplicit false
set_option autoImplicit false

namespace AttributeWire

/-- A request for a scan that no attribute may stop and that leaves nothing of its list. -/
def Request.TakesList : Request → Prop
  | .scan flags _ => ∀ known, flags.toFlags? = some known → known.more = false ∧ known.extra = false
  | _ => False

/-- A scan was made and did not fail. -/
def Answer.Succeeded : Answer → Prop
  | .scanned (.ok _) _ _ => True
  | _ => False

instance : (answer : Answer) → Decidable answer.Succeeded
  | .scanned (.ok _) _ _ => inferInstanceAs (Decidable True)
  | .scanned (.error _) _ _ => inferInstanceAs (Decidable False)
  | .refused _ _ => inferInstanceAs (Decidable False)
  | .atEnd _ => inferInstanceAs (Decidable False)
  | .description _ _ => inferInstanceAs (Decidable False)
  | .drained _ _ => inferInstanceAs (Decidable False)
  | .gone => inferInstanceAs (Decidable False)

namespace Session

/-- A request for a scan that is not refused. -/
theorem scan_of_known {flags : FlagBits} {draft : Draft} {list : WishList} {unused : List Entry}
    {known : Flags} (hlist : draft.toWishList = .ok (list, unused))
    (hknown : flags.toFlags? = some known) (channel : Channel) :
    scan channel flags draft =
      (.scanned (channel.scan known list).outcome ((channel.scan known list).list.holders ++ unused)
        (channel.scan known list).log,
        active { channel with stream := (channel.scan known list).stream }) := by
  simp only [scan, hlist, hknown]

theorem exists_of_succeeded {channel : Channel} {flags : FlagBits} {draft : Draft}
    (h : (scan channel flags draft).1.Succeeded) :
    ∃ list unused known n, draft.toWishList = .ok (list, unused) ∧
      flags.toFlags? = some known ∧ (channel.scan known list).outcome = .ok n := by
  rcases hlist : draft.toWishList with e | ⟨list, unused⟩
  · simp [scan, hlist, Answer.Succeeded] at h
  · rcases hknown : flags.toFlags? with _ | known
    · simp [scan, hlist, hknown, Answer.Succeeded] at h
    · rw [scan_of_known hlist hknown] at h
      rcases hscan : (channel.scan known list).outcome with e | n
      · simp [hscan, Answer.Succeeded] at h
      · exact ⟨list, unused, known, n, rfl, rfl, hscan⟩

variable {s : Stream} {peer : String} {config : Config}

/-- A request for a scan that does not fail. -/
theorem step_of_ok {list : WishList} {unused : List Entry} {flags : Flags} {n : Nat}
    (peer : String) (draft : Draft) (hlist : draft.toWishList = .ok (list, unused))
    (hok : (AttributeWire.scan config flags list s).outcome = .ok n) :
    ((active ⟨peer, config, s⟩).step (.scan flags.toBits draft)).1.Succeeded ∧
      ((active ⟨peer, config, s⟩).step (.scan flags.toBits draft)).2 =
        active ⟨peer, config, (AttributeWire.scan config flags list s).stream⟩ := by
  rw [step, scan_of_known hlist flags.toFlags?_toBits]
  simp only [Channel.scan, hok]
  exact ⟨trivial, trivial⟩

/-- **One scan** that succeeds takes a segment, and any stream with this segment and nothing else is
answered alike. -/
theorem step_segment {request : Request} (hs : s.Gapless) (hplain : request.TakesList)
    (hok : ((active ⟨peer, config, s⟩).step request).1.Succeeded) :
    ∃ segment s', IsSegment segment ∧
      ((active ⟨peer, config, s⟩).step request).2 = active ⟨peer, config, s'⟩ ∧
      s.Advances segment s' ∧
      ∀ t : Stream, t.Steady → t.unread = segment →
        ((active ⟨peer, config, t⟩).step request).1 =
          ((active ⟨peer, config, s⟩).step request).1 := by
  cases request with
  | scan flags draft =>
      simp only [step] at hok ⊢
      obtain ⟨list, unused, known, n, hlist, hknown, hscan⟩ := exists_of_succeeded hok
      obtain ⟨hmore, hextra⟩ := hplain known hknown
      obtain ⟨c, hadv, hexact⟩ := exact_scan hs hscan
      obtain ⟨segment, hsegment, hadv'⟩ := advances_segment_of_scan hs hmore hextra hscan
      -- what the scan needs is the segment that it takes
      have heq := hadv.ahead
      rw [hadv'.ahead] at heq
      obtain rfl := List.append_cancel_right heq
      refine ⟨segment, _, hsegment, ?_, hadv, fun t ht hunread => ?_⟩
      · rw [scan_of_known hlist hknown]
        rfl
      · have hahead : t.ahead = segment ++ [] := by rw [ht.ahead, hunread, List.append_nil]
        obtain ⟨u, hread, -⟩ := hexact.whole ht.gapless hahead
        rw [scan_of_known hlist hknown, scan_of_known hlist hknown]
        simp only [Channel.scan, hread]
        rfl
  | atEnd => exact hplain.elim
  | describe => exact hplain.elim
  | drain => exact hplain.elim

end Session

/-- **Lists do not run into each other.**  As long as they succeed, scans that take whole lists take
the segments of the stream one after the other, and each is answered as on a channel that holds its
segment alone. -/
theorem run_segments {s : Stream} (hs : s.Gapless) (peer : String) (config : Config)
    {requests : List Request} (hplain : ∀ request ∈ requests, request.TakesList) :
    let done := ((Session.active ⟨peer, config, s⟩).run requests).takeWhile
      fun reply => reply.1.Succeeded
    ∃ (segments : List Bytes) (rest : Bytes), segments.length = done.length ∧
      s.unread = segments.flatten ++ rest ∧
      (∀ segment ∈ segments, IsSegment segment) ∧
      ∀ (i : Nat) (request : Request) (reply : Answer × Session) (segment : Bytes),
        requests[i]? = some request → done[i]? = some reply → segments[i]? = some segment →
          reply.2.unread = (segments.drop (i + 1)).flatten ++ rest ∧
          ∀ t : Stream, t.Steady → t.unread = segment →
            ((Session.active ⟨peer, config, t⟩).step request).1 = reply.1 := by
  induction requests generalizing s with
  | nil => exact ⟨[], s.unread, rfl, rfl, by simp, by simp⟩
  | cons request requests ih =>
      obtain ⟨hfirst, hothers⟩ := List.forall_mem_cons.1 hplain
      simp only [Session.run_cons]
      by_cases hok : ((Session.active ⟨peer, config, s⟩).step request).1.Succeeded
      · obtain ⟨segment, s', hsegment, hafter, hadv, hfresh⟩ :=
          Session.step_segment hs hfirst hok
        obtain ⟨segments, rest, hlength, hunread, hsegments, hreplies⟩ := ih hadv.gapless hothers
        rw [List.takeWhile_cons_of_pos (by simpa using hok), hafter]
        refine ⟨segment :: segments, rest, by simp [hlength], ?_, ?_, ?_⟩
        · rw [hadv.unread, hunread, List.flatten_cons, List.append_assoc]
        · exact List.forall_mem_cons.2 ⟨hsegment, hsegments⟩
        · rintro (_ | i) asked reply taken hasked hreply htaken
          · cases hasked
            cases hreply
            cases htaken
            refine ⟨?_, hfresh⟩
            rw [hafter]
            exact hunread
          · exact hreplies i asked reply taken hasked hreply htaken
      · rw [List.takeWhile_cons_of_neg (by simpa using hok)]
        exact ⟨[], s.unread, rfl, rfl, by simp, by simp⟩

/-- Two scans of two lists, the first with a wish and the second without. -/
theorem run_segments_of_two :
    let lenient : Flags := ⟨true, false, false⟩
    let wish : Wish := ⟨[97], .str []⟩
    let stream := Stream.bytewise
      (listText [([97], [49]), ([98], [50])] ++ listText [([97], [51])]) .closed
    let requests := [Request.scan lenient.toBits (.whole [.named wish, .terminator]),
      .scan lenient.toBits (.stepwise [.terminator])]
    let done := ((Session.active ⟨"peer", .standard, stream⟩).run requests).takeWhile
      fun reply => reply.1.Succeeded
    done.length = 2 ∧
    ∃ (segments : List Bytes) (rest : Bytes), segments.length = done.length ∧
      stream.unread = segments.flatten ++ rest ∧ (∀ segment ∈ segments, IsSegment segment) ∧
      ∀ (i : Nat) (request : Request) (reply : Answer × Session) (segment : Bytes),
        requests[i]? = some request → done[i]? = some reply → segments[i]? = some segment →
          reply.2.unread = (segments.drop (i + 1)).flatten ++ rest ∧
          ∀ t : Stream, t.Steady → t.unread = segment →
            ((Session.active ⟨"peer", .standard, t⟩).step request).1 = reply.1 := by
  intro lenient wish stream requests done
  have hsteady : stream.Steady := Stream.steady_bytewise _ _
  have hplain : ∀ request ∈ requests, request.TakesList := by
    have hlenient (draft : Draft) : (Request.scan lenient.toBits draft).TakesList := by
      intro known hknown
      obtain rfl := Option.some.inj (lenient.toFlags?_toBits.symm.trans hknown)
      exact ⟨rfl, rfl⟩
    simp [requests, hlenient]
  refine ⟨?_, run_segments hsteady.gapless "peer" .standard hplain⟩
  -- each scan meets all its wishes, and so the second begins where the first list ends
  have hconv : Convertible [wish] [([97], [49]), ([98], [50])] [0] := by
    rintro (_ | i) place asked pair hwish hplace hpair
    · cases hwish
      rfl
    · simp at hplace
  have hfirst : LenientScan lenient [wish] none [([97], [49]), ([98], [50])]
      (listText [([97], [51])]) [0] (scan .standard lenient ⟨[wish], none⟩ stream) :=
    lenientScan_of_eq rfl hsteady (Stream.unread_bytewise _ _) (by decide) rfl hconv rfl
  have hsecond : LenientScan lenient [] none [([97], [51])] [] []
      (scan .standard lenient ⟨[], none⟩ (scan .standard lenient ⟨[wish], none⟩ stream).stream) :=
    lenientScan_of_eq rfl hfirst.steady (hfirst.met rfl rfl).unread (by decide) rfl
      (by simp [Convertible]) rfl
  obtain ⟨hok, hafter⟩ := Session.step_of_ok "peer" (.whole [.named wish, .terminator]) rfl
    (hfirst.met rfl rfl).outcome
  obtain ⟨hok', -⟩ := Session.step_of_ok "peer" (.stepwise [.terminator]) rfl
    (hsecond.met rfl rfl).outcome
  simp only [done, requests, Session.run_cons, Session.run_nil, hafter]
  rw [List.takeWhile_cons_of_pos (by simpa using hok),
    List.takeWhile_cons_of_pos (by simpa using hok')]
  rfl

end AttributeWire
