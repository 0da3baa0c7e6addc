/-
**Looking for the end of input disturbs nothing.**

A look for the end of input takes no byte.  If it finds data, then the data stays at hand, and so
looking again finds it as well and leaves the channel as it is; and whatever is asked next, the
first scan that reads a name takes some of it, however that scan ends.

A look may still use up events: empty pieces of data, and faults.  Where a stream has none but
interruptions, a look finds the end just if every byte was taken, and it is as good as not made:
the requests behind it are answered as they would have been.

Main definitions:

* `Answer.readsName` — a scan was made that asked for a name;
* `Stream.Undisturbed` — nothing but data, interruptions, and then the end;
* `Stream.Looked`, `Session.Looked` — the same stream or session, maybe looked at once more;
* `Session.told` — an answer, and what is unread then.

Main results:

* `length_unread_scan_of_current` — **a scan that reads a name takes data that is at hand**, however
  it ends;
* `Session.run_replicate_atEnd` — **repeated looks** leave everything as it is;
* `Session.Looked.run` — **a look more or less** is not noticed;
* `atEnd_peeks` — all of this about one look.
-/

import AttributeWire.Proofs.Calls
import AttributeWire.Proofs.Sequence
import AttributeWire.Proofs.Spelling
import AttributeWire.Proofs.Turns

set_option relaxedAutoImplicit false
set_option autoImplicit false

namespace AttributeWire

/-- A scan was made that asked for a name. -/
def Answer.readsName : Answer → Bool
  | .scanned _ _ log => log.any LogEntry.isWanted
  | _ => false

/-! ### Data at hand -/

section

variable {config : Config} {flags : Flags} {list list' : WishList} {s s' : Stream} {gain : Gain}
  {r : ScanResult} {b : UInt8} {bs : Bytes}

/-- Data that is at hand is what an access shows, and the access changes nothing. -/
theorem Stream.access_of_current (h : s.current = b :: bs) : s.access = (.ok (b :: bs), s) := by
  have hsettle : s.settle = s := if_neg (by simp [h])
  simp only [Stream.access, hsettle, Stream.fill_of_current h]

/-- Reading a field takes some of the data at hand, whether it succeeds or not. -/
theorem length_unread_readField_of_current (limit : Nat) (h : s.current = b :: bs) :
    (readField limit s).stream.unread.length < s.unread.length := by
  have haccess := Stream.access_of_current h
  have shorter {n : Nat} (pos : 0 < n) := Stream.length_unread_access_consume haccess pos
  rw [readField, readFieldFrom_eq, haccess]
  simp only
  split
  · split
    · exact shorter (Nat.succ_pos _)
    · exact shorter (Nat.succ_pos _)
  · split
    · exact shorter (Nat.succ_pos _)
    · exact Nat.lt_of_le_of_lt (length_unread_readFieldFrom_le ..) (shorter (Nat.succ_pos _))

theorem Sees.length_unread {target : Wanted} {name : Field}
    (h : Sees config flags list s target name s') : s'.unread.length < s.unread.length :=
  length_unread_readName h.read

theorem Takes.length_unread {target : Wanted} {name : Field} {value : Bytes}
    (h : Takes config flags list s target name value s') :
    s'.unread.length < s.unread.length := by
  obtain ⟨s₁, hsees, hvalue⟩ := h.sees
  exact Nat.lt_of_le_of_lt (withinLine_of_readValue hvalue).suffix.length_le hsees.length_unread

/-- A scan that stops, though something is wanted, has taken some of the data at hand. -/
theorem Stop.length_unread (hwanted : list.wanted? flags ≠ none) (hs : s.current = b :: bs)
    (h : Stop config flags list s r) : r.stream.unread.length < s.unread.length := by
  cases h with
  | left h => exact absurd h hwanted
  | terminator h hterm => exact h.length_unread
  | spurious h hextra => exact h.toSees.length_unread
  | duplicate h hextra hold => exact h.length_unread
  | failed h =>
      cases h with
      | name hwanted hread =>
          have hshorter := length_unread_readField_of_current config.fieldLimit hs
          rwa [← stream_readName, hread] at hshorter
      | skip h hextra hend hskip =>
          exact Nat.lt_of_le_of_lt (withinLine_of_skipLine hskip).suffix.length_le
            h.toSees.length_unread
      | cutOff h hextra hend hskip hover =>
          rw [Stream.unread_of_access hover]
          exact Nat.lt_of_le_of_lt (withinLine_of_skipLine hskip).suffix.length_le
            h.toSees.length_unread
      | value h hunended haccepts hvalue =>
          exact Nat.lt_of_le_of_lt (withinLine_of_readValue hvalue).suffix.length_le h.length_unread
      | number h hstored => exact h.length_unread

theorem Reaches.length_unread (h : Reaches config flags list s gain list' s') :
    s'.unread.length ≤ s.unread.length := by
  induction h with
  | here => exact Nat.le_refl _
  | pass h _ ih => exact Nat.le_trans ih (Nat.le_of_lt h.length_unread)

/-- **A scan that reads a name takes data that is at hand**, however it ends. -/
theorem length_unread_scan_of_current (hwanted : list.wanted? flags ≠ none)
    (hs : s.current = b :: bs) :
    (scan config flags list s).stream.unread.length < s.unread.length := by
  obtain ⟨gain, list', s', r, hreach, hstop, hscan⟩ := exists_course config flags list s
  rw [hscan]
  show r.stream.unread.length < s.unread.length
  cases hreach with
  | here => exact hstop.length_unread hwanted hs
  | pass hpass hrest =>
      exact Nat.lt_of_le_of_lt hstop.keeps.2.2.suffix.length_le
        (Nat.lt_of_le_of_lt hrest.length_unread hpass.length_unread)

/-- A search logs first what it looks for. -/
theorem seek_log (config : Config) (flags : Flags) (target : Wanted) (s : Stream) :
    ∃ log, (seek config flags target s).log = .wanted target :: log := by
  rcases hread : readName config s with ⟨e | name, log, s₁⟩
  · rw [seek_of_readName_error hread]
    exact ⟨_, rfl⟩
  · rw [seek_of_readName hread]
    split_ifs
    · exact ⟨_, rfl⟩
    · exact ⟨_, rfl⟩
    · exact ⟨_, rfl⟩
    · exact ⟨_, rfl⟩
    · split
      · exact ⟨_, rfl⟩
      · exact ⟨_, rfl⟩

/-- A scan asks for a name if something is wanted. -/
theorem any_isWanted_scan (hwanted : list.wanted? flags ≠ none) :
    (scan config flags list s).log.any LogEntry.isWanted = true := by
  obtain ⟨target, htarget⟩ := Option.ne_none_iff_exists'.1 hwanted
  obtain ⟨log, hlog⟩ := seek_log config flags target s
  rw [scan_of_wanted htarget]
  rcases hseek : seek config flags target s with ⟨e | name | _, log', s₁⟩
  · rw [hseek] at hlog
    obtain rfl : log' = _ := hlog
    rfl
  · rw [hseek] at hlog
    obtain rfl : log' = _ := hlog
    rfl
  · rw [hseek] at hlog
    obtain rfl : log' = _ := hlog
    rfl

end

/-! ### Behind a look that finds data -/

namespace Session

variable {channel : Channel}

/-- Once the channel is gone, no name is read. -/
theorem find?_readsName_of_closed (stream : Stream) (requests : List Request) :
    ((closed stream).run requests).find? (fun reply => reply.1.readsName) = none := by
  induction requests with
  | nil => rfl
  | cons request requests ih => exact ih

/-- A look while there is data at hand finds it, and changes nothing. -/
theorem step_atEnd_of_current {b : UInt8} {bs : Bytes} (h : channel.stream.current = b :: bs) :
    (active channel).step .atEnd = (.atEnd (.ok false), active channel) := by
  simp only [step, Channel.atEnd, Stream.access_of_current h]
  rfl

/-- **One request** while there is data at hand: it reads a name and takes some of the data, or it
reads none, and then the channel is as it was or is gone. -/
theorem step_of_current {b : UInt8} {bs : Bytes} (h : channel.stream.current = b :: bs)
    (request : Request) :
    let reply := (active channel).step request
    reply.1.readsName = true ∧ reply.2.unread.length < channel.stream.unread.length ∨
      reply.1.readsName = false ∧ (reply.2 = active channel ∨ ∃ s, reply.2 = closed s) := by
  cases request with
  | scan flags draft =>
      rw [step]
      rcases hlist : draft.toWishList with e | ⟨list, unused⟩
      · simp only [scan, hlist]
        exact .inr ⟨rfl, .inl trivial⟩
      · rcases hknown : flags.toFlags? with _ | known
        · simp only [scan, hlist, hknown]
          exact .inr ⟨rfl, .inl trivial⟩
        · rw [scan_of_known hlist hknown]
          by_cases hwanted : list.wanted? known = none
          · have hscan : channel.scan known list = ⟨.ok 0, list, [], channel.stream⟩ :=
              scan_of_not_wanted hwanted
            rw [hscan]
            exact .inr ⟨rfl, .inl rfl⟩
          · exact .inl ⟨any_isWanted_scan hwanted, length_unread_scan_of_current hwanted h⟩
  | atEnd =>
      rw [step_atEnd_of_current h]
      exact .inr ⟨rfl, .inl rfl⟩
  | describe => exact .inr ⟨rfl, .inl rfl⟩
  | drain => exact .inr ⟨rfl, .inr ⟨_, rfl⟩⟩

/-- **The first scan that reads a name** takes some of the data at hand. -/
theorem length_unread_of_find? {b : UInt8} {bs : Bytes} (h : channel.stream.current = b :: bs)
    {requests : List Request} {reply : Answer × Session}
    (hfirst : ((active channel).run requests).find? (fun reply => reply.1.readsName) =
      some reply) : reply.2.unread.length < channel.stream.unread.length := by
  induction requests with
  | nil => cases hfirst
  | cons request requests ih =>
      rw [run_cons] at hfirst
      rcases step_of_current h request with ⟨hreads, hshorter⟩ | ⟨hnone, hsame | ⟨s, hgone⟩⟩
      · rw [List.find?_cons, hreads] at hfirst
        obtain rfl := Option.some.inj hfirst
        exact hshorter
      · rw [List.find?_cons, hnone, hsame] at hfirst
        exact ih hfirst
      · rw [List.find?_cons, hnone, hgone, find?_readsName_of_closed] at hfirst
        cases hfirst

/-- A look finds data just if there is data at hand afterwards. -/
theorem exists_current_of_atEnd (h : channel.atEnd.1 = .ok false) :
    ∃ b bs, channel.atEnd.2.stream.current = b :: bs := by
  unfold Channel.atEnd at h ⊢
  split at h
  · rename_i available s haccess
    have hcurrent := Stream.current_of_access haccess
    cases available with
    | nil => cases h
    | cons b bs => exact ⟨b, bs, hcurrent⟩
  · cases h

/-- **Repeated looks** leave everything as it is. -/
theorem run_replicate_atEnd {b : UInt8} {bs : Bytes} (h : channel.stream.current = b :: bs)
    (n : Nat) (requests : List Request) :
    (active channel).run (List.replicate n .atEnd ++ requests) =
      List.replicate n (.atEnd (.ok false), active channel) ++ (active channel).run requests := by
  induction n with
  | zero => rfl
  | succ n ih =>
      rw [List.replicate_succ, List.cons_append, run_cons, step_atEnd_of_current h, ih,
        List.replicate_succ, List.cons_append]

end Session

/-! ### Streams on which nothing goes wrong -/

namespace Stream

/-- Nothing comes but data, interruptions, and then the end. -/
structure Undisturbed (s : Stream) : Prop extends Steady s where
  closed : s.ending = .closed

variable {s t : Stream}

namespace Undisturbed

theorem stall (hs : s.Undisturbed) : s.stall = .ok [] :=
  stall_eq_ok_nil_iff.2 ⟨hs.beyond, hs.closed⟩

theorem of_advances {consumed : Bytes} (hs : s.Undisturbed) (h : s.Advances consumed t) :
    t.Undisturbed :=
  ⟨h.steady hs.toSteady, h.ending.trans hs.closed⟩

/-- An access reads past nothing. -/
theorem advances_access (hs : s.Undisturbed) : s.Advances [] s.access.2 := by
  by_cases hahead : s.ahead = []
  · have hpast := hs.toSteady.advances_past
    rwa [access_of_stalled hs.gapless hahead, ← hahead]
  · obtain ⟨b, bs, s', haccess, hadv, -⟩ := access_of_ahead hs.gapless hahead
    rwa [haccess]

/-- **Looking again** shows the same, and changes nothing any more. -/
theorem access_access (hs : s.Undisturbed) : s.access.2.access = s.access := by
  by_cases hahead : s.ahead = []
  · have haccess := access_of_stalled hs.gapless hahead
    rw [hs.stall] at haccess
    rw [haccess]
    exact access_of_exhausted hs.gapless haccess
  · obtain ⟨b, bs, s', haccess, -, hcurrent⟩ := access_of_ahead hs.gapless hahead
    rw [haccess]
    exact access_of_current hcurrent

theorem keptByAccess : KeptByAccess Undisturbed where
  access hs := hs.of_advances hs.advances_access
  consume hs _ := ⟨⟨hs.gapless, hs.beyond⟩, hs.closed⟩

/-- A look finds the end just if every byte was taken. -/
theorem atEnd {channel : Channel} (hs : channel.stream.Undisturbed) :
    channel.atEnd.1 = .ok (decide (channel.stream.unread = [])) := by
  rw [← hs.ahead]
  by_cases hahead : channel.stream.ahead = []
  · simp [Channel.atEnd, access_of_stalled hs.gapless hahead, hs.stall, hahead]
  · obtain ⟨b, bs, s', haccess, -⟩ := access_of_ahead hs.gapless hahead
    simp [Channel.atEnd, haccess, hahead]

theorem drain_access (hs : s.Undisturbed) : s.access.2.drain = s.drain := by
  have hadv := hs.advances_access
  have hahead : s.ahead = s.access.2.ahead := hadv.ahead
  rw [drain_eq _ hadv.gapless, drain_eq s hs.gapless, hadv.stall, hadv.past, hahead]

end Undisturbed

/-! ### A look more or less -/

/-- The second stream is the first one, or that one looked at once more. -/
structure Looked (s t : Stream) : Prop where
  undisturbed : s.Undisturbed
  looked : t = s ∨ t = s.access.2

namespace Looked

theorem refl (hs : s.Undisturbed) : s.Looked s := ⟨hs, .inl rfl⟩

theorem access_eq (h : s.Looked t) : t.access = s.access := by
  rcases h.looked with rfl | rfl
  · rfl
  · exact h.undisturbed.access_access

theorem drain_eq (h : s.Looked t) : t.drain = s.drain := by
  rcases h.looked with rfl | rfl
  · rfl
  · exact h.undisturbed.drain_access

theorem unread (h : s.Looked t) : t.unread = s.unread := by
  rcases h.looked with rfl | rfl
  · rfl
  · exact unread_access s

end Looked

/-- What begins with an access comes out the same. -/
theorem lockstep_looked (limit : Nat) : Lockstep limit Looked fun _ _ => False where
  field := by
    intro s t h
    have hread : readField limit t = readField limit s := by
      rw [readField, readField, readFieldFrom_eq, h.access_eq, ← readFieldFrom_eq]
    rw [hread]
    exact ⟨rfl, .inl (.refl ((Undisturbed.keptByAccess.keptByReading limit).field h.undisturbed))⟩
  line := by
    intro s t h
    have hskip : skipLine t = skipLine s := by
      rw [skipLine_eq, h.access_eq, ← skipLine_eq]
    rw [hskip]
    exact ⟨rfl, .refl ((Undisturbed.keptByAccess.keptByReading limit).line h.undisturbed)⟩

end Stream

namespace Session

/-- What is told of a reply: the answer, and what is unread then. -/
def told (reply : Answer × Session) : Answer × Bytes := (reply.1, reply.2.unread)

/-- The second session is the first one, maybe with one look more at its stream. -/
inductive Looked : Session → Session → Prop
  | active {s t : Stream} (peer : String) (config : Config) (h : s.Looked t) :
      Looked (active ⟨peer, config, s⟩) (active ⟨peer, config, t⟩)
  | closed (s : Stream) : Looked (closed s) (closed s)

namespace Looked

variable {a b : Session}

theorem unread (h : a.Looked b) : b.unread = a.unread := by
  cases h with
  | active peer config h => exact h.unread
  | closed s => rfl

/-- One look more. -/
theorem atEnd (h : a.Looked b) : a.Looked (a.step .atEnd).2 := by
  cases h with
  | closed s => exact .closed s
  | @active s t peer config h =>
      have hafter : ((Session.active ⟨peer, config, s⟩).step .atEnd).2 =
          .active ⟨peer, config, s.access.2⟩ := by
        simp only [step, Channel.atEnd]
        split <;> simp_all
      rw [hafter]
      exact .active peer config ⟨h.undisturbed, .inr rfl⟩

theorem scan {s t : Stream} (h : s.Looked t) (peer : String) (config : Config) (flags : FlagBits)
    (draft : Draft) :
    let reply := Session.scan ⟨peer, config, s⟩ flags draft
    let reply' := Session.scan ⟨peer, config, t⟩ flags draft
    reply'.1 = reply.1 ∧ reply.2.Looked reply'.2 := by
  simp only [Session.scan]
  rcases draft.toWishList with e | ⟨list, unused⟩
  · exact ⟨rfl, .active peer config h⟩
  · rcases flags.toFlags? with _ | known
    · exact ⟨rfl, .active peer config h⟩
    · have hscan := (Stream.lockstep_looked config.fieldLimit).scan known list h
      simp only [Channel.scan, hscan.outcome, hscan.list, hscan.log]
      exact ⟨trivial, .active peer config (hscan.stream.resolve_right And.right)⟩

/-- **One request** does not notice the look. -/
theorem step (h : a.Looked b) (request : Request) :
    (b.step request).1 = (a.step request).1 ∧ (a.step request).2.Looked (b.step request).2 := by
  cases h with
  | closed s => exact ⟨rfl, .closed s⟩
  | @active s t peer config h =>
      cases request with
      | scan flags draft => exact scan h peer config flags draft
      | atEnd =>
          have hafter := Stream.Undisturbed.keptByAccess.access h.undisturbed
          simp only [Session.step, Channel.atEnd, h.access_eq]
          rcases haccess : s.access with ⟨fault | available, s₁⟩
          · rw [haccess] at hafter
            exact ⟨trivial, .active peer config (.refl hafter)⟩
          · rw [haccess] at hafter
            exact ⟨trivial, .active peer config (.refl hafter)⟩
      | describe => exact ⟨rfl, .active peer config h⟩
      | drain =>
          simp only [Session.step, h.drain_eq]
          exact ⟨trivial, .closed _⟩

/-- **A look more or less** is not noticed. -/
theorem run (h : a.Looked b) (requests : List Request) :
    (b.run requests).map told = (a.run requests).map told := by
  induction requests generalizing a b with
  | nil => rfl
  | cons request requests ih =>
      obtain ⟨hanswer, hafter⟩ := h.step request
      rw [run_cons, run_cons, List.map_cons, List.map_cons, ih hafter]
      simp only [told, hanswer, hafter.unread]

/-- **A look between two requests** is not noticed, wherever it is made. -/
theorem run_insert (h : a.Looked a) (before after : List Request) :
    ((a.run (before ++ .atEnd :: after)).eraseIdx before.length).map told =
      (a.run (before ++ after)).map told := by
  induction before generalizing a with
  | nil => exact h.atEnd.run after
  | cons request before ih =>
      have hrest := ih (h.step request).2
      rw [List.cons_append, List.cons_append, run_cons, run_cons, List.length_cons,
        List.eraseIdx_cons_succ, List.map_cons, List.map_cons, hrest]

end Looked

end Session

/-! ### One look -/

/-- **A look for the end of input disturbs nothing.**  It takes no byte.  If it finds data, then it
finds data however often it is repeated, and the looks change no answer to any requests behind them;
and the first of these that reads a name takes at least one byte, whether it fails or not.  If
nothing comes but data, interruptions and the end, then the look finds the end just if every byte
was taken; and a look between any two requests changes no answer, and no byte that is unread. -/
theorem atEnd_peeks (channel : Channel) :
    channel.atEnd.2.stream.unread = channel.stream.unread ∧
    (channel.atEnd.1 = .ok false →
      let after := Session.active channel.atEnd.2
      (∀ (n : Nat) (requests : List Request),
        after.run (List.replicate n .atEnd ++ requests) =
          List.replicate n (.atEnd (.ok false), after) ++ after.run requests) ∧
      ∀ (requests : List Request) (reply : Answer × Session),
        (after.run requests).find? (fun reply => reply.1.readsName) = some reply →
          reply.2.unread.length < channel.stream.unread.length) ∧
    (channel.stream.Undisturbed →
      channel.atEnd.1 = .ok (decide (channel.stream.unread = [])) ∧
      ∀ before after : List Request,
        (((Session.active channel).run (before ++ .atEnd :: after)).eraseIdx before.length).map
            Session.told =
          ((Session.active channel).run (before ++ after)).map Session.told) := by
  refine ⟨channel.unread_atEnd, fun hfound => ?_, fun hs => ⟨hs.atEnd, fun before after => ?_⟩⟩
  · obtain ⟨b, bs, hcurrent⟩ := Session.exists_current_of_atEnd hfound
    refine ⟨Session.run_replicate_atEnd hcurrent, fun requests reply hfirst => ?_⟩
    have hshorter := Session.length_unread_of_find? hcurrent hfirst
    rwa [channel.unread_atEnd] at hshorter
  · have hrefl : (Session.active channel).Looked (.active channel) := .active _ _ (.refl hs)
    exact hrefl.run_insert before after

/-- A name that comes in two pieces, before the input is cut short. -/
theorem atEnd_peeks_of_cutShort :
    let interrupt := Event.fault (.ofKind .interrupted)
    let channel : Channel := ⟨"peer", .standard,
      .ofEvents [interrupt, .data [89, 81], interrupt, .data [61, 61, 58]] .closed⟩
    let after := Session.active channel.atEnd.2
    let scan := Request.scan ⟨0⟩ (.whole [.named ⟨[97], .str []⟩, .terminator])
    channel.atEnd.1 = .ok false ∧ channel.stream.Undisturbed ∧
      after.run [.atEnd, .atEnd, scan] =
        (.atEnd (.ok false), after) :: (.atEnd (.ok false), after) :: after.run [scan] ∧
      (∃ reply, (after.run [.describe, scan]).find? (fun reply => reply.1.readsName) = some reply ∧
        reply.2.unread.length < 5) ∧
      (((Session.active channel).run [scan, .atEnd, .drain]).eraseIdx 1).map Session.told =
        ((Session.active channel).run [scan, .drain]).map Session.told := by
  intro interrupt channel after scan
  have hfound : channel.atEnd.1 = .ok false := rfl
  have hundisturbed : channel.stream.Undisturbed := ⟨⟨by decide, by decide⟩, rfl⟩
  obtain ⟨-, hrepeated, hquiet⟩ := atEnd_peeks channel
  obtain ⟨hlooks, htakes⟩ := hrepeated hfound
  refine ⟨hfound, hundisturbed, hlooks 2 [scan], ?_, (hquiet hundisturbed).2 [scan] [.drain]⟩
  -- the question about the channel reads no name, and so the scan is the first that does
  have hfirst : (after.run [.describe, scan]).find? (fun reply => reply.1.readsName) =
      some (after.step scan) := by
    have hreads : (after.step scan).1.readsName = true :=
      any_isWanted_scan (by simp [WishList.wanted?])
    have hasked : (after.step .describe).2 = after := rfl
    rw [Session.run_cons, List.find?_cons_of_neg Bool.false_ne_true, hasked, Session.run_cons,
      List.find?_cons, hreads]
  exact ⟨_, hfirst, htakes _ _ hfirst⟩

end AttributeWire
