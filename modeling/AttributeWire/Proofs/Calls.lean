/-
**Calls on a stream are told from its accesses.**

Whatever is asked of a channel, the stream is touched by accesses only, each with a consumption of
what it showed.  Two streams whose accesses are answered alike, and stay so, are therefore answered
alike whatever is asked; and a fault that is reported was reported by an access.

Main definitions:

* `Call`, `Reply`, `replies`, `answers` — what can be asked, what comes back, and several calls in
  order;
* `Reply.Reports` — a reply that passes on a fault of the stream;
* `Stream.Bisimulation`, `Stream.KeptByAccess` — a relation between streams, and a property of them,
  that accesses and consumptions keep;
* `Stream.Meets` — a fault that an access to a stream with the property reports.

Main results:

* `Stream.Bisimulation.answers` — **accesses answered alike, calls answered alike**;
* `Stream.KeptByAccess.exists_access` — **a fault that is reported comes from an access**.
-/

import AttributeWire.Proofs.Failure
import AttributeWire.Proofs.Lockstep

set_option relaxedAutoImplicit false
set_option autoImplicit false

namespace AttributeWire

/-! ### Calls -/

/-- What can be asked of a channel. -/
inductive Call where
  /-- Read a field of at most `limit` bytes. -/
  | field (limit : Nat)
  /-- Skip the rest of a line. -/
  | line
  /-- Has the peer closed the stream? -/
  | atEnd
  /-- Read the next attribute list. -/
  | scan (flags : Flags) (list : WishList)

/-- What is answered. -/
inductive Reply where
  /-- A field, or why there is none, and its written form as far as it was gathered. -/
  | field (outcome : Except FieldError Field) (raw : Bytes)
  /-- Whether there was a newline. -/
  | line (found : Except Fault Bool)
  /-- Whether the peer has closed the stream. -/
  | atEnd (outcome : Except ScanError Bool)
  /-- A scan was made: its outcome, the wish list with the values that were stored, and its log. -/
  | scan (outcome : Except ScanError Nat) (list : WishList) (log : List LogEntry)

/-- One call: the reply, and the stream afterwards. -/
def Call.reply (channel : Channel) : Call → Reply × Stream
  | field limit =>
      let r := readField limit channel.stream
      (.field r.outcome r.raw, r.stream)
  | line =>
      let (found, s) := skipLine channel.stream
      (.line found, s)
  | atEnd =>
      let (outcome, channel) := channel.atEnd
      (.atEnd outcome, channel.stream)
  | scan flags list =>
      let r := channel.scan flags list
      (.scan r.outcome r.list r.log, r.stream)

/-- Several calls in order: each reply, with the stream as the call leaves it. -/
def replies (peer : String) (config : Config) : List Call → Stream → List (Reply × Stream)
  | [], _ => []
  | call :: calls, s =>
      let reply := call.reply ⟨peer, config, s⟩
      reply :: replies peer config calls reply.2

/-- The replies to several calls in order. -/
def answers (peer : String) (config : Config) (calls : List Call) (s : Stream) : List Reply :=
  (replies peer config calls s).map Prod.fst

/-- The reply passes on a fault of the stream. -/
def Reply.Reports (fault : Fault) : Reply → Prop
  | field outcome _ => outcome = .error (.transport fault)
  | line found => found = .error fault
  | atEnd outcome => outcome = .error (.io fault)
  | scan outcome _ _ => outcome = .error (.io fault)

theorem replies_cons (peer : String) (config : Config) (call : Call) (calls : List Call)
    (s : Stream) :
    replies peer config (call :: calls) s = call.reply ⟨peer, config, s⟩ ::
      replies peer config calls (call.reply ⟨peer, config, s⟩).2 := rfl

namespace Stream

/-! ### Streams whose accesses are answered alike -/

/-- Accesses to related streams are answered alike and leave related streams, and so does consuming
from them. -/
structure Bisimulation (R : Stream → Stream → Prop) : Prop where
  access : ∀ {s t : Stream}, R s t → t.access.1 = s.access.1 ∧ R s.access.2 t.access.2
  consume : ∀ {s t : Stream}, R s t → ∀ n, R (s.consume n) (t.consume n)

namespace Bisimulation

variable {R : Stream → Stream → Prop} {s t s₁ : Stream}

theorem access_eq {answer : Except Fault Bytes} (hR : Bisimulation R) (h : R s t)
    (hs : s.access = (answer, s₁)) : ∃ t₁, t.access = (answer, t₁) ∧ R s₁ t₁ := by
  obtain ⟨hanswer, hafter⟩ := hR.access h
  rw [hs] at hanswer hafter
  exact ⟨t.access.2, Prod.ext hanswer rfl, hafter⟩

theorem readFieldFrom (hR : Bisimulation R) (limit : Nat) (raw : Bytes) (h : R s t) :
    (readFieldFrom limit raw t).outcome = (readFieldFrom limit raw s).outcome ∧
      (readFieldFrom limit raw t).raw = (readFieldFrom limit raw s).raw ∧
      R (readFieldFrom limit raw s).stream (readFieldFrom limit raw t).stream := by
  fun_induction AttributeWire.readFieldFrom limit raw s generalizing t with
  | case1 raw s fault s₁ hs =>
      obtain ⟨t₁, ht, hafter⟩ := hR.access_eq h hs
      rw [readFieldFrom_eq, ht]
      exact ⟨rfl, rfl, hafter⟩
  | case2 raw s s₁ hs =>
      obtain ⟨t₁, ht, hafter⟩ := hR.access_eq h hs
      rw [readFieldFrom_eq, ht]
      exact ⟨rfl, rfl, hafter⟩
  | case3 raw s b bs s₁ hs before d hbreak hlong =>
      obtain ⟨t₁, ht, hafter⟩ := hR.access_eq h hs
      simp only [readFieldFrom_eq limit raw t, ht, hbreak, if_pos hlong]
      exact ⟨trivial, trivial, hR.consume hafter _⟩
  | case4 raw s b bs s₁ hs before d hbreak hfits =>
      obtain ⟨t₁, ht, hafter⟩ := hR.access_eq h hs
      simp only [readFieldFrom_eq limit raw t, ht, hbreak, if_neg hfits]
      exact ⟨trivial, trivial, hR.consume hafter _⟩
  | case5 raw s b bs s₁ hs before hbreak hlong =>
      obtain ⟨t₁, ht, hafter⟩ := hR.access_eq h hs
      simp only [readFieldFrom_eq limit raw t, ht, hbreak, if_pos hlong]
      exact ⟨trivial, trivial, hR.consume hafter _⟩
  | case6 raw s b bs s₁ hs before hbreak hfits ih =>
      obtain ⟨t₁, ht, hafter⟩ := hR.access_eq h hs
      simp only [readFieldFrom_eq limit raw t, ht, hbreak, if_neg hfits]
      exact ih (hR.consume hafter _)

theorem skipLine (hR : Bisimulation R) (h : R s t) :
    (skipLine t).1 = (skipLine s).1 ∧ R (skipLine s).2 (skipLine t).2 := by
  fun_induction AttributeWire.skipLine s generalizing t with
  | case1 s fault s₁ hs =>
      obtain ⟨t₁, ht, hafter⟩ := hR.access_eq h hs
      rw [skipLine_eq, ht]
      exact ⟨rfl, hafter⟩
  | case2 s s₁ hs =>
      obtain ⟨t₁, ht, hafter⟩ := hR.access_eq h hs
      rw [skipLine_eq, ht]
      exact ⟨rfl, hafter⟩
  | case3 s b bs s₁ hs n hbreak =>
      obtain ⟨t₁, ht, hafter⟩ := hR.access_eq h hs
      simp only [skipLine_eq t, ht, hbreak]
      exact ⟨trivial, hR.consume hafter n⟩
  | case4 s b bs s₁ hs hbreak ih =>
      obtain ⟨t₁, ht, hafter⟩ := hR.access_eq h hs
      simp only [skipLine_eq t, ht, hbreak]
      exact ih (hR.consume hafter _)

/-- Related streams stay in lockstep, even if a field is too long. -/
theorem lockstep (hR : Bisimulation R) (limit : Nat) : Lockstep limit R R where
  field h :=
    have hread := hR.readFieldFrom limit [] h
    ⟨hread.1, .inl hread.2.2⟩
  line h := hR.skipLine h

variable (peer : String) (config : Config)

/-- **One call** is answered alike. -/
theorem reply (hR : Bisimulation R) (call : Call) (h : R s t) :
    (call.reply ⟨peer, config, t⟩).1 = (call.reply ⟨peer, config, s⟩).1 ∧
      R (call.reply ⟨peer, config, s⟩).2 (call.reply ⟨peer, config, t⟩).2 := by
  cases call with
  | field limit =>
      obtain ⟨houtcome, hraw, hafter⟩ := hR.readFieldFrom limit [] h
      exact ⟨congrArg₂ Reply.field houtcome hraw, hafter⟩
  | line =>
      obtain ⟨hfound, hafter⟩ := hR.skipLine h
      exact ⟨congrArg Reply.line hfound, hafter⟩
  | atEnd =>
      rcases hs : s.access with ⟨fault | available, s₁⟩
      · obtain ⟨t₁, ht, hafter⟩ := hR.access_eq h hs
        simp only [Call.reply, Channel.atEnd, hs, ht]
        exact ⟨trivial, hafter⟩
      · obtain ⟨t₁, ht, hafter⟩ := hR.access_eq h hs
        simp only [Call.reply, Channel.atEnd, hs, ht]
        exact ⟨trivial, hafter⟩
  | scan flags list =>
      have hscan := (hR.lockstep config.fieldLimit).scan flags list h
      simp only [Call.reply, Channel.scan, hscan.outcome, hscan.list, hscan.log]
      exact ⟨trivial, hscan.stream.elim id And.right⟩

/-- Whatever is told alike of related streams is told alike of the streams between the calls. -/
theorem map_replies {α : Type} {f : Reply × Stream → α} (hR : Bisimulation R)
    (hf : ∀ {a b : Reply × Stream}, b.1 = a.1 → R a.2 b.2 → f b = f a) (calls : List Call)
    (h : R s t) :
    (replies peer config calls t).map f = (replies peer config calls s).map f := by
  induction calls generalizing s t with
  | nil => rfl
  | cons call calls ih =>
      obtain ⟨hreply, hafter⟩ := hR.reply peer config call h
      rw [replies_cons, replies_cons, List.map_cons, List.map_cons, hf hreply hafter, ih hafter]

/-- **Accesses answered alike, calls answered alike.** -/
theorem answers (hR : Bisimulation R) (calls : List Call) (h : R s t) :
    answers peer config calls t = answers peer config calls s :=
  hR.map_replies peer config (fun hreply _ => hreply) calls h

end Bisimulation

/-! ### What is reported -/

/-- Accesses and consumptions keep a property of streams. -/
structure KeptByAccess (P : Stream → Prop) : Prop where
  access : ∀ {s : Stream}, P s → P s.access.2
  consume : ∀ {s : Stream}, P s → ∀ n, P (s.consume n)

/-- An access to a stream with the property reports the fault. -/
def Meets (P : Stream → Prop) (fault : Fault) : Prop :=
  ∃ s : Stream, P s ∧ s.access.1 = .error fault

namespace KeptByAccess

variable {P : Stream → Prop} {s s₁ : Stream} {fault : Fault}

theorem access_eq {answer : Except Fault Bytes} (hP : KeptByAccess P) (hs : P s)
    (h : s.access = (answer, s₁)) : P s₁ := by
  have hafter := hP.access hs
  rwa [h] at hafter

/-- A stream is related to itself as long as it has the property. -/
theorem bisimulation (hP : KeptByAccess P) : Bisimulation fun s t => s = t ∧ P s where
  access := by
    rintro s _ ⟨rfl, hs⟩
    exact ⟨rfl, rfl, hP.access hs⟩
  consume := by
    rintro s _ ⟨rfl, hs⟩ n
    exact ⟨rfl, hP.consume hs n⟩

theorem keptByReading (hP : KeptByAccess P) (limit : Nat) : KeptByReading limit P where
  field hs := (hP.bisimulation.readFieldFrom limit [] ⟨rfl, hs⟩).2.2.2
  line hs := (hP.bisimulation.skipLine ⟨rfl, hs⟩).2.2

theorem meets_of_readFieldFrom {limit : Nat} {raw : Bytes} (hP : KeptByAccess P) (hs : P s)
    (h : (AttributeWire.readFieldFrom limit raw s).outcome = .error (.transport fault)) :
    Meets P fault := by
  fun_induction AttributeWire.readFieldFrom limit raw s with
  | case1 raw s f s₁ haccess =>
      obtain rfl : f = fault := FieldError.transport.inj (Except.error.inj h)
      exact ⟨s, hs, by rw [haccess]⟩
  | case2 => simp at h
  | case3 => simp at h
  | case4 raw s b bs s₁ haccess before d hbreak hfits =>
      unfold Field.ofRaw at h
      split at h <;> simp at h
  | case5 => simp at h
  | case6 raw s b bs s₁ haccess before hbreak hfits ih =>
      exact ih (hP.consume (hP.access_eq hs haccess) _) h

theorem meets_of_skipLine (hP : KeptByAccess P) (hs : P s)
    (h : (AttributeWire.skipLine s).1 = .error fault) : Meets P fault := by
  fun_induction AttributeWire.skipLine s with
  | case1 s f s₁ haccess =>
      obtain rfl : f = fault := Except.error.inj h
      exact ⟨s, hs, by rw [haccess]⟩
  | case2 => simp at h
  | case3 => simp at h
  | case4 s b bs s₁ haccess hbreak ih => exact ih (hP.consume (hP.access_eq hs haccess) _) h

theorem meets_of_scan {config : Config} {flags : Flags} {list : WishList} (hP : KeptByAccess P)
    (hs : P s) (h : (AttributeWire.scan config flags list s).outcome = .error (.io fault)) :
    Meets P fault := by
  rcases (hP.keptByReading config.fieldLimit).exists_failed hs h with ⟨s', hs', hreading⟩ | hattr
  · rcases hreading with ⟨part, e, hread, he⟩ | ⟨f, hskip, he⟩
    · cases e with
      | transport f =>
          obtain rfl := ScanError.eq_of_ofFault he.symm
          exact hP.meets_of_readFieldFrom hs' hread
      | prematureEof => cases he
      | tooLong => cases he
      | malformedBase64 => cases he
    · obtain rfl := ScanError.eq_of_ofFault he.symm
      exact hP.meets_of_skipLine hs' hskip
  · exact hattr.elim

variable (peer : String) (config : Config)

theorem meets_of_reply {call : Call} (hP : KeptByAccess P) (hs : P s)
    (h : (call.reply ⟨peer, config, s⟩).1.Reports fault) : Meets P fault := by
  cases call with
  | field limit => exact hP.meets_of_readFieldFrom hs h
  | line => exact hP.meets_of_skipLine hs h
  | atEnd =>
      rcases haccess : s.access with ⟨f | available, s₁⟩
      · simp only [Call.reply, Channel.atEnd, haccess] at h
        obtain rfl := ScanError.eq_of_ofFault (Except.error.inj h)
        exact ⟨s, hs, by rw [haccess]⟩
      · simp only [Call.reply, Channel.atEnd, haccess] at h
        cases h
  | scan flags list => exact hP.meets_of_scan hs h

/-- **A fault that is reported comes from an access.** -/
theorem exists_access {calls : List Call} {reply : Reply} (hP : KeptByAccess P) (hs : P s)
    (hmem : reply ∈ AttributeWire.answers peer config calls s) (h : reply.Reports fault) :
    Meets P fault := by
  induction calls generalizing s with
  | nil => cases hmem
  | cons call calls ih =>
      rcases List.mem_cons.1 hmem with rfl | hmem
      · exact hP.meets_of_reply peer config hs h
      · exact ih (hP.bisimulation.reply peer config call ⟨rfl, hs⟩).2.2 hmem

end KeptByAccess

end Stream

end AttributeWire
