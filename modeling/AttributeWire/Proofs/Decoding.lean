/-
**Decoding a run of lists.**

The command reads list after list, up to the end of the input or up to a number of lists, and prints
a record for each.  The end of the input counts as such only between two lists: input that stops
within a list makes the command fail, after the records of the lists before it.

Main definitions:

* `Stream.Brings` — a stream of just these bytes;
* `PrintedAs` — a list whose text is all that its record depends on;
* `Command.DecodesInput` — arguments and surroundings that make the command decode its input;
* `upTo` — the first so many of some things, if a number is given.

Main results:

* `decodeLists_of_input`, `decodeLists_of_enough`, `decodeLists_of_end` — **one step of decoding**;
* `decodeLists_append` — **a run of lists is printed**, whatever follows it;
* `decodeLists_cut` — **a list that is cut off** makes decoding fail;
* `run_scan_reports` — **what the command prints for a run of lists**.
-/

import AttributeWire.Proofs.Record
import Mathlib.Data.List.Forall2

set_option relaxedAutoImplicit false
set_option autoImplicit false

namespace AttributeWire

/-! ### Input that ends -/

/-- The stream brings just these bytes, and then ends. -/
inductive Stream.Brings (s : Stream) (bytes : Bytes) : Prop
  /-- In pieces, none of them empty. -/
  | pieces (hs : s.Steady) (hending : s.ending = .closed) (hunread : s.unread = bytes)
  /-- In one piece, even if there is nothing to bring. -/
  | atOnce (h : s = .ofEvents [.data bytes] .closed)

section

variable {s : Stream} {bytes : Bytes}

theorem Stream.Brings.atEnd_nil (h : s.Brings []) (peer : String) (config : Config) :
    (Channel.atEnd ⟨peer, config, s⟩).1 = .ok true := by
  have haccess : s.access.1 = .ok [] := by
    cases h with
    | pieces hs hending hunread =>
        rw [Stream.access_of_stalled hs.gapless (hs.ahead.trans hunread)]
        exact Stream.stall_eq_ok_nil_iff.2 ⟨hs.beyond, hending⟩
    | atOnce h => rw [h]; rfl
  rw [Channel.atEnd]
  rcases hshown : s.access with ⟨answer, s₁⟩
  obtain rfl : answer = .ok [] := by rw [← haccess, hshown]
  rfl

/-- Input that is not over is shown, in pieces that are not empty. -/
theorem Stream.Brings.atEnd_ne_nil (h : s.Brings bytes) (hne : bytes ≠ []) (peer : String)
    (config : Config) :
    ∃ s₁, Channel.atEnd ⟨peer, config, s⟩ = (.ok false, ⟨peer, config, s₁⟩) ∧ s₁.Steady ∧
      s₁.ending = .closed ∧ s₁.unread = bytes := by
  have hsteady : s.Steady ∧ s.ending = .closed ∧ s.unread = bytes := by
    cases h with
    | pieces hs hending hunread => exact ⟨hs, hending, hunread⟩
    | atOnce h =>
        subst h
        have hpieces : ∀ piece ∈ [bytes], piece ≠ [] := by simpa using hne
        exact ⟨Stream.steady_ofEvents hpieces .closed, rfl, by simp⟩
  obtain ⟨hs, hending, hunread⟩ := hsteady
  have hahead : s.ahead ≠ [] := by rwa [hs.ahead, hunread]
  obtain ⟨b, bs, s₁, haccess, hadv, -⟩ := Stream.access_of_ahead hs.gapless hahead
  refine ⟨s₁, ?_, hadv.steady hs, hadv.ending.trans hending, ?_⟩
  · rw [Channel.atEnd, haccess]
    rfl
  · rw [← hunread, hadv.unread, List.nil_append]

end

/-! ### One step of decoding -/

/-- The failure to read the list of this number. -/
def listFailure (peer : String) (number : Nat) (e : ScanError) : Failure :=
  ⟨s!"reading attribute list {number}", e.message peer :: e.causes⟩

section

variable {flags : Flags} {limit : Option UInt64} {count : Nat} {channel channel₁ : Channel}

theorem isEnough_of_lt (h : ∀ n, limit = some n → count < n.toNat) :
    isEnough limit count = false := by
  cases limit with
  | none => rfl
  | some n => simpa [isEnough] using h n rfl

/-- As long as a number is not reached, no number below it is enough. -/
theorem isEnough_before {k : Nat} (h : ∀ n, limit = some n → k ≤ n.toNat) :
    ∀ i < k, isEnough limit (0 + i) = false := by
  intro i hi
  refine isEnough_of_lt fun n hn => ?_
  rw [Nat.zero_add]
  exact Nat.lt_of_lt_of_le hi (h n hn)

theorem decodeLists_of_enough (h : isEnough limit count = true) :
    decodeLists flags limit count channel = ⟨[], [.decoded channel.peer count], none⟩ := by
  rw [decodeLists, if_pos h]

/-- At the end of the input it makes no difference whether more lists are asked for. -/
theorem decodeLists_of_end (h : channel.atEnd.1 = .ok true) :
    decodeLists flags limit count channel = ⟨[], [.decoded channel.peer count], none⟩ := by
  rw [decodeLists]
  split
  · rfl
  · split <;> simp_all

/-- Input that is not over is read as a list. -/
theorem decodeLists_of_input (hmore : isEnough limit count = false)
    (hend : channel.atEnd = (.ok false, channel₁)) :
    decodeLists flags limit count channel =
      match channel₁.scan flags expectedList with
      | ⟨.error e, _, log, _⟩ =>
          ⟨[], log.map (Message.ofEntry channel.peer),
            some (listFailure channel.peer (count + 1) e)⟩
      | ⟨.ok found, list, log, u⟩ =>
          (decodeLists flags limit (count + 1) { channel₁ with stream := u }).after
            (Bytes.ofText (Record.ofScan found list).text)
            (log.map (Message.ofEntry channel.peer)) := by
  rw [decodeLists, hmore, if_neg Bool.false_ne_true]
  split
  · rename_i h
    simp [hend] at h
  · rename_i h
    simp [hend] at h
  · rename_i channel₂ h
    rw [hend, Prod.mk.injEq] at h
    obtain ⟨-, rfl⟩ := h
    split
    · rename_i h
      rw [h]
      rfl
    · rename_i h
      rw [h]

theorem decodeLists_of_scan {found : Nat} {list : WishList} {log : List LogEntry} {u : Stream}
    (hmore : isEnough limit count = false) (hend : channel.atEnd = (.ok false, channel₁))
    (hscan : channel₁.scan flags expectedList = ⟨.ok found, list, log, u⟩) :
    decodeLists flags limit count channel =
      (decodeLists flags limit (count + 1) { channel₁ with stream := u }).after
        (Bytes.ofText (Record.ofScan found list).text)
        (log.map (Message.ofEntry channel.peer)) := by
  rw [decodeLists_of_input hmore hend, hscan]

theorem decodeLists_of_error {e : ScanError} (hmore : isEnough limit count = false)
    (hend : channel.atEnd = (.ok false, channel₁))
    (hscan : (channel₁.scan flags expectedList).outcome = .error e) :
    ∃ log, decodeLists flags limit count channel =
      ⟨[], log, some (listFailure channel.peer (count + 1) e)⟩ := by
  rw [decodeLists_of_input hmore hend]
  rcases hresult : channel₁.scan flags expectedList with ⟨outcome, list, log, u⟩
  obtain rfl : outcome = .error e := by rw [← hscan, hresult]
  exact ⟨_, rfl⟩

end

/-! ### A run of lists -/

/-- The text of the list is all that its record depends on, and is printed as `text`. -/
def PrintedAs (config : Config) (flags : Flags) (attributes : List (Bytes × Bytes))
    (text : String) : Prop :=
  ∃ found list log, (Record.ofScan found list).text = text ∧
    Exact (scan config flags expectedList) (fun r => Starved r.outcome) (listText attributes)
      fun u => ⟨.ok found, list, log, u⟩

theorem listText_ne_nil (attributes : List (Bytes × Bytes)) : listText attributes ≠ [] := by
  simp [listText, terminatorLine]

theorem Transcript.after_nil (t : Transcript) : t.after [] [] = t := rfl

theorem Transcript.after_after (t : Transcript) (stdout stdout' : Bytes)
    (log log' : List Message) :
    (t.after stdout' log').after stdout log = t.after (stdout ++ stdout') (log ++ log') := by
  simp [Transcript.after]

section

variable {config : Config} {flags : Flags} {limit : Option UInt64}
  {lists : List (List (Bytes × Bytes))} {texts : List String}

/-- **A run of lists is printed**, whatever follows it. -/
theorem decodeLists_append (h : List.Forall₂ (PrintedAs config flags) lists texts) {rest : Bytes}
    (peer : String) (count : Nat) (s : Stream) (hs : s.Brings (lists.flatMap listText ++ rest))
    (hmore : ∀ i < lists.length, isEnough limit (count + i) = false) :
    ∃ log s', s'.Brings rest ∧ decodeLists flags limit count ⟨peer, config, s⟩ =
      (decodeLists flags limit (count + lists.length) ⟨peer, config, s'⟩).after
        (texts.flatMap Bytes.ofText) log := by
  induction h generalizing count s with
  | nil => exact ⟨[], s, hs, (Transcript.after_nil _).symm⟩
  | @cons attributes text lists texts hfirst _ ih =>
      obtain ⟨found, list, log, htext, hexact⟩ := hfirst
      rw [List.flatMap_cons, List.append_assoc] at hs
      have hne : listText attributes ++ (lists.flatMap listText ++ rest) ≠ [] := by
        simp [listText_ne_nil]
      obtain ⟨s₁, hend, hs₁, hending, hunread⟩ := hs.atEnd_ne_nil hne peer config
      obtain ⟨u, hscan, hadv⟩ := hexact.whole hs₁.gapless (hs₁.ahead.trans hunread)
      have hu : u.Brings (lists.flatMap listText ++ rest) :=
        .pieces (hadv.steady hs₁) (hadv.ending.trans hending) (hadv.unread_eq_of_append hunread)
      obtain ⟨log', s', hs', hrun⟩ := ih (count + 1) u hu fun i hi => by
        have hlater := hmore (i + 1) (Nat.succ_lt_succ hi)
        rwa [← Nat.add_assoc, Nat.add_right_comm] at hlater
      have hfirst : isEnough limit count = false := hmore 0 (Nat.succ_pos _)
      refine ⟨log.map (Message.ofEntry peer) ++ log', s', hs', ?_⟩
      rw [decodeLists_of_scan hfirst hend hscan, htext, hrun, Transcript.after_after,
        List.flatMap_cons, List.length_cons, Nat.add_right_comm, Nat.add_assoc]

/-- **A list that is cut off** makes decoding fail, whatever its attributes. -/
theorem decodeLists_cut {attributes : List (Bytes × Bytes)} {cut : Bytes} {s : Stream}
    (hextra : flags.extra = false) (hmore : flags.more = false) (peer : String) (count : Nat)
    (hlimit : isEnough limit count = false) (hs : s.Brings cut) (hne : cut ≠ [])
    (hfront : cut <+: listText attributes) (hshort : cut ≠ listText attributes) :
    ∃ log e, decodeLists flags limit count ⟨peer, config, s⟩ =
        ⟨[], log, some (listFailure peer (count + 1) e)⟩ ∧
      (Printable config attributes → ∃ part, e = .prematureEof part) := by
  obtain ⟨s₁, hend, hs₁, hending, hunread⟩ := hs.atEnd_ne_nil hne peer config
  have hfails : ∀ n, (scan config flags expectedList s₁).outcome ≠ .ok n := by
    intro n hok
    obtain ⟨segment, hsegment, hadv⟩ := advances_segment_of_scan hs₁.gapless hmore hextra hok
    -- the scan would have found an empty line before the one that ends the list
    have hin : segment <+: cut := ⟨_, by rw [← hunread, hadv.unread]⟩
    have hwhole := (isSegment_listText attributes).2 segment (hin.trans hfront) hsegment.1
    rw [hwhole] at hin
    exact hshort (hfront.eq_of_length_le hin.length_le)
  cases houtcome : (scan config flags expectedList s₁).outcome with
  | ok n => exact absurd houtcome (hfails n)
  | error e =>
      obtain ⟨log, hrun⟩ := decodeLists_of_error hlimit hend houtcome
      refine ⟨log, e, hrun, fun hprintable => ?_⟩
      obtain ⟨found, list, log', -, hexact⟩ := exists_exact_expected hextra hprintable
      have hcut := hs₁.cutShort hending (hunread ▸ hfront) (hunread ▸ hshort)
      obtain ⟨part, hpart⟩ := hexact.short hcut
      exact ⟨part, Except.error.inj (houtcome.symm.trans hpart)⟩

/-- The first `limit` of some things, if a limit is given. -/
def upTo {α : Type} (limit : Option UInt64) (all : List α) : List α :=
  match limit with
  | some n => all.take n.toNat
  | none => all

theorem upTo_of_le {α : Type} {all : List α} (h : ∀ n, limit = some n → all.length ≤ n.toNat) :
    upTo limit all = all := by
  cases limit with
  | none => rfl
  | some n => exact List.take_of_length_le (h n rfl)

/-- As many lists as are asked for are printed, whatever follows them. -/
theorem decodeLists_take (h : List.Forall₂ (PrintedAs config flags) lists texts) {rest : Bytes}
    (peer : String) (s : Stream) (hs : s.Brings (lists.flatMap listText ++ rest)) {n : UInt64}
    (hn : n.toNat ≤ lists.length) :
    ∃ log, decodeLists flags (some n) 0 ⟨peer, config, s⟩ =
      ⟨(texts.take n.toNat).flatMap Bytes.ofText, log, none⟩ := by
  have hsplit : lists.flatMap listText ++ rest = (lists.take n.toNat).flatMap listText ++
      ((lists.drop n.toNat).flatMap listText ++ rest) := by
    rw [← List.append_assoc, ← List.flatMap_append, List.take_append_drop]
  have hlength : (lists.take n.toNat).length = n.toNat := by
    rw [List.length_take, Nat.min_eq_left hn]
  have hlimit : ∀ m, some n = some m → (lists.take n.toNat).length ≤ m.toNat := by
    intro m hm
    obtain rfl := Option.some.inj hm
    exact Nat.le_of_eq hlength
  rw [hsplit] at hs
  obtain ⟨log, s', -, hrun⟩ := decodeLists_append (List.forall₂_take n.toNat h) peer 0 s hs
    (isEnough_before hlimit)
  have hstop : isEnough (some n) (0 + n.toNat) = true := by simp [isEnough]
  rw [hlength, decodeLists_of_enough hstop] at hrun
  exact ⟨_, by rw [hrun, Transcript.after, List.append_nil]⟩

/-- Lists up to the end of the input are all printed, if that many are asked for. -/
theorem decodeLists_whole (h : List.Forall₂ (PrintedAs config flags) lists texts) (peer : String)
    (s : Stream) (hs : s.Brings (lists.flatMap listText))
    (hlimit : ∀ n, limit = some n → lists.length ≤ n.toNat) :
    ∃ log, decodeLists flags limit 0 ⟨peer, config, s⟩ =
      ⟨texts.flatMap Bytes.ofText, log, none⟩ := by
  rw [← List.append_nil (lists.flatMap listText)] at hs
  obtain ⟨log, s', hs', hrun⟩ := decodeLists_append h peer 0 s hs (isEnough_before hlimit)
  rw [decodeLists_of_end (hs'.atEnd_nil peer config)] at hrun
  exact ⟨_, by rw [hrun, Transcript.after, List.append_nil]⟩

end

/-! ### The command -/

/-- Lists that can be printed have records, and these are printed. -/
theorem exists_printed {config : Config} {flags : Flags} {lists : List (List (Bytes × Bytes))}
    (hextra : flags.extra = false) (h : ∀ attributes ∈ lists, Printable config attributes) :
    ∃ texts, List.Forall₂ Reports lists texts ∧
      List.Forall₂ (PrintedAs config flags) lists texts := by
  induction lists with
  | nil => exact ⟨[], .nil, .nil⟩
  | cons attributes lists ih =>
      obtain ⟨hfirst, hothers⟩ := List.forall_mem_cons.1 h
      obtain ⟨found, list, log, hreports, hexact⟩ := exists_exact_expected hextra hfirst
      obtain ⟨texts, hall, hprinted⟩ := ih hothers
      exact ⟨_ :: texts, .cons hreports hall, .cons ⟨found, list, log, rfl, hexact⟩ hprinted⟩

namespace Command

/-- The arguments and the surroundings make the command decode its standard input as the task
says. -/
structure DecodesInput (args : List String) (env : Environment) (task : ScanTask) (config : Config)
    (filter : LogFilter) : Prop where
  /-- The arguments ask for that, and the log can be set up. -/
  parsed : ∃ verbose, Invocation.parse args = .run ⟨verbose, .scan task⟩ ∧
    LogFilter.parse (filterText verbose env.logSetting).toList = .ok filter
  /-- No socket takes the place of the standard input. -/
  socket : task.socket = none
  /-- The configuration can be had. -/
  configured : task.configuration env = .ok config

theorem DecodesInput.run_eq {args : List String} {env : Environment} {task : ScanTask}
    {config : Config} {filter : LogFilter} (h : DecodesInput args env task config filter) :
    run args env = Transcript.outcome filter
      (decodeLists (task.flags.getD ⟨true, true, false⟩) task.lists 0
        ⟨"stdin", config, env.stdin⟩) := by
  obtain ⟨verbose, hparse, hfilter⟩ := h.parsed
  simp only [run, hparse, hfilter, perform, ScanTask.run, h.configured, ScanTask.channel, h.socket]

end Command

/-- **What the command prints for a run of lists**, if it is to skip what it does not look for: a
record for each list up to the end of the input, or for as many as are asked for.  If the input
stops within a list that is to be read, then the command fails, after the records of the lists
before it. -/
theorem run_scan_reports {args : List String} {env : Environment} {task : ScanTask}
    {config : Config} {filter : LogFilter} {lists : List (List (Bytes × Bytes))}
    (hrun : Command.DecodesInput args env task config filter)
    (hflags : task.flags = some ⟨false, false, false⟩ ∨ task.flags = some ⟨true, false, false⟩)
    (hlists : ∀ attributes ∈ lists, Printable config attributes) :
    ∃ texts, List.Forall₂ Reports lists texts ∧
      (∀ rest, env.stdin.Brings (lists.flatMap listText ++ rest) →
        (rest = [] ∨ ∃ n, task.lists = some n ∧ n.toNat ≤ lists.length) →
          ∃ stderr, Command.run args env =
            .finished 0 ((upTo task.lists texts).flatMap Bytes.ofText) stderr) ∧
      ∀ attributes cut, env.stdin.Brings (lists.flatMap listText ++ cut) → cut ≠ [] →
        cut <+: listText attributes → cut ≠ listText attributes →
        (∀ n, task.lists = some n → lists.length < n.toNat) →
          ∃ log e, Command.run args env = .finished 1 (texts.flatMap Bytes.ofText)
              (filter.text log ++ (listFailure "stdin" (lists.length + 1) e).text) ∧
            (Printable config attributes → ∃ part, e = .prematureEof part) := by
  obtain ⟨flags, hset, hextra, hmore⟩ : ∃ flags, task.flags.getD ⟨true, true, false⟩ = flags ∧
      flags.extra = false ∧ flags.more = false := by
    rcases hflags with hset | hset
    · exact ⟨_, by rw [hset, Option.getD_some], rfl, rfl⟩
    · exact ⟨_, by rw [hset, Option.getD_some], rfl, rfl⟩
  obtain ⟨texts, hreports, hprinted⟩ := exists_printed hextra hlists
  rw [hrun.run_eq, hset]
  refine ⟨texts, hreports, fun rest hinput hover => ?_, ?_⟩
  · obtain ⟨log, hdecode⟩ : ∃ log, decodeLists flags task.lists 0 ⟨"stdin", config, env.stdin⟩ =
        ⟨(upTo task.lists texts).flatMap Bytes.ofText, log, none⟩ := by
      by_cases henough : ∃ n, task.lists = some n ∧ n.toNat ≤ lists.length
      · obtain ⟨n, hn, hle⟩ := henough
        rw [hn]
        exact decodeLists_take hprinted "stdin" env.stdin hinput hle
      · obtain rfl := hover.resolve_right henough
        rw [List.append_nil] at hinput
        have hlimit : ∀ n, task.lists = some n → lists.length ≤ n.toNat :=
          fun n hn => Nat.le_of_not_le fun hle => henough ⟨n, hn, hle⟩
        rw [upTo_of_le (hprinted.length_eq ▸ hlimit)]
        exact decodeLists_whole hprinted "stdin" env.stdin hinput hlimit
    exact ⟨_, by rw [hdecode]; rfl⟩
  · intro attributes cut hinput hne hfront hshort hlimit
    obtain ⟨log, s', hs', hbefore⟩ := decodeLists_append hprinted "stdin" 0 env.stdin hinput
      (isEnough_before fun n hn => Nat.le_of_lt (hlimit n hn))
    obtain ⟨log', e, hcut, he⟩ := decodeLists_cut hextra hmore "stdin"
      (0 + lists.length) (isEnough_of_lt (by simpa using hlimit)) hs' hne hfront hshort
    refine ⟨log ++ log', e, ?_, he⟩
    rw [hbefore, hcut, Nat.zero_add, Transcript.after, List.append_nil]
    rfl

/-- A list with everything, one in which a name is missing, and one that is cut off. -/
theorem run_scan_reports_of_two :
    let pair (name value : String) := (Bytes.ofText name, Bytes.ofText value)
    let lists := [[pair "x" "", pair "number" "007", pair "long_number" "8", pair "string" "a b",
      pair "x" "2", pair "string" "3", pair "x" "4"], [pair "long_number" "1"]]
    let env (input : Bytes) : Environment :=
      ⟨.ofEvents [.data input] .closed, fun _ => .error (.ofKind .notFound), none⟩
    let run := Command.run ["scan", "--flags", "missing"]
    (∃ texts, List.Forall₂ Reports lists texts ∧ ∃ stderr,
      run (env (lists.flatMap listText)) = .finished 0 (texts.flatMap Bytes.ofText) stderr) ∧
    ∃ texts, List.Forall₂ Reports lists texts ∧ ∃ stderr,
      run (env (lists.flatMap listText ++ (listText [pair "string" ""]).take 4)) =
        .finished 1 (texts.flatMap Bytes.ofText) stderr := by
  intro pair lists env run
  obtain ⟨filter, hfilter⟩ :
      ∃ filter, LogFilter.parse (Command.filterText false none).toList = .ok filter := ⟨_, rfl⟩
  have hrun (input : Bytes) : Command.DecodesInput ["scan", "--flags", "missing"] (env input)
      ⟨none, some ⟨true, false, false⟩, none, none, none⟩ .standard filter :=
    ⟨⟨false, rfl, hfilter⟩, rfl, rfl⟩
  have hlists : ∀ attributes ∈ lists, Printable .standard attributes := by
    refine List.forall_mem_cons.2 ⟨⟨by decide, ?_⟩, List.forall_mem_cons.2 ⟨⟨by decide, ?_⟩, ?_⟩⟩
    · change Convertible expectedList.wishes _ [1, 2, 3]
      rintro (_ | _ | _ | i) place wish found hwish hplace hfound
      · cases hwish; cases hplace; cases hfound; decide
      · cases hwish; cases hplace; cases hfound; decide
      · cases hwish; cases hplace; cases hfound; decide
      · simp at hplace
    · change Convertible expectedList.wishes _ []
      intro i place wish found hwish hplace
      simp at hplace
    · simp
  constructor
  · obtain ⟨texts, hreports, hprints, -⟩ := run_scan_reports (hrun _) (.inr rfl) hlists
    exact ⟨texts, hreports, hprints [] (.atOnce (by simp [env])) (.inl rfl)⟩
  · obtain ⟨texts, hreports, -, hprints⟩ := run_scan_reports (hrun _) (.inr rfl) hlists
    obtain ⟨log, e, hfails, -⟩ := hprints [pair "string" ""] _ (.atOnce rfl) (by decide)
      (List.take_prefix 4 _) (by decide) (by simp)
    exact ⟨texts, hreports, _, hfails⟩

end AttributeWire
