/-
**Where a scan ends.**

A scan that is to read to the end of the list, and does not fail, reads whole lines first.  Then it
reads the empty line that ends the list, and so ends at the first empty line of the input; or an
attribute stops it, and it ends short of the empty line, behind the name of an attribute that was
not asked for, or behind the line of one that was captured before.  Nothing is assumed of the input
but that no piece of it is empty; faults may come anywhere.

Main definitions:

* `LogEntry.Stops`, `Unstopped` — warnings about an attribute that stops the scan;
* `PastLines` — a stream is reached past whole lines and some last bytes;
* `Halt`, `SeekEnd`, `SatisfyEnd` — the last bytes of a scan, of a search and of the named wishes,
  and what was logged.

Main results:

* `pastLines_seek`, `pastLines_satisfy`, `pastLines_gather`, `pastLines_scan` — **every step reads
  past whole lines** first;
* `advances_segment_of_scan` — a scan that no attribute may stop **reads past a segment**;
* `scan_boundary` — **a scan ends at the first empty line or short of it**, and which of the two.
-/

import AttributeWire.Proofs.CommonPrefix
import AttributeWire.Proofs.Segment

set_option relaxedAutoImplicit false
set_option autoImplicit false

namespace AttributeWire

/-! ### Warnings about an attribute that stops the scan -/

/-- The entry is a warning about an attribute that stops the scan. -/
def LogEntry.Stops : LogEntry → Prop
  | .spurious _ => True
  | .duplicate _ => True
  | _ => False

/-- No attribute stopped the scan. -/
def Unstopped (log : List LogEntry) : Prop := ∀ entry ∈ log, ¬ entry.Stops

section

variable {log more : List LogEntry}

@[simp] theorem unstopped_nil : Unstopped [] := by simp [Unstopped]

@[simp] theorem unstopped_append : Unstopped (log ++ more) ↔ Unstopped log ∧ Unstopped more := by
  simp [Unstopped, or_imp, forall_and]

@[simp] theorem unstopped_wanted_cons (target : Wanted) :
    Unstopped (.wanted target :: log) ↔ Unstopped log := by
  simp [Unstopped, LogEntry.Stops]

@[simp] theorem unstopped_nameRead_cons (plain : Bytes) :
    Unstopped (.nameRead plain :: log) ↔ Unstopped log := by
  simp [Unstopped, LogEntry.Stops]

@[simp] theorem unstopped_valueRead_cons (plain : Bytes) :
    Unstopped (.valueRead plain :: log) ↔ Unstopped log := by
  simp [Unstopped, LogEntry.Stops]

@[simp] theorem unstopped_missingWarning (target : Wanted) (flags : Flags) :
    Unstopped (target.missingWarning flags) := by
  cases target with
  | named name =>
      simp only [Wanted.missingWarning]
      split <;> simp [Unstopped, LogEntry.Stops]
  | any => exact unstopped_nil
  | terminator => exact unstopped_nil

theorem not_unstopped_concat {entry : LogEntry} (h : entry.Stops) : ¬ Unstopped (log ++ [entry]) :=
  fun hlog => hlog entry (by simp) h

end

/-! ### Past whole lines -/

/-- The second stream is reached past whole lines, none of them empty, and some last bytes. -/
def PastLines (s u : Stream) (P : Bytes → Prop) : Prop :=
  ∃ lines part, Lines lines ∧ s.Advances (lines ++ part) u ∧ P part

namespace PastLines

variable {s t u : Stream} {P Q : Bytes → Prop} {lines part : Bytes}

theorem of_advances (hadv : s.Advances part u) (h : P part) : PastLines s u P :=
  ⟨[], part, .nil, hadv, h⟩

theorem mono (h : PastLines s u P) (himp : ∀ part, P part → Q part) : PastLines s u Q := by
  obtain ⟨lines, part, hlines, hadv, hpart⟩ := h
  exact ⟨lines, part, hlines, hadv, himp part hpart⟩

/-- More whole lines in front change nothing. -/
theorem after (hlines : Lines lines) (hadv : s.Advances lines t) (h : PastLines t u P) :
    PastLines s u P := by
  obtain ⟨more, part, hmore, hadv', hpart⟩ := h
  refine ⟨lines ++ more, part, hlines.append hmore, ?_, hpart⟩
  rw [List.append_assoc]
  exact hadv.trans hadv'

end PastLines

/-! ### The last bytes of a scan -/

/-- How a scan ends behind whole lines: the bytes that are read last, and the log. -/
inductive Halt (flags : Flags) : Bytes → List LogEntry → Prop
  /-- With the empty line. -/
  | ended {log : List LogEntry} (hlog : Unstopped log) : Halt flags [Bytes.newline] log
  /-- Behind the name of an attribute that was not asked for. -/
  | spurious {log : List LogEntry} {raw : Bytes} {name : Field} (hextra : flags.extra = true)
      (hraw : raw.Undelimited) (hplain : Base64.decode? raw = some name.plain)
      (hname : ¬ name.IsTerminator) (hlog : Unstopped log) :
      Halt flags (raw ++ [name.delimiter.byte]) (log ++ [.spurious name.plain])
  /-- Behind the line of an attribute that was captured before. -/
  | duplicate {log : List LogEntry} (hextra : flags.extra = true) (name : Bytes)
      (hlog : Unstopped log) : Halt flags [] (log ++ [.duplicate name])

theorem Halt.after {flags : Flags} {part : Bytes} {log before : List LogEntry}
    (h : Halt flags part log) (hbefore : Unstopped before) : Halt flags part (before ++ log) := by
  cases h with
  | ended hlog => exact .ended (unstopped_append.2 ⟨hbefore, hlog⟩)
  | spurious hextra hraw hplain hname hlog =>
      rw [← List.append_assoc]
      exact .spurious hextra hraw hplain hname (unstopped_append.2 ⟨hbefore, hlog⟩)
  | duplicate hextra name hlog =>
      rw [← List.append_assoc]
      exact .duplicate hextra name (unstopped_append.2 ⟨hbefore, hlog⟩)

/-! ### What a name takes -/

section

variable {config : Config} {flags : Flags} {target : Wanted} {s s₁ s₂ : Stream} {name : Field}
  {log log' : List LogEntry} {raw : Bytes}

theorem advances_of_readName (hs : s.Gapless) (h : readName config s = ⟨.ok name, log, s₁⟩) :
    ∃ raw, raw.Undelimited ∧ Base64.decode? raw = some name.plain ∧
      s.Advances (raw ++ [name.delimiter.byte]) s₁ ∧ log = [.nameRead name.plain] := by
  unfold readName at h
  split at h
  · rename_i field gathered s₁ hread
    simp only [Attempt.mk.injEq, Except.ok.injEq] at h
    obtain ⟨rfl, rfl, rfl⟩ := h
    obtain ⟨raw, hraw, -, hplain, hadv⟩ := advances_of_readField hs hread
    exact ⟨raw, hraw, hplain, hadv, rfl⟩
  · simp at h

/-- A name that ends the line is a whole line, unless it ends the list. -/
theorem lines_of_name (hraw : raw.Undelimited) (hplain : Base64.decode? raw = some name.plain)
    (hname : ¬ name.IsTerminator) (hend : name.delimiter = .newline) :
    Lines (raw ++ [Bytes.newline]) := by
  refine .single ?_ hraw.newline_not_mem
  rintro rfl
  obtain ⟨plain, delimiter⟩ := name
  obtain rfl : [] = plain := Option.some.inj hplain
  exact hname (by rw [Field.IsTerminator, show delimiter = .newline from hend])

theorem raw_of_isTerminator (hplain : Base64.decode? raw = some name.plain)
    (hname : name.IsTerminator) : raw ++ [name.delimiter.byte] = [Bytes.newline] := by
  obtain rfl : name = ⟨[], .newline⟩ := hname
  rw [Base64.eq_nil_of_decode? hplain]
  rfl

theorem delimiter_eq_colon (h : ¬ name.delimiter = .newline) : name.delimiter = .colon := by
  cases hd : name.delimiter with
  | colon => rfl
  | newline => exact absurd hd h

theorem newline_not_mem_colon (hraw : raw.Undelimited) :
    Bytes.newline ∉ raw ++ [Delimiter.colon.byte] := by
  rw [List.mem_append]
  exact not_or.2 ⟨hraw.newline_not_mem, by decide⟩

/-- A name before a colon and the rest of its line are a whole line. -/
theorem lines_of_colon {line : Bytes} (hraw : raw.Undelimited) (hline : Bytes.newline ∉ line) :
    Lines (raw ++ [Bytes.colon] ++ (line ++ [Bytes.newline])) := by
  rw [← List.append_assoc]
  refine .single (by simp) ?_
  simp only [List.mem_append, List.mem_singleton, not_or]
  exact ⟨⟨hraw.newline_not_mem, by decide⟩, hline⟩

/-! ### What a search takes -/

/-- At the end of its input a search fails. -/
theorem seek_of_end (config : Config) (flags : Flags) (target : Wanted) {t : Stream}
    (h : s.access = (.ok [], t)) :
    (seek config flags target s).outcome = .error (.prematureEof .name) := by
  have hread : (readField config.fieldLimit s).outcome = .error .prematureEof :=
    readField_of_end h
  obtain ⟨raw, s₁, hfield⟩ := readField_of_prematureEof hread
  have hname : readName config s = ⟨.error (.prematureEof .name), [], s₁⟩ := by
    rw [readName, hfield]
    rfl
  rw [seek_of_readName_error hname]

/-- How a search ends behind whole lines: what it found, the bytes that are read last, and the
log. -/
inductive SeekEnd (flags : Flags) (target : Wanted) : Sighting → Bytes → List LogEntry → Prop
  /-- The scan is over. -/
  | stopped {part : Bytes} {log : List LogEntry} (h : Halt flags part log) :
      SeekEnd flags target .stopped part log
  /-- The name that is wanted was read. -/
  | found {raw : Bytes} {name : Field} {log : List LogEntry} (haccepts : target.Accepts name.plain)
      (hraw : raw.Undelimited) (hlog : Unstopped log) :
      SeekEnd flags target (.found name) (raw ++ [name.delimiter.byte]) log

theorem SeekEnd.after {sighting : Sighting} {part : Bytes} {before : List LogEntry}
    (h : SeekEnd flags target sighting part log) (hbefore : Unstopped before) :
    SeekEnd flags target sighting part (before ++ log) := by
  cases h with
  | stopped h => exact .stopped (h.after hbefore)
  | found haccepts hraw hlog =>
      exact .found haccepts hraw (unstopped_append.2 ⟨hbefore, hlog⟩)

/-- **A search reads past whole lines** first. -/
theorem pastLines_seek {sighting : Sighting} (hs : s.Gapless)
    (h : (seek config flags target s).outcome = .ok sighting) :
    PastLines s (seek config flags target s).stream fun part =>
      SeekEnd flags target sighting part (seek config flags target s).log := by
  fun_induction seek config flags target s with
  | case1 => simp at h
  | case2 s log s₁ hread =>
      obtain rfl : Sighting.stopped = sighting := Except.ok.inj h
      obtain ⟨raw, hraw, hplain, hadv, rfl⟩ := advances_of_readName hs hread
      rw [raw_of_isTerminator hplain rfl] at hadv
      exact .of_advances hadv (.stopped (.ended (by simp)))
  | case3 s name log s₁ hread hname hacc =>
      obtain rfl : Sighting.found name = sighting := Except.ok.inj h
      obtain ⟨raw, hraw, hplain, hadv, rfl⟩ := advances_of_readName hs hread
      exact .of_advances hadv (.found hacc hraw (by simp))
  | case4 s name log s₁ hread hname hacc hextra =>
      obtain rfl : Sighting.stopped = sighting := Except.ok.inj h
      obtain ⟨raw, hraw, hplain, hadv, rfl⟩ := advances_of_readName hs hread
      exact .of_advances hadv (.stopped (.spurious hextra hraw hplain hname (by simp)))
  | case5 s name log s₁ hread hname hacc hextra hend ih =>
      obtain ⟨raw, hraw, hplain, hadv, rfl⟩ := advances_of_readName hs hread
      have hrest := ih hadv.gapless h
      rw [hend] at hadv
      exact .after (lines_of_name hraw hplain hname hend) hadv
        (hrest.mono fun part hpart => hpart.after (by simp))
  | case6 => simp at h
  | case7 s name log s₁ hread hname hacc hextra hend whole s₂ hskip ih =>
      obtain ⟨raw, hraw, hplain, hadv₁, rfl⟩ := advances_of_readName hs hread
      cases whole with
      | false =>
          -- the input ended within the line, so that the search has failed
          have hend := access_of_skipLine hadv₁.gapless hskip
          rw [Attempt.after, seek_of_end config flags target hend] at h
          simp at h
      | true =>
          obtain ⟨line, hline, hadv₂⟩ := advances_of_skipLine hadv₁.gapless hskip
          have hrest := ih hadv₂.gapless h
          rw [delimiter_eq_colon hend] at hadv₁
          exact .after (lines_of_colon hraw hline) (hadv₁.trans hadv₂)
            (hrest.mono fun part hpart => hpart.after (by simp))

/-- A search that stops has ended the scan. -/
theorem pastLines_of_stopped (hs : s.Gapless)
    (hseek : seek config flags target s = ⟨.ok .stopped, log, s₁⟩) :
    PastLines s s₁ fun part => Halt flags part log := by
  have hstopped : (seek config flags target s).outcome = .ok .stopped := by rw [hseek]
  have hend := pastLines_seek hs hstopped
  rw [hseek] at hend
  refine hend.mono fun part hpart => ?_
  cases hpart with
  | stopped hhalt => exact hhalt

/-! ### What an attribute takes -/

theorem advances_of_readValue {kind : String} {value : Bytes} (hs : s.Gapless)
    (h : readValue config kind name s = ⟨.ok value, log, s₁⟩) :
    ¬ name.delimiter = .newline ∧ log = [.valueRead value] ∧
      ∃ raw, raw.Undelimited ∧ s.Advances (raw ++ [Bytes.newline]) s₁ := by
  unfold readValue at h
  split at h
  · simp at h
  · rename_i hcolon
    split at h
    · simp at h
    · rename_i plain gathered s₁ hread
      simp only [Attempt.mk.injEq, Except.ok.injEq] at h
      obtain ⟨rfl, rfl, rfl⟩ := h
      obtain ⟨raw, hraw, -, -, hadv⟩ := advances_of_readField hs hread
      exact ⟨hcolon, rfl, raw, hraw, hadv⟩
    · simp at h

/-- **An attribute that is wanted is read with its line**, after the lines that are skipped. -/
theorem advances_of_met {kind : String} {value : Bytes} (hs : s.Gapless)
    (hseek : seek config flags target s = ⟨.ok (.found name), log, s₁⟩)
    (hvalue : readValue config kind name s₁ = ⟨.ok value, log', s₂⟩) :
    ∃ lines, Lines lines ∧ s.Advances lines s₂ ∧ Unstopped (log ++ log') := by
  have hfound : (seek config flags target s).outcome = .ok (.found name) := by rw [hseek]
  obtain ⟨lines, part, hlines, hadv₁, hpart⟩ := pastLines_seek hs hfound
  rw [hseek] at hadv₁ hpart
  obtain ⟨hcolon, rfl, raw, hraw, hadv₂⟩ := advances_of_readValue hadv₁.gapless hvalue
  cases hpart with
  | found haccepts hname hlog =>
      rw [delimiter_eq_colon hcolon] at hadv₁
      have hadv := hadv₁.trans hadv₂
      rw [List.append_assoc] at hadv
      exact ⟨_, hlines.append (lines_of_colon hname hraw.newline_not_mem), hadv,
        by simpa using hlog⟩

/-! ### What the named wishes and a capture take -/

/-- How meeting named wishes ends behind whole lines: the progress, the bytes that are read last,
and the log. -/
inductive SatisfyEnd (flags : Flags) : Progress → Bytes → List LogEntry → Prop
  /-- All are met, each by a whole line. -/
  | complete {log : List LogEntry} (hlog : Unstopped log) : SatisfyEnd flags .complete [] log
  /-- The scan is over. -/
  | stopped {part : Bytes} {log : List LogEntry} (h : Halt flags part log) :
      SatisfyEnd flags .stopped part log

theorem SatisfyEnd.after {progress : Progress} {part : Bytes} {before : List LogEntry}
    (h : SatisfyEnd flags progress part log) (hbefore : Unstopped before) :
    SatisfyEnd flags progress part (before ++ log) := by
  cases h with
  | complete hlog => exact .complete (unstopped_append.2 ⟨hbefore, hlog⟩)
  | stopped h => exact .stopped (h.after hbefore)

/-- **Named wishes that are met take whole lines**; one that cannot be met ends the scan. -/
theorem pastLines_satisfy (config : Config) (flags : Flags) (wishes : List Wish) (hs : s.Gapless)
    (h : ∀ e, (satisfy config flags wishes s).progress ≠ .failed e) :
    PastLines s (satisfy config flags wishes s).stream fun part =>
      SatisfyEnd flags (satisfy config flags wishes s).progress part
        (satisfy config flags wishes s).log := by
  fun_induction satisfy config flags wishes s with
  | case1 s => exact .of_advances (.refl hs) (.complete unstopped_nil)
  | case2 => simp at h
  | case3 wish wishes s log s₁ hseek =>
      exact (pastLines_of_stopped hs hseek).mono fun part hhalt => .stopped hhalt
  | case4 => simp at h
  | case5 => simp at h
  | case6 wish wishes s name log s₁ hseek value log' s₂ hvalue stored hstored ih =>
      obtain ⟨lines, hlines, hadv, hlog⟩ := advances_of_met hs hseek hvalue
      exact .after hlines hadv ((ih hadv.gapless h).mono fun part hpart => hpart.after hlog)

/-- **A capture takes whole lines** until it ends the scan. -/
theorem pastLines_gather {table : Table} (hs : s.Gapless)
    (h : (gather config flags table s).outcome = .ok ()) :
    PastLines s (gather config flags table s).stream fun part =>
      Halt flags part (gather config flags table s).log := by
  fun_induction gather config flags table s with
  | case1 => simp at h
  | case2 table s log s₁ hseek => exact pastLines_of_stopped hs hseek
  | case3 => simp at h
  | case4 table s name log s₁ hseek value log' s₂ hvalue old hold hextra =>
      obtain ⟨lines, hlines, hadv, hlog⟩ := advances_of_met hs hseek hvalue
      exact .after hlines hadv (.of_advances (.refl hadv.gapless) (.duplicate hextra _ hlog))
  | case5 table s name log s₁ hseek value log' s₂ hvalue old hold hextra ih =>
      obtain ⟨lines, hlines, hadv, hlog⟩ := advances_of_met hs hseek hvalue
      exact .after hlines hadv ((ih hadv.gapless h).mono fun part hhalt => hhalt.after hlog)
  | case6 table s name log s₁ hseek value log' s₂ hvalue hnew ih =>
      obtain ⟨lines, hlines, hadv, hlog⟩ := advances_of_met hs hseek hvalue
      exact .after hlines hadv ((ih hadv.gapless h).mono fun part hhalt => hhalt.after hlog)

/-! ### What a scan takes -/

/-- Behind the named wishes, the capture or the search for the end of the list ends the scan. -/
theorem pastLines_finish {capture : Option Table} {named : Satisfied} {n : Nat}
    (hs : named.stream.Gapless) (hmore : flags.more = false) (hlog : Unstopped named.log)
    (h : (finish config flags capture named).outcome = .ok n) :
    PastLines named.stream (finish config flags capture named).stream fun part =>
      Halt flags part (finish config flags capture named).log := by
  cases capture with
  | some table =>
      simp only [finish] at h ⊢
      cases hgather : (gather config flags table named.stream).outcome with
      | error e => simp [hgather, Except.map] at h
      | ok u => exact (pastLines_gather hs hgather).mono fun part hhalt => hhalt.after hlog
  | none =>
      simp only [finish, hmore, Bool.false_eq_true, if_false] at h ⊢
      cases hseek : (seek config flags .terminator named.stream).outcome with
      | error e => simp [hseek, Except.map] at h
      | ok sighting =>
          refine (pastLines_seek hs hseek).mono fun part hpart => ?_
          cases hpart with
          | stopped hhalt => exact hhalt.after hlog
          | found haccepts _ _ => exact absurd haccepts (Wanted.not_accepts_terminator _)

/-- **A scan reads past whole lines**, and then ends. -/
theorem pastLines_scan {list : WishList} {n : Nat} (hs : s.Gapless) (hmore : flags.more = false)
    (h : (scan config flags list s).outcome = .ok n) :
    PastLines s (scan config flags list s).stream fun part =>
      Halt flags part (scan config flags list s).log := by
  have hnamed := pastLines_satisfy config flags list.wishes hs
  unfold scan at h ⊢
  simp only at h ⊢
  cases hprogress : (satisfy config flags list.wishes s).progress with
  | failed e => simp [hprogress] at h
  | stopped =>
      refine (hnamed (by simp [hprogress])).mono fun part hpart => ?_
      rw [hprogress] at hpart
      cases hpart with
      | stopped hhalt => exact hhalt
  | complete =>
      obtain ⟨lines, part, hlines, hadv, hpart⟩ := hnamed (by simp [hprogress])
      rw [hprogress] at hpart
      generalize hlog : (satisfy config flags list.wishes s).log = log at hpart
      cases hpart with
      | complete hunstopped =>
          simp only [hprogress] at h ⊢
          rw [List.append_nil] at hadv
          exact .after hlines hadv (pastLines_finish hadv.gapless hmore (hlog ▸ hunstopped) h)

/-! ### Where the list ends -/

theorem Halt.unstopped {part : Bytes} (h : Halt flags part log) (hextra : flags.extra = false) :
    Unstopped log := by
  cases h with
  | ended hlog => exact hlog
  | spurious hstrict _ _ _ _ => simp [hextra] at hstrict
  | duplicate hstrict _ _ => simp [hextra] at hstrict

/-- Behind whole lines the last bytes make a segment exactly if no attribute stopped the scan. -/
theorem Halt.isSegment_iff {lines part : Bytes} (h : Halt flags part log) (hlines : Lines lines) :
    IsSegment (lines ++ part) ↔ Unstopped log := by
  cases h with
  | ended hlog => exact iff_of_true hlines.isSegment hlog
  | @spurious earlier raw name hextra hraw hplain hname hlog =>
      refine iff_of_false (fun hseg => ?_) (not_unstopped_concat trivial)
      have hend := (hlines.endsInEmptyLine_append_iff _).1 hseg.1
      cases hd : name.delimiter with
      | colon =>
          rw [hd] at hend
          exact newline_not_mem_colon hraw (newline_mem_of_endsInEmptyLine hend)
      | newline =>
          rw [hd] at hend
          exact (lines_of_name hraw hplain hname hd).not_endsInEmptyLine_of_front
            (List.prefix_refl _) hend
  | duplicate hextra name hlog =>
      refine iff_of_false (fun hseg => ?_) (not_unstopped_concat trivial)
      exact not_endsInEmptyLine_nil ((hlines.endsInEmptyLine_append_iff _).1 hseg.1)

/-- **A scan that no attribute may stop reads past a segment.** -/
theorem advances_segment_of_scan {list : WishList} {n : Nat} (hs : s.Gapless)
    (hmore : flags.more = false) (hextra : flags.extra = false)
    (h : (scan config flags list s).outcome = .ok n) :
    ∃ segment, IsSegment segment ∧ s.Advances segment (scan config flags list s).stream := by
  obtain ⟨lines, part, hlines, hadv, hhalt⟩ := pastLines_scan hs hmore h
  exact ⟨lines ++ part, (hhalt.isSegment_iff hlines).2 (hhalt.unstopped hextra), hadv⟩

/-- A list with one attribute more than is wanted, under strict flags, and a list behind it. -/
theorem ends_of_surplus :
    (scan .standard ⟨true, true, false⟩ ⟨[⟨[97], .str []⟩], none⟩
      (.bytewise (listText [([97], [49]), ([98], [50])] ++ listText [([97], [49])])
        .closed)).Ends 1 none [.spurious [98]]
      (Base64.encode [50] ++ Bytes.newline :: (listText [] ++ listText [([97], [49])])) := by
  have hconv : Convertible [⟨[97], .str []⟩] [([97], [49]), ([98], [50])] (List.range 1) := by
    rintro (_ | i) place wish pair hwish hplace hpair
    · cases hwish
      rfl
    · simp at hplace
  have hfits : Config.standard.FitsAll [([97], [49]), ([98], [50])] := by decide
  have hscan : StrictScan ⟨true, true, false⟩ [⟨[97], .str []⟩] none [([97], [49]), ([98], [50])]
      (listText [([97], [49])]) 1 _ :=
    strictScan_of_eq rfl (Stream.steady_bytewise _ .closed) (Stream.unread_bytewise _ _)
      hfits rfl hconv rfl
  simpa [stopWarning, stopText] using hscan.ended rfl rfl rfl

/-- **A scan ends at the first empty line or short of it.**  It reads past whole lines, none of them
empty, and then past the empty line, unless an attribute that may not be skipped stopped it: then it
stands behind the name of that attribute, or behind its line if it was captured before. -/
theorem scan_boundary {list : WishList} {n : Nat} (hs : s.Gapless) (hmore : flags.more = false)
    (h : (scan config flags list s).outcome = .ok n) :
    let r := scan config flags list s
    ∃ lines part, Lines lines ∧ s.unread = (lines ++ part) ++ r.stream.unread ∧
      Halt flags part r.log ∧ (IsSegment (lines ++ part) ↔ Unstopped r.log) ∧
      (flags.extra = false → IsSegment (lines ++ part)) := by
  obtain ⟨lines, part, hlines, hadv, hhalt⟩ := pastLines_scan hs hmore h
  have hiff := hhalt.isSegment_iff hlines
  refine ⟨lines, part, hlines, hadv.unread, hhalt, hiff, ?_⟩
  intro hextra
  exact hiff.2 (hhalt.unstopped hextra)

/-- The surplus attribute stops the scan, without an error. -/
theorem scan_boundary_of_surplus :
    let r := scan .standard ⟨true, true, false⟩ ⟨[⟨[97], .str []⟩], none⟩
      (.bytewise (listText [([97], [49]), ([98], [50])] ++ listText [([97], [49])]) .closed)
    ∃ lines part, Lines lines ∧
      listText [([97], [49]), ([98], [50])] ++ listText [([97], [49])] =
        (lines ++ part) ++ r.stream.unread ∧
      Halt ⟨true, true, false⟩ part r.log ∧ (IsSegment (lines ++ part) ↔ Unstopped r.log) ∧
      (true = false → IsSegment (lines ++ part)) := by
  have hwire := Stream.unread_bytewise
    (listText [([97], [49]), ([98], [50])] ++ listText [([97], [49])]) .closed
  rw [← hwire]
  exact scan_boundary (Stream.steady_bytewise _ _).gapless rfl ends_of_surplus.outcome

/-- Not every scan without an error ends with the list: the surplus attribute leaves the stream
within its line. -/
theorem not_scan_segment :
    ¬ ∀ (config : Config) (flags : Flags) (list : WishList) (s : Stream) (n : Nat), s.Steady →
      flags.more = false → (scan config flags list s).outcome = .ok n →
        ∃ consumed, s.unread = consumed ++ (scan config flags list s).stream.unread ∧
          IsSegment consumed := by
  intro h
  obtain ⟨consumed, heq, hseg⟩ :=
    h _ _ _ _ _ (Stream.steady_bytewise _ _) rfl ends_of_surplus.outcome
  rw [Stream.unread_bytewise, ends_of_surplus.unread] at heq
  have hfront : listText [([97], [49]), ([98], [50])] ++ listText [([97], [49])] =
      attributeLine [97] [49] ++ Base64.encode [98] ++ [Bytes.colon] ++
        (Base64.encode [50] ++ Bytes.newline :: (listText [] ++ listText [([97], [49])])) := by
    decide
  rw [hfront] at heq
  rw [← List.append_cancel_right heq] at hseg
  exact absurd hseg.1 (by decide)

end

end AttributeWire
