/-
**The course of a scan, line by line.**

A scan passes one line after the other and then stops.  A line is passed by skipping it, by storing
the value that is wanted, or by capturing the attribute; what is wanted next depends on the wishes
that are left.  The scan stops at the empty line, at an attribute that may not be skipped, where a
step fails, or at once if nothing is wanted any more.

Nothing is assumed of the stream.  If the input ends within a line that is skipped, then the next
name finds that out; but if the end of input is lifted just then, the scan goes on in the middle of
the line, and the line was passed only in part.

Main definitions:

* `Pass`, `Breakdown`, `Stop` — one line that is passed, a step that fails, and the ways to stop;
* `Reaches` — the lines that are passed, one after the other;
* `IsLine`, `IsPart` — a whole line that is not empty, and the beginning of one;
* `Cuts`, `Uncut` — a line is passed only in part, and no line is;
* `PassedLines` — the lines and parts of lines that a scan passes.

Main results:

* `scan_of_pass`, `scan_of_stop` — **a scan does what its next line says**;
* `scan_of_reaches` — and what all the lines that it passes say;
* `exists_course` — **every scan passes lines and then stops**;
* `Pass.unread` — **a line that is passed stood in front**, whole unless it is cut;
* `Stream.Gapless.uncut`, `PassedLines.isLine` — no line is cut if no piece of data is empty, and
  then all are whole;
* `captured_of_reaches` — **a capture passes the lines of attributes** only.
-/

import AttributeWire.Proofs.Boundary
import AttributeWire.Proofs.Onward
import AttributeWire.Proofs.Reading
import AttributeWire.Proofs.Table
import Mathlib.Data.List.Forall2

set_option relaxedAutoImplicit false
set_option autoImplicit false

namespace AttributeWire

/-! ### Lines that are passed -/

section

variable (config : Config) (flags : Flags)

/-- The scan looks for something, and reads a name. -/
structure Sees (list : WishList) (s : Stream) (target : Wanted) (name : Field) (s₁ : Stream) :
    Prop where
  wanted : list.wanted? flags = some target
  read : readName config s = ⟨.ok name, [.nameRead name.plain], s₁⟩

/-- It is the name of an attribute that the scan does not look for. -/
structure Refuses (list : WishList) (s : Stream) (target : Wanted) (name : Field) (s₁ : Stream) :
    Prop extends Sees config flags list s target name s₁ where
  unended : ¬ name.IsTerminator
  refused : ¬ target.Accepts name.plain

/-- It is the name of an attribute that the scan looks for, and its value can be read. -/
structure Takes (list : WishList) (s : Stream) (target : Wanted) (name : Field) (value : Bytes)
    (s₂ : Stream) : Prop where
  accepts : target.Accepts name.plain
  sees : ∃ s₁, Sees config flags list s target name s₁ ∧
    readValue config list.kindText name s₁ = ⟨.ok value, [.valueRead value], s₂⟩

/-- A line that a scan passes: what it adds to the result, and what is left of the wish list and of
the stream. -/
inductive Pass : WishList → Stream → Gain → WishList → Stream → Prop
  /-- A name without a value is skipped. -/
  | bare {list : WishList} {s s' : Stream} {target : Wanted} {name : Field}
      (h : Refuses config flags list s target name s') (hextra : flags.extra = false)
      (hend : name.delimiter = .newline) :
      Pass list s (.logged [.wanted target, .nameRead name.plain]) list s'
  /-- The rest of the line is skipped. -/
  | skipped {list : WishList} {s s₁ s' : Stream} {target : Wanted} {name : Field}
      (h : Refuses config flags list s target name s₁) (hextra : flags.extra = false)
      (hend : name.delimiter = .colon) (hskip : skipLine s₁ = (.ok true, s')) :
      Pass list s (.logged [.wanted target, .nameRead name.plain]) list s'
  /-- The input ends within the line that is skipped, and then goes on. -/
  | cut {list : WishList} {s s₁ s' : Stream} {target : Wanted} {name : Field}
      (h : Refuses config flags list s target name s₁) (hextra : flags.extra = false)
      (hend : name.delimiter = .colon) (hskip : skipLine s₁ = (.ok false, s'))
      (hlifted : ∀ t, s'.access ≠ (.ok [], t)) :
      Pass list s (.logged [.wanted target, .nameRead name.plain]) list s'
  /-- The value is stored. -/
  | met {wish : Wish} {wishes : List Wish} {capture : Option Table} {s s' : Stream}
      {target : Wanted} {name : Field} {value : Bytes} {stored : Value}
      (h : Takes config flags ⟨wish :: wishes, capture⟩ s target name value s')
      (hstored : wish.value.read? value = some stored) :
      Pass ⟨wish :: wishes, capture⟩ s
        ⟨[⟨wish.name, stored⟩], 1, [.wanted target, .nameRead name.plain, .valueRead value]⟩
        ⟨wishes, capture⟩ s'
  /-- The attribute is captured. -/
  | captured {table : Table} {s s' : Stream} {target : Wanted} {name : Field} {value : Bytes}
      (h : Takes config flags ⟨[], some table⟩ s target name value s')
      (hnew : table.get? name.plain = none) :
      Pass ⟨[], some table⟩ s
        ⟨[], 1, [.wanted target, .nameRead name.plain, .valueRead value]⟩
        ⟨[], some (table.insert name.plain value)⟩ s'
  /-- An attribute of the name is captured already. -/
  | repeated {table : Table} {s s' : Stream} {target : Wanted} {name : Field} {value : Bytes}
      (h : Takes config flags ⟨[], some table⟩ s target name value s')
      (hextra : flags.extra = false) (hold : (table.get? name.plain).isSome) :
      Pass ⟨[], some table⟩ s
        (.logged [.wanted target, .nameRead name.plain, .valueRead value])
        ⟨[], some table⟩ s'

/-- A step that fails: the error, what was logged, and the stream afterwards. -/
inductive Breakdown : WishList → Stream → ScanError → List LogEntry → Stream → Prop
  /-- The name cannot be read. -/
  | name {list : WishList} {s u : Stream} {target : Wanted} {e : ScanError}
      (hwanted : list.wanted? flags = some target) (h : readName config s = ⟨.error e, [], u⟩) :
      Breakdown list s e [.wanted target] u
  /-- A fault comes within a line that is skipped. -/
  | skip {list : WishList} {s s₁ u : Stream} {target : Wanted} {name : Field} {fault : Fault}
      (h : Refuses config flags list s target name s₁) (hextra : flags.extra = false)
      (hend : name.delimiter = .colon) (hskip : skipLine s₁ = (.error fault, u)) :
      Breakdown list s (.ofFault config fault) [.wanted target, .nameRead name.plain] u
  /-- The input ends within a line that is skipped. -/
  | cutOff {list : WishList} {s s₁ s₂ u : Stream} {target : Wanted} {name : Field}
      (h : Refuses config flags list s target name s₁) (hextra : flags.extra = false)
      (hend : name.delimiter = .colon) (hskip : skipLine s₁ = (.ok false, s₂))
      (hover : s₂.access = (.ok [], u)) :
      Breakdown list s (.prematureEof .name)
        [.wanted target, .nameRead name.plain, .wanted target] u
  /-- The value cannot be read. -/
  | value {list : WishList} {s s₁ u : Stream} {target : Wanted} {name : Field} {e : ScanError}
      {log : List LogEntry} (h : Sees config flags list s target name s₁)
      (hunended : ¬ name.IsTerminator) (haccepts : target.Accepts name.plain)
      (hvalue : readValue config list.kindText name s₁ = ⟨.error e, log, u⟩) :
      Breakdown list s e ([.wanted target, .nameRead name.plain] ++ log) u
  /-- The value is not one that the destination can hold. -/
  | number {wish : Wish} {wishes : List Wish} {capture : Option Table} {s u : Stream}
      {target : Wanted} {name : Field} {value : Bytes}
      (h : Takes config flags ⟨wish :: wishes, capture⟩ s target name value u)
      (hstored : wish.value.read? value = none) :
      Breakdown ⟨wish :: wishes, capture⟩ s (.malformedNumber (value.take echoLength))
        [.wanted target, .nameRead name.plain, .valueRead value] u

/-- The ways for a scan to stop. -/
inductive Stop : WishList → Stream → ScanResult → Prop
  /-- Nothing is wanted any more. -/
  | left {list : WishList} {s : Stream} (h : list.wanted? flags = none) :
      Stop list s ⟨.ok 0, list, [], s⟩
  /-- The list ends. -/
  | terminator {list : WishList} {s u : Stream} {target : Wanted} {name : Field}
      (h : Sees config flags list s target name u) (hterm : name.IsTerminator) :
      Stop list s
        ⟨.ok 0, list, [.wanted target, .nameRead name.plain] ++ target.missingWarning flags, u⟩
  /-- An attribute may not be skipped. -/
  | spurious {list : WishList} {s u : Stream} {target : Wanted} {name : Field}
      (h : Refuses config flags list s target name u) (hextra : flags.extra = true) :
      Stop list s
        ⟨.ok 0, list, [.wanted target, .nameRead name.plain, .spurious name.plain], u⟩
  /-- An attribute may not be captured twice. -/
  | duplicate {table : Table} {s u : Stream} {target : Wanted} {name : Field} {value : Bytes}
      (h : Takes config flags ⟨[], some table⟩ s target name value u)
      (hextra : flags.extra = true) (hold : (table.get? name.plain).isSome) :
      Stop ⟨[], some table⟩ s
        ⟨.ok 0, ⟨[], some table⟩,
          [.wanted target, .nameRead name.plain, .valueRead value, .duplicate name.plain], u⟩
  /-- A step fails. -/
  | failed {list : WishList} {s u : Stream} {e : ScanError} {log : List LogEntry}
      (h : Breakdown config flags list s e log u) : Stop list s ⟨.error e, list, log, u⟩

/-- The lines that a scan passes: what they add, and what is left behind them. -/
inductive Reaches : WishList → Stream → Gain → WishList → Stream → Prop
  | here {list : WishList} {s : Stream} : Reaches list s (.logged []) list s
  | pass {list list' list'' : WishList} {s s' s'' : Stream} {gain gain' : Gain}
      (h : Pass config flags list s gain list' s') (hrest : Reaches list' s' gain' list'' s'') :
      Reaches list s (gain.append gain') list'' s''

end

section

variable {config : Config} {flags : Flags} {list list' : WishList} {s s' s₁ u : Stream}
  {target : Wanted} {name : Field} {value : Bytes} {gain : Gain} {r : ScanResult}

/-! ### A scan and its next line -/

theorem seek_of_refused (h : Refuses config flags list s target name s₁) :
    seek config flags target s =
      if flags.extra then
        ⟨.ok .stopped, [.wanted target, .nameRead name.plain, .spurious name.plain], s₁⟩
      else if name.delimiter = .newline then
        (seek config flags target s₁).after [.wanted target, .nameRead name.plain]
      else
        match skipLine s₁ with
        | (.error fault, s₂) =>
            ⟨.error (.ofFault config fault), [.wanted target, .nameRead name.plain], s₂⟩
        | (.ok _, s₂) =>
            (seek config flags target s₂).after [.wanted target, .nameRead name.plain] := by
  rw [seek_of_readName h.read, if_neg h.unended, if_neg h.refused]
  rfl

/-- A search that begins anew leaves the scan as it was. -/
theorem scan_of_seek_after {log : List LogEntry} (hwanted : list.wanted? flags = some target)
    (h : seek config flags target s = (seek config flags target s').after log) :
    scan config flags list s = (scan config flags list s').passed (.logged log) := by
  rw [scan_of_wanted hwanted, scan_of_wanted hwanted, h, ScanResult.ofSighting_after]

theorem readName_of_end (config : Config) (h : s.access = (.ok [], u)) :
    readName config s = ⟨.error (.prematureEof .name), [], u⟩ := by
  rw [readName, readField_of_access_end h]
  rfl

/-- An attribute that is looked for is received. -/
theorem scan_of_accepted (h : Sees config flags list s target name s₁)
    (hunended : ¬ name.IsTerminator) (haccepts : target.Accepts name.plain) :
    scan config flags list s =
      (receive config flags list name s₁).passed
        (.logged [.wanted target, .nameRead name.plain]) := by
  rw [scan_of_wanted h.wanted, seek_of_readName h.read, if_neg hunended, if_pos haccepts]
  rfl

theorem not_isTerminator_of_readValue {kind : String} {log : List LogEntry}
    (h : readValue config kind name s = ⟨.ok value, log, s₁⟩) : ¬ name.IsTerminator := by
  rintro rfl
  exact Delimiter.noConfusion (unread_of_readValue h).1

theorem scan_of_takes (h : Takes config flags list s target name value u) :
    ∃ s₁, readValue config list.kindText name s₁ = ⟨.ok value, [.valueRead value], u⟩ ∧
      scan config flags list s =
        (receive config flags list name s₁).passed
          (.logged [.wanted target, .nameRead name.plain]) := by
  obtain ⟨s₁, hsees, hvalue⟩ := h.sees
  exact ⟨s₁, hvalue,
    scan_of_accepted hsees (not_isTerminator_of_readValue hvalue) h.accepts⟩

/-- **Behind a line that it passes**, a scan goes on. -/
theorem scan_of_pass (h : Pass config flags list s gain list' s') :
    scan config flags list s = (scan config flags list' s').passed gain := by
  cases h with
  | bare h hextra hend =>
      refine scan_of_seek_after h.wanted ?_
      rw [seek_of_refused h, hextra, if_neg Bool.false_ne_true, if_pos hend]
  | skipped h hextra hend hskip =>
      refine scan_of_seek_after h.wanted ?_
      rw [seek_of_refused h, hextra, if_neg Bool.false_ne_true, hend, if_neg (by simp), hskip]
  | cut h hextra hend hskip hlifted =>
      refine scan_of_seek_after h.wanted ?_
      rw [seek_of_refused h, hextra, if_neg Bool.false_ne_true, hend, if_neg (by simp), hskip]
  | met h hstored =>
      obtain ⟨s₁, hvalue, hscan⟩ := scan_of_takes h
      rw [hscan, receive, hvalue]
      simp only [hstored, ScanResult.passed_passed]
      rfl
  | captured h hnew =>
      obtain ⟨s₁, hvalue, hscan⟩ := scan_of_takes h
      rw [hscan, receive, hvalue]
      simp only [hnew, ScanResult.passed_passed]
      rfl
  | repeated h hextra hold =>
      obtain ⟨s₁, hvalue, hscan⟩ := scan_of_takes h
      obtain ⟨old, hold⟩ := Option.isSome_iff_exists.1 hold
      rw [hscan, receive, hvalue]
      simp only [hold, hextra, Bool.false_eq_true, if_false, ScanResult.passed_passed]
      rfl

/-- **Where it stops**, a scan gives what the way to stop says. -/
theorem scan_of_stop (h : Stop config flags list s r) : scan config flags list s = r := by
  cases h with
  | left h => exact scan_of_not_wanted h
  | terminator h hterm =>
      rw [scan_of_wanted h.wanted, seek_of_readName h.read, if_pos hterm]
      rfl
  | spurious h hextra =>
      rw [scan_of_wanted h.wanted, seek_of_refused h, if_pos hextra]
      rfl
  | duplicate h hextra hold =>
      obtain ⟨s₁, hvalue, hscan⟩ := scan_of_takes h
      obtain ⟨old, hold⟩ := Option.isSome_iff_exists.1 hold
      rw [hscan, receive, hvalue]
      simp only [hold, hextra, if_true]
      rfl
  | failed h =>
      cases h with
      | name hwanted hread =>
          rw [scan_of_wanted hwanted, seek_of_readName_error hread]
          rfl
      | skip h hextra hend hskip =>
          rw [scan_of_wanted h.wanted, seek_of_refused h, hextra, if_neg Bool.false_ne_true, hend,
            if_neg (by simp), hskip]
          rfl
      | cutOff h hextra hend hskip hover =>
          rw [scan_of_wanted h.wanted, seek_of_refused h, hextra, if_neg Bool.false_ne_true, hend,
            if_neg (by simp), hskip]
          simp only [seek_of_readName_error (readName_of_end config hover)]
          rfl
      | value h hunended haccepts hvalue =>
          rw [scan_of_accepted h hunended haccepts, receive, hvalue]
          rfl
      | number h hstored =>
          obtain ⟨s₁, hvalue, hscan⟩ := scan_of_takes h
          rw [hscan, receive, hvalue]
          simp only [hstored]
          rfl

/-- What a scan does where it reaches. -/
theorem scan_of_reaches (h : Reaches config flags list s gain list' s') :
    scan config flags list s = (scan config flags list' s').passed gain := by
  induction h with
  | here => exact (ScanResult.passed_logged_nil _).symm
  | pass h _ ih => rw [scan_of_pass h, ih, ScanResult.passed_passed]

/-! ### Every scan has a course -/

theorem readName_error_log {e : ScanError} {log : List LogEntry}
    (h : readName config s = ⟨.error e, log, u⟩) : log = [] := by
  unfold readName at h
  split at h
  · simp at h
  · exact (Attempt.mk.inj h).2.1.symm

/-- A name that is not looked for is passed, or the scan stops. -/
theorem stop_or_pass_of_refuses (h : Refuses config flags list s target name s₁) :
    (∃ r, Stop config flags list s r) ∨
      ∃ gain list' s', Pass config flags list s gain list' s' := by
  cases hextra : flags.extra with
  | true => exact .inl ⟨_, .spurious h hextra⟩
  | false =>
      cases hend : name.delimiter with
      | newline => exact .inr ⟨_, _, _, .bare h hextra hend⟩
      | colon =>
          rcases hskip : skipLine s₁ with ⟨fault | _ | _, s₂⟩
          · exact .inl ⟨_, .failed (.skip h hextra hend hskip)⟩
          · by_cases hlifted : ∀ t, s₂.access ≠ (.ok [], t)
            · exact .inr ⟨_, _, _, .cut h hextra hend hskip hlifted⟩
            · obtain ⟨u, hover⟩ : ∃ u, s₂.access = (.ok [], u) := by simpa using hlifted
              exact .inl ⟨_, .failed (.cutOff h hextra hend hskip hover)⟩
          · exact .inr ⟨_, _, _, .skipped h hextra hend hskip⟩

/-- An attribute that is looked for is passed, or the scan stops. -/
theorem stop_or_pass_of_accepts (h : Sees config flags list s target name s₁)
    (hunended : ¬ name.IsTerminator) (haccepts : target.Accepts name.plain) :
    (∃ r, Stop config flags list s r) ∨
      ∃ gain list' s', Pass config flags list s gain list' s' := by
  rcases hvalue : readValue config list.kindText name s₁ with ⟨e | value, log, s₂⟩
  · exact .inl ⟨_, .failed (.value h hunended haccepts hvalue)⟩
  · obtain rfl := (unread_of_readValue hvalue).2.1
    have htakes : Takes config flags list s target name value s₂ := ⟨haccepts, s₁, h, hvalue⟩
    obtain ⟨_ | ⟨wish, wishes⟩, capture⟩ := list
    · cases capture with
      | none =>
          have hwanted := h.wanted
          simp only [WishList.wanted?] at hwanted
          split at hwanted
          · simp at hwanted
          · obtain rfl := Option.some.inj hwanted
            exact absurd haccepts (Wanted.not_accepts_terminator _)
      | some table =>
          cases hbound : table.get? name.plain with
          | none => exact .inr ⟨_, _, _, .captured htakes hbound⟩
          | some old =>
              have hold : (table.get? name.plain).isSome := by simp [hbound]
              cases hextra : flags.extra with
              | true => exact .inl ⟨_, .duplicate htakes hextra hold⟩
              | false => exact .inr ⟨_, _, _, .repeated htakes hextra hold⟩
    · cases hstored : wish.value.read? value with
      | none => exact .inl ⟨_, .failed (.number htakes hstored)⟩
      | some stored => exact .inr ⟨_, _, _, .met htakes hstored⟩

/-- **A scan stops or passes a line.** -/
theorem stop_or_pass (config : Config) (flags : Flags) (list : WishList) (s : Stream) :
    (∃ r, Stop config flags list s r) ∨
      ∃ gain list' s', Pass config flags list s gain list' s' := by
  cases hwanted : list.wanted? flags with
  | none => exact .inl ⟨_, .left hwanted⟩
  | some target =>
      rcases hread : readName config s with ⟨e | name, log, s₁⟩
      · obtain rfl := readName_error_log hread
        exact .inl ⟨_, .failed (.name hwanted hread)⟩
      · obtain rfl := (unread_of_readName hread).1
        have hsees : Sees config flags list s target name s₁ := ⟨hwanted, hread⟩
        by_cases hterm : name.IsTerminator
        · exact .inl ⟨_, .terminator hsees hterm⟩
        · by_cases haccepts : target.Accepts name.plain
          · exact stop_or_pass_of_accepts hsees hterm haccepts
          · exact stop_or_pass_of_refuses ⟨hsees, hterm, haccepts⟩

/-! ### The lines that are passed -/

/-- A line that is not empty, with its newline. -/
def IsLine (text : Bytes) : Prop :=
  ∃ line, line ≠ [] ∧ Bytes.newline ∉ line ∧ text = line ++ [Bytes.newline]

/-- The beginning of a line, through its first colon at least. -/
def IsPart (text : Bytes) : Prop := Bytes.colon ∈ text ∧ Bytes.newline ∉ text

theorem AttributeText.isLine {pair : Bytes × Bytes} {text : Bytes}
    (h : AttributeText config pair text) : IsLine text := by
  obtain ⟨raw, raw', hname, hvalue, rfl⟩ := h
  refine ⟨raw ++ Bytes.colon :: raw', by simp, ?_, by simp⟩
  have hcolon : Bytes.newline ≠ Bytes.colon := by decide
  simp [hname.undelimited.newline_not_mem, hvalue.undelimited.newline_not_mem, hcolon]

theorem Sees.unread (h : Sees config flags list s target name s₁) :
    ∃ raw, WrittenForm config raw name.plain ∧
      s.unread = raw ++ name.delimiter.byte :: s₁.unread :=
  (unread_of_readName h.read).2

/-- The name that ends the list is a newline at the front. -/
theorem Sees.unread_terminator (h : Sees config flags list s target name s₁)
    (hterm : name.IsTerminator) : s.unread = Bytes.newline :: s₁.unread := by
  obtain ⟨raw, hraw, hunread⟩ := h.unread
  have hempty := raw_of_isTerminator hraw.decodes hterm
  rw [hunread, ← List.singleton_append, ← List.append_assoc, hempty]
  rfl

/-- A name before a newline is a line of its own, unless it ends the list. -/
theorem Refuses.unread_newline (h : Refuses config flags list s target name s₁)
    (hend : name.delimiter = .newline) :
    ∃ text, IsLine text ∧ s.unread = text ++ s₁.unread := by
  obtain ⟨raw, hraw, hunread⟩ := h.toSees.unread
  rw [hend] at hunread
  refine ⟨raw ++ [Bytes.newline], ⟨raw, ?_, hraw.undelimited.newline_not_mem, rfl⟩, ?_⟩
  · rintro rfl
    obtain ⟨plain, delimiter⟩ := name
    obtain rfl : [] = plain := Option.some.inj hraw.decodes
    exact h.unended (by rw [Field.IsTerminator, show delimiter = .newline from hend])
  · rw [hunread, List.append_assoc]
    rfl

/-- A name before a colon begins a line, and the rest of the line is what is skipped. -/
theorem Refuses.unread_colon {whole : Bool} (h : Refuses config flags list s target name s₁)
    (hend : name.delimiter = .colon) (hskip : skipLine s₁ = (.ok whole, s')) :
    ∃ line, Bytes.colon ∈ line ∧ Bytes.newline ∉ line ∧
      s.unread = line ++ ((if whole then [Bytes.newline] else []) ++ s'.unread) := by
  obtain ⟨raw, hraw, hunread⟩ := h.toSees.unread
  obtain ⟨rest, hrest, hunread'⟩ := unread_of_skipLine hskip
  rw [hend] at hunread
  refine ⟨raw ++ Bytes.colon :: rest, by simp, ?_, ?_⟩
  · have hcolon : Bytes.newline ≠ Bytes.colon := by decide
    simp [hraw.undelimited.newline_not_mem, hrest, hcolon]
  · rw [hunread, hunread', List.append_assoc]
    rfl

/-- The attribute that a wish is met by has its name. -/
theorem Takes.name_eq {wish : Wish} {wishes : List Wish} {capture : Option Table}
    (h : Takes config flags ⟨wish :: wishes, capture⟩ s target name value s') :
    wish.name = name.plain := by
  have haccepts := h.accepts
  obtain ⟨s₁, hsees, -⟩ := h.sees
  obtain rfl := Option.some.inj hsees.wanted
  exact haccepts

/-- The line of an attribute that is looked for stood in front. -/
theorem Takes.unread (h : Takes config flags list s target name value s') :
    ∃ text, AttributeText config (name.plain, value) text ∧ s.unread = text ++ s'.unread := by
  obtain ⟨s₁, hsees, hread⟩ := h.sees
  obtain ⟨raw, hraw, hunread⟩ := hsees.unread
  obtain ⟨hcolon, -, raw', hraw', hunread'⟩ := unread_of_readValue hread
  refine ⟨_, ⟨raw, raw', hraw, hraw', rfl⟩, ?_⟩
  rw [hunread, hunread', hcolon]
  simp [Delimiter.byte]

/-- The line that the scan comes to is skipped from its colon on, and the input ends within it but
then goes on: the line is passed only in part. -/
structure Cuts (config : Config) (flags : Flags) (list : WishList) (s s' : Stream) : Prop where
  lenient : flags.extra = false
  skipped : ∃ target name s₁, Refuses config flags list s target name s₁ ∧
    name.delimiter = .colon ∧ skipLine s₁ = (.ok false, s')
  lifted : ∀ t, s'.access ≠ (.ok [], t)

/-- **A line that is passed stood in front**, whole unless it is cut. -/
theorem Pass.unread (h : Pass config flags list s gain list' s') :
    ∃ text, (IsLine text ∨ IsPart text ∧ Cuts config flags list s s') ∧
      s.unread = text ++ s'.unread := by
  cases h with
  | bare h hextra hend =>
      obtain ⟨text, htext, hunread⟩ := h.unread_newline hend
      exact ⟨text, .inl htext, hunread⟩
  | skipped h hextra hend hskip =>
      obtain ⟨line, hcolon, hline, hunread⟩ := h.unread_colon hend hskip
      exact ⟨line ++ [Bytes.newline], .inl ⟨line, List.ne_nil_of_mem hcolon, hline, rfl⟩,
        by simpa using hunread⟩
  | cut h hextra hend hskip hlifted =>
      obtain ⟨line, hcolon, hline, hunread⟩ := h.unread_colon hend hskip
      exact ⟨line, .inr ⟨⟨hcolon, hline⟩, hextra, ⟨_, _, _, h, hend, hskip⟩, hlifted⟩,
        by simpa using hunread⟩
  | met h hstored => exact h.unread.imp fun _ htext => ⟨.inl htext.1.isLine, htext.2⟩
  | captured h hnew => exact h.unread.imp fun _ htext => ⟨.inl htext.1.isLine, htext.2⟩
  | repeated h hextra hold => exact h.unread.imp fun _ htext => ⟨.inl htext.1.isLine, htext.2⟩

theorem Pass.length_unread (h : Pass config flags list s gain list' s') :
    s'.unread.length < s.unread.length := by
  obtain ⟨text, htext, hunread⟩ := h.unread
  have hne : text ≠ [] := by
    rcases htext with ⟨line, -, -, rfl⟩ | ⟨⟨hcolon, -⟩, -⟩
    · simp
    · exact List.ne_nil_of_mem hcolon
  rw [hunread, List.length_append]
  exact Nat.lt_add_of_pos_left (List.length_pos_iff.2 hne)

/-- The texts are passed one after the other, each as a whole line or as a part of one that is cut
there. -/
inductive PassedLines (config : Config) (flags : Flags) : WishList → Stream → List Bytes → Prop
  | nil {list : WishList} {s : Stream} : PassedLines config flags list s []
  | cons {list list' : WishList} {s s' : Stream} {gain : Gain} {text : Bytes} {texts : List Bytes}
      (h : Pass config flags list s gain list' s')
      (htext : IsLine text ∨ IsPart text ∧ Cuts config flags list s s')
      (hunread : s.unread = text ++ s'.unread) (hrest : PassedLines config flags list' s' texts) :
      PassedLines config flags list s (text :: texts)

/-- **Every scan passes lines and then stops.** -/
theorem exists_course (config : Config) (flags : Flags) (list : WishList) (s : Stream) :
    ∃ gain list' s' r, Reaches config flags list s gain list' s' ∧
      Stop config flags list' s' r ∧ scan config flags list s = r.passed gain := by
  -- each line that is passed shortens the stream
  induction hn : s.unread.length using Nat.strongRecOn generalizing list s with
  | ind n ih =>
      rcases stop_or_pass config flags list s with ⟨r, hstop⟩ | ⟨gain, list₁, s₁, hpass⟩
      · refine ⟨_, list, s, r, .here, hstop, ?_⟩
        rw [scan_of_stop hstop, ScanResult.passed_logged_nil]
      · obtain ⟨gain', list', s', r, hreach, hstop, hscan⟩ :=
          ih s₁.unread.length (hn ▸ hpass.length_unread) list₁ s₁ rfl
        refine ⟨_, list', s', r, .pass hpass hreach, hstop, ?_⟩
        rw [scan_of_pass hpass, hscan, ScanResult.passed_passed]

/-! ### Streams without empty pieces -/

theorem Takes.gapless (hs : s.Gapless) (h : Takes config flags list s target name value s') :
    s'.Gapless := by
  obtain ⟨s₁, hsees, hread⟩ := h.sees
  obtain ⟨raw, -, -, hadv, -⟩ := advances_of_readName hs hsees.read
  obtain ⟨-, -, raw', -, hadv'⟩ := advances_of_readValue hadv.gapless hread
  exact hadv'.gapless

/-- A line that is passed leaves a stream without empty pieces as such. -/
theorem Pass.gapless (hs : s.Gapless) (h : Pass config flags list s gain list' s') :
    s'.Gapless := by
  cases h with
  | bare h hextra hend =>
      obtain ⟨raw, -, -, hadv, -⟩ := advances_of_readName hs h.read
      exact hadv.gapless
  | skipped h hextra hend hskip =>
      obtain ⟨raw, -, -, hadv, -⟩ := advances_of_readName hs h.read
      obtain ⟨line, -, hadv'⟩ := advances_of_skipLine hadv.gapless hskip
      exact hadv'.gapless
  | cut h hextra hend hskip hlifted =>
      obtain ⟨raw, -, -, hadv, -⟩ := advances_of_readName hs h.read
      exact absurd (access_of_skipLine hadv.gapless hskip) (hlifted s')
  | met h hstored => exact h.gapless hs
  | captured h hnew => exact h.gapless hs
  | repeated h hextra hold => exact h.gapless hs

theorem Reaches.gapless (hs : s.Gapless) (h : Reaches config flags list s gain list' s') :
    s'.Gapless := by
  induction h with
  | here => exact hs
  | pass h _ ih => exact ih (h.gapless hs)

/-- No line that the scan passes is cut. -/
def Uncut (config : Config) (flags : Flags) (list : WishList) (s : Stream) : Prop :=
  ∀ gain list' s' s'', Reaches config flags list s gain list' s' → ¬ Cuts config flags list' s' s''

/-- **Without empty pieces no line is cut**, since an end of input is not lifted then. -/
theorem Stream.Gapless.uncut (hs : s.Gapless) : Uncut config flags list s := by
  intro gain list' s' s'' hreach hcut
  obtain ⟨target, name, s₁, hrefuses, -, hskip⟩ := hcut.skipped
  obtain ⟨raw, -, -, hadv, -⟩ := advances_of_readName (hreach.gapless hs) hrefuses.read
  exact hcut.lifted s'' (access_of_skipLine hadv.gapless hskip)

/-- The lines are whole if none is cut. -/
theorem PassedLines.isLine {texts : List Bytes} (h : PassedLines config flags list s texts)
    (hs : Uncut config flags list s) : ∀ text ∈ texts, IsLine text := by
  induction h with
  | nil => simp
  | cons hpass htext hunread _ ih =>
      refine List.forall_mem_cons.2 ⟨?_, ih fun gain list' s' s'' hreach => ?_⟩
      · exact htext.resolve_right fun hcut => hs _ _ _ _ .here hcut.2
      · exact hs _ _ _ _ (.pass hpass hreach)

/-! ### The lines of a capture -/

/-- A capture passes the line of an attribute, which it keeps if the name is new. -/
theorem captured_of_pass {table : Table}
    (h : Pass config flags ⟨[], some table⟩ s gain list' s') :
    ∃ pair text, AttributeText config pair text ∧ s.unread = text ++ s'.unread ∧
      list' = ⟨[], some (table.insertNew pair.1 pair.2)⟩ ∧ gain.wishes = [] ∧
      table.size + gain.count = (table.insertNew pair.1 pair.2).size ∧
      (flags.extra = true → table.get? pair.1 = none) := by
  have accepts {target : Wanted} {name : Field} {s₁ : Stream}
      (h : Refuses config flags ⟨[], some table⟩ s target name s₁) : False := by
    obtain rfl := Option.some.inj h.wanted
    exact h.refused (Wanted.accepts_any _)
  cases h with
  | bare h hextra hend => exact (accepts h).elim
  | skipped h hextra hend hskip => exact (accepts h).elim
  | cut h hextra hend hskip hlifted => exact (accepts h).elim
  | @captured _ _ _ target name value h hnew =>
      obtain ⟨text, htext, hunread⟩ := h.unread
      refine ⟨(name.plain, value), text, htext, hunread, ?_, rfl, ?_, fun _ => hnew⟩
      · rw [Table.insertNew_of_none hnew]
      · rw [Table.insertNew_of_none hnew, Table.size_insert hnew]
  | @repeated _ _ _ target name value h hextra hold =>
      obtain ⟨text, htext, hunread⟩ := h.unread
      obtain ⟨old, hold⟩ := Option.isSome_iff_exists.1 hold
      refine ⟨(name.plain, value), text, htext, hunread, ?_, rfl, ?_, by simp [hextra]⟩
      · rw [Table.insertNew_of_some hold]
      · rw [Table.insertNew_of_some hold]
        rfl

/-- **A capture passes the lines of attributes** only, and keeps the first value of each name. -/
theorem captured_of_reaches {table : Table}
    (h : Reaches config flags ⟨[], some table⟩ s gain list' s') :
    ∃ pairs texts, List.Forall₂ (AttributeText config) pairs texts ∧
      PassedLines config flags ⟨[], some table⟩ s texts ∧
      s.unread = texts.flatten ++ s'.unread ∧ list' = ⟨[], some (table.extend pairs)⟩ ∧
      gain.wishes = [] ∧ table.size + gain.count = (table.extend pairs).size ∧
      (flags.extra = true → table.Fresh pairs) := by
  generalize hlist : (⟨[], some table⟩ : WishList) = list at h
  induction h generalizing table with
  | here =>
      subst hlist
      exact ⟨[], [], .nil, .nil, rfl, rfl, rfl, rfl, fun _ => table.fresh_nil⟩
  | @pass list list₁ list' s s₁ s' gain gain' h hrest ih =>
      subst hlist
      obtain ⟨⟨name, value⟩, text, htext, hunread, rfl, hwishes, hcount, hnew⟩ :=
        captured_of_pass h
      obtain ⟨pairs, texts, htexts, hlines, hunread', rfl, hwishes', hcount', hfresh⟩ := ih rfl
      refine ⟨(name, value) :: pairs, text :: texts, .cons htext htexts,
        .cons h (.inl htext.isLine) hunread hlines, ?_, rfl, ?_, ?_, ?_⟩
      · rw [hunread, hunread', List.flatten_cons, List.append_assoc]
      · simp [Gain.append, hwishes, hwishes']
      · rw [Table.extend_cons, ← hcount', ← hcount, Gain.append, Nat.add_assoc]
      · intro hextra
        have hnone := hnew hextra
        have hrest := hfresh hextra
        rw [Table.insertNew_of_none hnone] at hrest
        exact Table.fresh_cons_iff.2 ⟨hnone, hrest⟩

end

end AttributeWire
