/-
**Warnings tell the truth.**

A scan warns at most once, when it stops, and a scan that fails does not warn.  It says that an
attribute is missing exactly if it meets the end of the list in search of it, and that an attribute
is spurious or a duplicate exactly if it stops at an attribute that is not wanted, or is captured
already.  Hence a strict scan without a warning has left nothing out: the lines that it consumed are
those of the attributes whose values it stored.

The end of the list is an empty line where the scan begins a line.  This is a line of the input
unless a line before it is cut.  Where the input ends for a moment within a line that is skipped,
the scan goes on in the middle of that line, and may take the end of the line for the end of the
list.

Main definitions:

* `EndsBefore`, `StopsAtRefused`, `StopsAtHeld` — the three ways for a list and a wish list not to
  agree;
* `Complete` — every wish is met, and every attribute is stored;
* `Reported` — what the warnings of a scan say.

Main results:

* `warnings_of_reaches` — **lines that are passed give no warning**;
* `complete_of_reaches` — a strict scan passes no line without storing it;
* `scan_reported` — **the warnings of a scan tell the truth**;
* `missing_of_lifted`, `not_missing_of_lines` — the end of the list need not be an empty line of the
  input.
-/

import AttributeWire.Proofs.Destinations

set_option relaxedAutoImplicit false
set_option autoImplicit false

namespace AttributeWire

open LogEntry

/-! ### Lines that are passed -/

section

variable {config : Config} {flags : Flags} {list list' : WishList} {s s' : Stream} {gain : Gain}
  {target : Wanted} {name : Field} {log : List LogEntry}

theorem mem_warnings {entry : LogEntry} :
    entry ∈ warnings log ↔ entry ∈ log ∧ entry.level = .warn := by
  simp [warnings]

theorem warnings_of_pass (h : Pass config flags list s gain list' s') : warnings gain.log = [] := by
  cases h <;> rfl

/-- **Lines that are passed give no warning.** -/
theorem warnings_of_reaches (h : Reaches config flags list s gain list' s') :
    warnings gain.log = [] := by
  induction h with
  | here => rfl
  | pass h _ ih =>
      rw [Gain.append, warnings_append, warnings_of_pass h, ih]
      rfl

theorem warnings_of_readValue {kind : String} {u : Stream} {answer : Except ScanError Bytes}
    (h : readValue config kind name s = ⟨answer, log, u⟩) : warnings log = [] := by
  unfold readValue at h
  split at h
  · exact (Attempt.mk.inj h).2.1 ▸ rfl
  · split at h
    · exact (Attempt.mk.inj h).2.1 ▸ rfl
    · exact (Attempt.mk.inj h).2.1 ▸ rfl
    · exact (Attempt.mk.inj h).2.1 ▸ rfl

theorem warnings_of_breakdown {e : ScanError} {u : Stream}
    (h : Breakdown config flags list s e log u) : warnings log = [] := by
  cases h with
  | name hwanted hread => rfl
  | skip h hextra hend hskip => rfl
  | cutOff h hextra hend hskip hover => rfl
  | value h hunended haccepts hvalue =>
      rw [warnings_append, warnings_of_readValue hvalue]
      rfl
  | number h hstored => rfl

/-! ### Where a list and a wish list do not agree -/

/-- The list ends where a wish is looked for, and those before it are met. -/
def EndsBefore (config : Config) (flags : Flags) (list : WishList) (s : Stream) (wish : Wish)
    (u : Stream) : Prop :=
  ∃ before wishes gain s', list.wishes = before ++ wish :: wishes ∧ gain.count = before.length ∧
    Reaches config flags list s gain ⟨wish :: wishes, list.capture⟩ s' ∧
    Sees config flags ⟨wish :: wishes, list.capture⟩ s' (.named wish.name) ⟨[], .newline⟩ u

/-- The scan comes to an attribute of this name, which it does not look for. -/
def StopsAtRefused (config : Config) (flags : Flags) (list : WishList) (s : Stream) (name : Bytes)
    (u : Stream) : Prop :=
  ∃ gain list' s' target field, Reaches config flags list s gain list' s' ∧
    Refuses config flags list' s' target field u ∧ field.plain = name

/-- The scan comes to an attribute of this name, which its table holds. -/
def StopsAtHeld (config : Config) (flags : Flags) (list : WishList) (s : Stream) (name : Bytes)
    (u : Stream) : Prop :=
  ∃ gain table s' field value, Reaches config flags list s gain ⟨[], some table⟩ s' ∧
    Takes config flags ⟨[], some table⟩ s' .any field value u ∧ field.plain = name ∧
    (table.get? name).isSome

/-- The wishes that are left are the last ones. -/
theorem wishes_of_reaches (h : Reaches config flags list s gain list' s')
    (hopen : list'.wishes ≠ []) :
    ∃ before, list.wishes = before ++ list'.wishes ∧ gain.count = before.length ∧
      list'.capture = list.capture := by
  induction h with
  | here => exact ⟨[], rfl, rfl, rfl⟩
  | @pass list list₁ list' s s₁ s' gain gain' h hrest ih =>
      obtain ⟨before, hwishes, hcount, hcapture⟩ := ih hopen
      cases h with
      | bare => exact ⟨before, hwishes, by simpa [Gain.append, Gain.logged] using hcount, hcapture⟩
      | skipped =>
          exact ⟨before, hwishes, by simpa [Gain.append, Gain.logged] using hcount, hcapture⟩
      | cut => exact ⟨before, hwishes, by simpa [Gain.append, Gain.logged] using hcount, hcapture⟩
      | @met wish wishes _ _ _ _ _ _ _ h hstored =>
          refine ⟨wish :: before, by rw [List.cons_append, ← hwishes], ?_, hcapture⟩
          rw [Gain.append, hcount, List.length_cons, Nat.add_comm]
      | captured => exact absurd (List.append_eq_nil_iff.1 hwishes.symm).2 hopen
      | repeated => exact absurd (List.append_eq_nil_iff.1 hwishes.symm).2 hopen

/-! ### Where a scan stops -/

theorem named_of_wanted {wanted : Bytes} (h : list.wanted? flags = some (.named wanted)) :
    ∃ wish wishes, list = ⟨wish :: wishes, list.capture⟩ ∧ wish.name = wanted := by
  obtain ⟨_ | ⟨wish, wishes⟩, capture⟩ := list
  · cases capture with
    | none =>
        simp only [WishList.wanted?] at h
        split at h <;> simp at h
    | some table => simp [WishList.wanted?] at h
  · exact ⟨wish, wishes, rfl, Wanted.named.inj (Option.some.inj h)⟩

/-- **A warning where a scan stops** is the only one, and says why the scan stops. -/
theorem warning_of_stop {r : ScanResult} {entry : LogEntry} (h : Stop config flags list s r)
    (hmem : entry ∈ warnings r.log) :
    warnings r.log = [entry] ∧ r.outcome = .ok 0 ∧
      ((∃ wish wishes, list = ⟨wish :: wishes, list.capture⟩ ∧ entry = .missing wish.name ∧
          flags.missing = true ∧
          Sees config flags list s (.named wish.name) ⟨[], .newline⟩ r.stream) ∨
        (∃ target field, entry = .spurious field.plain ∧ flags.extra = true ∧
          Refuses config flags list s target field r.stream) ∨
        ∃ table field value, list = ⟨[], some table⟩ ∧ entry = .duplicate field.plain ∧
          flags.extra = true ∧ (table.get? field.plain).isSome ∧
          Takes config flags list s .any field value r.stream) := by
  cases h with
  | left h => simp at hmem
  | @terminator _ _ u target field h hterm =>
      obtain rfl : field = ⟨[], .newline⟩ := hterm
      cases target with
      | named wanted =>
          obtain ⟨wish, wishes, hlist, rfl⟩ := named_of_wanted h.wanted
          cases hmissing : flags.missing with
          | false => simp [Wanted.missingWarning, hmissing] at hmem
          | true =>
              have hlog : warnings ([.wanted (.named wish.name), .nameRead []] ++
                  Wanted.missingWarning flags (.named wish.name)) = [.missing wish.name] := by
                rw [Wanted.missingWarning, if_pos hmissing]
                rfl
              rw [hlog, List.mem_singleton] at hmem
              rw [hlog, hmem]
              exact ⟨rfl, rfl, .inl ⟨wish, wishes, hlist, rfl, rfl, h⟩⟩
      | any => simp [Wanted.missingWarning] at hmem
      | terminator => simp [Wanted.missingWarning] at hmem
  | @spurious _ _ u target field h hextra =>
      have hlog : warnings [.wanted target, .nameRead field.plain, .spurious field.plain] =
          [.spurious field.plain] := rfl
      rw [hlog, List.mem_singleton] at hmem
      rw [hlog, hmem]
      exact ⟨rfl, rfl, .inr (.inl ⟨target, field, rfl, hextra, h⟩)⟩
  | @duplicate table _ u target field value h hextra hold =>
      have hlog : warnings [.wanted target, .nameRead field.plain, .valueRead value,
          .duplicate field.plain] = [.duplicate field.plain] := rfl
      rw [hlog, List.mem_singleton] at hmem
      rw [hlog, hmem]
      obtain ⟨s₁, hsees, -⟩ := h.sees
      obtain rfl := Option.some.inj hsees.wanted
      exact ⟨rfl, rfl, .inr (.inr ⟨table, field, value, rfl, rfl, hextra, hold, h⟩)⟩
  | failed h =>
      rw [warnings_of_breakdown h] at hmem
      simp at hmem

/-! ### Scans that leave nothing out -/

/-- Every wish is met, by one attribute after the other, and all attributes behind them are new to
the table and are captured. -/
structure Complete (list : WishList) (attributes : List (Bytes × Bytes)) (final : WishList) :
    Prop where
  /-- A wish holds the converted value of the attribute in its place. -/
  met : ∀ (i : Nat) (wish : Wish), list.wishes[i]? = some wish →
    ∃ value stored, attributes[i]? = some (wish.name, value) ∧
      wish.value.read? value = some stored ∧ final.wishes[i]? = some ⟨wish.name, stored⟩
  /-- There are no other wishes. -/
  length_eq : final.wishes.length = list.wishes.length
  /-- Without a table there are no further attributes. -/
  exact : list.capture = none →
    attributes.length = list.wishes.length ∧ final.capture = none
  /-- With a table there are no further attributes than those that it is extended by. -/
  captured : ∀ table, list.capture = some table →
    table.Fresh (attributes.drop list.wishes.length) ∧
      final.capture = some (table.extend (attributes.drop list.wishes.length))

namespace Complete

variable {wish : Wish} {wishes : List Wish} {capture : Option Table} {final : WishList}
  {attributes : List (Bytes × Bytes)} {value : Bytes}

theorem nil (capture : Option Table) : Complete ⟨[], capture⟩ [] ⟨[], capture⟩ where
  met i wish hwish := by simp at hwish
  length_eq := rfl
  exact hnone := ⟨rfl, hnone⟩
  captured table htable := ⟨table.fresh_nil, htable⟩

theorem cons (h : Complete ⟨wishes, capture⟩ attributes final) {stored : Value}
    (hstored : wish.value.read? value = some stored) :
    Complete ⟨wish :: wishes, capture⟩ ((wish.name, value) :: attributes)
      ⟨⟨wish.name, stored⟩ :: final.wishes, final.capture⟩ where
  met i other hother := by
    cases i with
    | zero =>
        obtain rfl : wish = other := by simpa using hother
        exact ⟨value, stored, rfl, hstored, rfl⟩
    | succ i => exact h.met i other hother
  length_eq := congrArg (· + 1) h.length_eq
  exact hnone := by
    obtain ⟨hlen, hfinal⟩ := h.exact hnone
    exact ⟨congrArg (· + 1) hlen, hfinal⟩
  captured table htable := h.captured table htable

theorem gathered {table : Table} (h : table.Fresh attributes) :
    Complete ⟨[], some table⟩ attributes ⟨[], some (table.extend attributes)⟩ where
  met i wish hwish := by simp at hwish
  length_eq := rfl
  exact hnone := by simp at hnone
  captured other hother := by
    obtain rfl := Option.some.inj hother
    exact ⟨h, rfl⟩

/-- There is a table in the end if there was one. -/
theorem capture_eq_none_iff {list : WishList} (h : Complete list attributes final) :
    final.capture = none ↔ list.capture = none := by
  constructor
  · intro hnone
    cases hcapture : list.capture with
    | none => rfl
    | some table =>
        obtain ⟨-, hfinal⟩ := h.captured table hcapture
        simp [hnone] at hfinal
  · exact fun hnone => (h.exact hnone).2

end Complete

/-- A strict capture stores every line that it passes. -/
theorem complete_of_capture {table : Table} {capture' : Option Table} (hextra : flags.extra = true)
    (h : Reaches config flags ⟨[], some table⟩ s gain ⟨[], capture'⟩ s') :
    ∃ attributes texts, List.Forall₂ (AttributeText config) attributes texts ∧
      s.unread = texts.flatten ++ s'.unread ∧ gain.count = attributes.length ∧
      Complete ⟨[], some table⟩ attributes ⟨gain.wishes, capture'⟩ := by
  obtain ⟨pairs, texts, htexts, -, hunread, hlist, hwishes, hsize, hfresh⟩ :=
    captured_of_reaches h
  have hnew := hfresh hextra
  rw [Table.size_extend_of_fresh hnew, Nat.add_left_cancel_iff] at hsize
  obtain rfl := (WishList.mk.inj hlist).2
  refine ⟨pairs, texts, htexts, hunread, hsize, ?_⟩
  rw [hwishes]
  exact .gathered hnew

/-- **A strict scan passes no line without storing it.** -/
theorem complete_of_reaches {capture' : Option Table} (hextra : flags.extra = true)
    (h : Reaches config flags list s gain ⟨[], capture'⟩ s') :
    ∃ attributes texts, List.Forall₂ (AttributeText config) attributes texts ∧
      s.unread = texts.flatten ++ s'.unread ∧ gain.count = attributes.length ∧
      Complete list attributes ⟨gain.wishes, capture'⟩ := by
  generalize hlist : (⟨[], capture'⟩ : WishList) = list' at h
  induction h with
  | here =>
      subst hlist
      exact ⟨[], [], .nil, rfl, rfl, .nil capture'⟩
  | @pass list list₁ list' s s₁ s' gain gain' h hrest ih =>
      obtain ⟨attributes, texts, htexts, hunread', hcount, hcomplete⟩ := ih hlist
      subst hlist
      cases h with
      | bare h hlenient => simp [hextra] at hlenient
      | skipped h hlenient => simp [hextra] at hlenient
      | cut h hlenient => simp [hextra] at hlenient
      | @met wish wishes capture _ _ target name value stored h hstored =>
          obtain ⟨text, htext, hunread⟩ := h.unread
          rw [← h.name_eq] at htext
          refine ⟨(wish.name, value) :: attributes, text :: texts, .cons htext htexts, ?_, ?_,
            hcomplete.cons hstored⟩
          · rw [hunread, hunread', List.flatten_cons, List.append_assoc]
          · rw [Gain.append, hcount, List.length_cons, Nat.add_comm]
      | captured h hnew => exact complete_of_capture hextra (.pass (.captured h hnew) hrest)
      | repeated h hlenient => simp [hextra] at hlenient

/-! ### What the warnings say -/

/-- What the warnings of a scan say. -/
structure Reported (config : Config) (flags : Flags) (list : WishList) (s : Stream)
    (r : ScanResult) : Prop where
  /-- There is at most one. -/
  one : (warnings r.log).length ≤ 1
  /-- A scan that fails gives none. -/
  silent : ∀ e, r.outcome = .error e → warnings r.log = []
  /-- A wish is missing if the list ends before it is met, and the stream is left there. -/
  missing : ∀ name u, (.missing name ∈ r.log ∧ r.stream = u) ↔
    flags.missing = true ∧ ∃ wish, wish.name = name ∧ EndsBefore config flags list s wish u
  /-- If no line is cut, that is the first empty line. -/
  ended : ∀ name, .missing name ∈ r.log → Uncut config flags list s →
    ∃ lines, Lines lines ∧ s.unread = lines ++ Bytes.newline :: r.stream.unread
  /-- An attribute is spurious if the scan stops at it and does not look for it, and the stream is
  left behind its name. -/
  spurious : ∀ name u, (.spurious name ∈ r.log ∧ r.stream = u) ↔
    flags.extra = true ∧ StopsAtRefused config flags list s name u
  /-- An attribute is a duplicate if the scan stops at it and its table holds the name, and the
  stream is left behind its line. -/
  duplicate : ∀ name u, (.duplicate name ∈ r.log ∧ r.stream = u) ↔
    flags.extra = true ∧ StopsAtHeld config flags list s name u
  /-- A strict scan without a warning has consumed the lines of the attributes that it stored, and
  the end of the list unless the rest of the list is left. -/
  complete : flags.missing = true → flags.extra = true → warnings r.log = [] →
    ∀ n, r.outcome = .ok n → ∃ attributes texts,
      List.Forall₂ (AttributeText config) attributes texts ∧ n = attributes.length ∧
      Complete list attributes r.list ∧
      s.unread = texts.flatten ++
        ((if flags.more = true ∧ list.capture = none then [] else [Bytes.newline]) ++
          r.stream.unread)

/-- What is logged where a scan stops is logged by the scan, and the stream is left there. -/
theorem mem_log_of_stop {r : ScanResult} {entry : LogEntry}
    (hreach : Reaches config flags list s gain list' s') (hstop : Stop config flags list' s' r)
    (h : entry ∈ r.log) :
    entry ∈ (scan config flags list s).log ∧ (scan config flags list s).stream = r.stream := by
  rw [scan_of_reaches hreach, scan_of_stop hstop]
  exact ⟨List.mem_append_right _ h, rfl⟩

/-- **A warning comes from where the scan stops.** -/
theorem warning_of_scan {entry : LogEntry} (h : entry ∈ warnings (scan config flags list s).log) :
    ∃ gain list' s' r, Reaches config flags list s gain list' s' ∧ Stop config flags list' s' r ∧
      scan config flags list s = r.passed gain ∧ entry ∈ warnings r.log ∧
      warnings (scan config flags list s).log = [entry] := by
  obtain ⟨gain, list', s', r, hreach, hstop, hscan⟩ := exists_course config flags list s
  have hwarnings : warnings (scan config flags list s).log = warnings r.log := by
    rw [hscan, ScanResult.passed, warnings_append, warnings_of_reaches hreach, List.nil_append]
  rw [hwarnings] at h
  exact ⟨gain, list', s', r, hreach, hstop, hscan, h, hwarnings.trans (warning_of_stop hstop h).1⟩

theorem lines_flatten {texts : List Bytes} (h : ∀ text ∈ texts, IsLine text) :
    Lines texts.flatten := by
  induction texts with
  | nil => exact .nil
  | cons text texts ih =>
      obtain ⟨⟨line, hne, hline, rfl⟩, hrest⟩ := List.forall_mem_cons.1 h
      rw [List.flatten_cons]
      exact (Lines.single hne hline).append (ih hrest)

/-- An attribute is missing where the list ends. -/
theorem missing_iff (wanted : Bytes) (u : Stream) :
    (.missing wanted ∈ (scan config flags list s).log ∧ (scan config flags list s).stream = u) ↔
      flags.missing = true ∧
        ∃ wish, wish.name = wanted ∧ EndsBefore config flags list s wish u := by
  constructor
  · rintro ⟨h, rfl⟩
    obtain ⟨gain, list', s', r, hreach, hstop, hscan, hmem, -⟩ :=
      warning_of_scan (mem_warnings.2 ⟨h, rfl⟩)
    obtain ⟨-, -, ⟨wish, wishes, hlist, hentry, hmissing, hsees⟩ | ⟨_, _, hentry, -⟩ |
      ⟨_, _, _, -, hentry, -⟩⟩ := warning_of_stop hstop hmem
    · refine ⟨hmissing, wish, (LogEntry.missing.inj hentry).symm, ?_⟩
      have hopen : list'.wishes ≠ [] := by
        rw [hlist]
        exact List.cons_ne_nil _ _
      obtain ⟨before, hwishes, hcount, hcapture⟩ := wishes_of_reaches hreach hopen
      rw [hcapture] at hlist
      subst hlist
      rw [hscan]
      exact ⟨before, wishes, gain, s', hwishes, hcount, hreach, hsees⟩
    · simp at hentry
    · simp at hentry
  · rintro ⟨hmissing, wish, rfl, before, wishes, gain, s', -, -, hreach, hsees⟩
    refine mem_log_of_stop hreach (.terminator hsees rfl) ?_
    simp [Wanted.missingWarning, hmissing]

/-- An attribute is spurious where the scan stops at it and does not look for it. -/
theorem spurious_iff (found : Bytes) (u : Stream) :
    (.spurious found ∈ (scan config flags list s).log ∧ (scan config flags list s).stream = u) ↔
      flags.extra = true ∧ StopsAtRefused config flags list s found u := by
  constructor
  · rintro ⟨h, rfl⟩
    obtain ⟨gain, list', s', r, hreach, hstop, hscan, hmem, -⟩ :=
      warning_of_scan (mem_warnings.2 ⟨h, rfl⟩)
    obtain ⟨-, -, ⟨_, _, -, hentry, -⟩ | ⟨target, field, hentry, hextra, hrefuses⟩ |
      ⟨_, _, _, -, hentry, -⟩⟩ := warning_of_stop hstop hmem
    · simp at hentry
    · rw [hscan]
      exact ⟨hextra, gain, list', s', target, field, hreach, hrefuses,
        (LogEntry.spurious.inj hentry).symm⟩
    · simp at hentry
  · rintro ⟨hextra, gain, list', s', target, field, hreach, hrefuses, rfl⟩
    exact mem_log_of_stop hreach (.spurious hrefuses hextra) (by simp)

/-- An attribute is a duplicate where the scan stops at it and its table holds the name. -/
theorem duplicate_iff (found : Bytes) (u : Stream) :
    (.duplicate found ∈ (scan config flags list s).log ∧ (scan config flags list s).stream = u) ↔
      flags.extra = true ∧ StopsAtHeld config flags list s found u := by
  constructor
  · rintro ⟨h, rfl⟩
    obtain ⟨gain, list', s', r, hreach, hstop, hscan, hmem, -⟩ :=
      warning_of_scan (mem_warnings.2 ⟨h, rfl⟩)
    obtain ⟨-, -, ⟨_, _, -, hentry, -⟩ | ⟨_, _, hentry, -⟩ |
      ⟨table, field, value, rfl, hentry, hextra, hold, htakes⟩⟩ := warning_of_stop hstop hmem
    · simp at hentry
    · simp at hentry
    · obtain rfl := LogEntry.duplicate.inj hentry
      rw [hscan]
      exact ⟨hextra, gain, table, s', field, value, hreach, htakes, rfl, hold⟩
  · rintro ⟨hextra, gain, table, s', field, value, hreach, htakes, rfl, hold⟩
    exact mem_log_of_stop hreach (.duplicate htakes hextra hold) (by simp)

/-- If no line is cut, the list ends with the first empty line. -/
theorem EndsBefore.lines {wish : Wish} {u : Stream} (h : EndsBefore config flags list s wish u)
    (hs : Uncut config flags list s) :
    ∃ lines, Lines lines ∧ s.unread = lines ++ Bytes.newline :: u.unread := by
  obtain ⟨before, wishes, gain, s', -, -, hreach, hsees⟩ := h
  obtain ⟨texts, taken, hpassage⟩ := passage_of_reaches hreach
  refine ⟨texts.flatten, lines_flatten (hpassage.lines.isLine hs), ?_⟩
  rw [hpassage.consumed, hsees.unread_terminator rfl]

/-- The end of the list is wanted unless the rest of the list is left. -/
theorem WishList.wanted?_of_nil {capture : Option Table} (flags : Flags) :
    WishList.wanted? flags ⟨[], capture⟩ = none ↔ flags.more = true ∧ capture = none := by
  cases capture with
  | none => simp [WishList.wanted?]
  | some table => simp [WishList.wanted?]

/-- Where a strict scan ends without a warning, nothing is wanted any more. -/
theorem wishes_of_stop {r : ScanResult} {n : Nat} (h : Stop config flags list s r)
    (hmissing : flags.missing = true) (hsilent : warnings r.log = []) (hok : r.outcome = .ok n) :
    r.list = list ∧ n = 0 ∧ list.wishes = [] ∧
      s.unread = (if flags.more = true ∧ list.capture = none then [] else [Bytes.newline]) ++
        r.stream.unread := by
  obtain ⟨wishes, capture⟩ := list
  cases h with
  | left hwanted =>
      obtain rfl : wishes = [] := by
        cases wishes with
        | nil => rfl
        | cons wish wishes => simp [WishList.wanted?] at hwanted
      rw [if_pos ((WishList.wanted?_of_nil flags).1 hwanted)]
      exact ⟨rfl, (Except.ok.inj hok).symm, rfl, rfl⟩
  | @terminator _ _ u target name h hterm =>
      obtain rfl : wishes = [] := by
        cases wishes with
        | nil => rfl
        | cons wish wishes =>
            obtain rfl := Option.some.inj h.wanted
            rw [warnings_append, Wanted.missingWarning, if_pos hmissing] at hsilent
            exact absurd hsilent (List.cons_ne_nil _ _)
      have hwanted : ¬ (flags.more = true ∧ capture = none) := by
        rw [← WishList.wanted?_of_nil, h.wanted]
        exact Option.some_ne_none target
      rw [if_neg hwanted, h.unread_terminator hterm]
      exact ⟨rfl, (Except.ok.inj hok).symm, rfl, rfl⟩
  | spurious h hextra => simp at hsilent
  | duplicate h hextra hold => simp at hsilent
  | failed h => simp at hok

/-- **The warnings of a scan tell the truth.** -/
theorem scan_reported (config : Config) (flags : Flags) (list : WishList) (s : Stream) :
    Reported config flags list s (scan config flags list s) where
  one := by
    cases hlog : warnings (scan config flags list s).log with
    | nil => exact Nat.zero_le 1
    | cons entry rest =>
        obtain ⟨gain, list', s', r, -, -, -, -, hone⟩ :=
          warning_of_scan (by rw [hlog]; exact List.mem_cons_self)
        rw [← hlog, hone]
        exact Nat.le_refl 1
  silent e he := by
    cases hlog : warnings (scan config flags list s).log with
    | nil => rfl
    | cons entry rest =>
        obtain ⟨gain, list', s', r, -, hstop, hscan, hmem, -⟩ :=
          warning_of_scan (by rw [hlog]; exact List.mem_cons_self)
        have hok := (warning_of_stop hstop hmem).2.1
        rw [hscan, ScanResult.passed, hok] at he
        simp [Except.map] at he
  missing := missing_iff
  ended wanted h hs := by
    obtain ⟨-, wish, -, hends⟩ := (missing_iff wanted _).1 ⟨h, rfl⟩
    exact hends.lines hs
  spurious := spurious_iff
  duplicate := duplicate_iff
  complete hmissing hextra hsilent n hok := by
    obtain ⟨gain, list', s', r, hreach, hstop, hscan⟩ := exists_course config flags list s
    rw [hscan] at hok
    rw [hscan, ScanResult.passed, warnings_append, warnings_of_reaches hreach,
      List.nil_append] at hsilent
    obtain ⟨m, hm, rfl⟩ := ScanResult.exists_of_passed_ok hok
    obtain ⟨hlist, rfl, hnil, hunread'⟩ := wishes_of_stop hstop hmissing hsilent hm
    obtain ⟨wishes, capture⟩ := list'
    obtain rfl : wishes = [] := hnil
    obtain ⟨attributes, texts, htexts, hunread, hcount, hcomplete⟩ :=
      complete_of_reaches hextra hreach
    have hcapture : capture = none ↔ list.capture = none := hcomplete.capture_eq_none_iff
    simp only [hcapture] at hunread'
    rw [hscan, ScanResult.passed, hlist, List.append_nil]
    exact ⟨attributes, texts, htexts, hcount, hcomplete, hunread.trans (by rw [hunread'])⟩

/-! ### Lists that end within a line -/

theorem Lines.newline_mem {bytes : Bytes} (h : Lines bytes) (hne : bytes ≠ []) :
    Bytes.newline ∈ bytes := by
  cases h with
  | nil => exact absurd rfl hne
  | cons => simp

/-- **Where the input ends for a moment** within a line that is skipped, the end of that line is
taken for the end of the list. -/
theorem missing_of_lifted {wish : Wish} {wishes : List Wish} {capture : Option Table}
    {raw plain part rest : Bytes} (ending : Ending) (hraw : WrittenForm config raw plain)
    (hother : wish.name ≠ plain) (hmissing : flags.missing = true) (hextra : flags.extra = false)
    (hpart : Bytes.newline ∉ part) :
    let r := scan config flags ⟨wish :: wishes, capture⟩
      (.lifted (raw ++ Bytes.colon :: part) (Bytes.newline :: rest) ending)
    .missing wish.name ∈ r.log ∧ r.stream.unread = rest := by
  have hwanted : WishList.wanted? flags ⟨wish :: wishes, capture⟩ = some (.named wish.name) := rfl
  have hpass := pass_of_lifted ending hwanted hraw (fun haccepts => hother haccepts) hextra hpart
    (List.cons_ne_nil Bytes.newline rest)
  have hsteady : (Stream.ofEvents [.data (Bytes.newline :: rest)] ending).Steady :=
    Stream.steady_ofEvents (by simp : ∀ piece ∈ [Bytes.newline :: rest], piece ≠ []) ending
  have hwire : (Stream.ofEvents [.data (Bytes.newline :: rest)] ending).unread =
      Bytes.newline :: rest := by
    simp
  obtain ⟨u, hstop, hu⟩ := stop_of_newline hwanted hsteady hwire
  intro r
  have hscan : r = _ := (scan_of_pass hpass).trans (congrArg _ (scan_of_stop hstop))
  rw [hscan]
  refine ⟨?_, hu⟩
  simp [ScanResult.passed, Wanted.missingWarning, hmissing]

/-- Not every list that ends does so with an empty line: the newline that is taken for one ends the
line of another attribute. -/
theorem not_missing_of_lines :
    ¬ ∀ (config : Config) (flags : Flags) (list : WishList) (s : Stream) (name : Bytes),
      .missing name ∈ (scan config flags list s).log →
        ∃ lines, Lines lines ∧
          s.unread = lines ++ Bytes.newline :: (scan config flags list s).stream.unread := by
  intro h
  have hraw : WrittenForm .standard (Base64.encode [120]) [120] := ⟨by decide, by decide⟩
  obtain ⟨hlog, hleft⟩ :
      let r := scan .standard ⟨true, false, false⟩ ⟨[⟨[97], .str []⟩], none⟩
        (.lifted (Base64.encode [120] ++ Bytes.colon :: [65, 66])
          (Bytes.newline :: listText [([97], [49])]) .closed)
      .missing [97] ∈ r.log ∧ r.stream.unread = listText [([97], [49])] :=
    missing_of_lifted .closed hraw (by decide) rfl rfl (by decide)
  obtain ⟨lines, hlines, hconsumed⟩ := h _ _ _ _ _ hlog
  have hwire : (Stream.lifted (Base64.encode [120] ++ Bytes.colon :: [65, 66])
      (Bytes.newline :: listText [([97], [49])]) .closed).unread =
        (Base64.encode [120] ++ Bytes.colon :: [65, 66]) ++
          Bytes.newline :: listText [([97], [49])] := by
    decide
  rw [hleft, hwire] at hconsumed
  -- the line of the other attribute would be consumed without its newline
  rw [← List.append_cancel_right hconsumed] at hlines
  exact absurd (hlines.newline_mem (by decide)) (by decide)

end

end AttributeWire
