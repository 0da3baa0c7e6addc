/-
**One attribute of a written list, as a reader meets it.**

A list that was written is ahead on the stream attribute by attribute.  For each way in which a
search, a named wish or a capture may meet the next attribute or the end of the list there is one
lemma here: it says what the step answers, what it logs, and which bytes it reads past.  Everything
that is known of matching whole lists follows from these by induction on the list.

Main definitions:

* `Config.Fits`, `Config.FitsAll` — the written form of a byte string, or of all names and values of
  some attributes, is within the limit;
* `attributeLines` — the lines of some attributes;
* `LogEntry.warnings` — the warnings of a log.

Main results:

* `seek_of_terminator`, `seek_of_accepted`, `seek_of_spurious`, `seek_of_skipped` — **the four ways
  of a search**;
* `satisfy_of_met`, `satisfy_of_skipped` — **the ways of a named wish** that go on;
* `gather_of_terminator`, `gather_of_ahead` — **the ways of a capture**.
-/

import AttributeWire.Printer
import AttributeWire.Scan
import AttributeWire.Proofs.Base64

set_option relaxedAutoImplicit false
set_option autoImplicit false

namespace AttributeWire

/-! ### Limits, lines and warnings -/

/-- The written form of a byte string is within the limit. -/
def Config.Fits (config : Config) (bytes : Bytes) : Prop :=
  (Base64.encode bytes).length ≤ config.fieldLimit

instance (config : Config) (bytes : Bytes) : Decidable (config.Fits bytes) :=
  inferInstanceAs (Decidable ((Base64.encode bytes).length ≤ config.fieldLimit))

/-- The written forms of all names and values are within the limit. -/
def Config.FitsAll (config : Config) (attributes : List (Bytes × Bytes)) : Prop :=
  ∀ pair ∈ attributes, config.Fits pair.1 ∧ config.Fits pair.2

instance (config : Config) (attributes : List (Bytes × Bytes)) :
    Decidable (config.FitsAll attributes) :=
  inferInstanceAs (Decidable (∀ pair ∈ attributes, config.Fits pair.1 ∧ config.Fits pair.2))

@[simp] theorem Config.fitsAll_nil (config : Config) : config.FitsAll [] := by simp [FitsAll]

@[simp] theorem Config.fitsAll_cons {config : Config} {pair : Bytes × Bytes}
    {attributes : List (Bytes × Bytes)} :
    config.FitsAll (pair :: attributes) ↔
      (config.Fits pair.1 ∧ config.Fits pair.2) ∧ config.FitsAll attributes := by
  simp [FitsAll]

@[simp] theorem Config.fits_nil (config : Config) : config.Fits [] := Nat.zero_le _

/-- The lines of some attributes. -/
def attributeLines (attributes : List (Bytes × Bytes)) : Bytes :=
  attributes.flatMap fun pair => attributeLine pair.1 pair.2

@[simp] theorem attributeLines_nil : attributeLines [] = [] := rfl

@[simp] theorem attributeLines_cons (name value : Bytes) (rest : List (Bytes × Bytes)) :
    attributeLines ((name, value) :: rest) = attributeLine name value ++ attributeLines rest := by
  simp [attributeLines]

@[simp] theorem attributeLines_append (attributes more : List (Bytes × Bytes)) :
    attributeLines (attributes ++ more) = attributeLines attributes ++ attributeLines more := by
  simp [attributeLines]

theorem listText_eq (attributes : List (Bytes × Bytes)) :
    listText attributes = attributeLines attributes ++ terminatorLine := rfl

theorem listText_append (attributes more : List (Bytes × Bytes)) :
    listText (attributes ++ more) = attributeLines attributes ++ listText more := by
  rw [listText_eq, listText_eq, attributeLines_append, List.append_assoc]

theorem attributeLines_take_append (n : Nat) (attributes : List (Bytes × Bytes)) :
    attributeLines (attributes.take n) ++ listText (attributes.drop n) = listText attributes := by
  rw [← listText_append, List.take_append_drop]

namespace LogEntry

/-- The warnings of a log. -/
def warnings (log : List LogEntry) : List LogEntry := log.filter fun entry => entry.level = .warn

@[simp] theorem warnings_nil : warnings [] = [] := rfl

@[simp] theorem warnings_append (log more : List LogEntry) :
    warnings (log ++ more) = warnings log ++ warnings more := by
  simp [warnings]

@[simp] theorem warnings_wanted_cons (target : Wanted) (log : List LogEntry) :
    warnings (.wanted target :: log) = warnings log := rfl

@[simp] theorem warnings_nameRead_cons (plain : Bytes) (log : List LogEntry) :
    warnings (.nameRead plain :: log) = warnings log := rfl

@[simp] theorem warnings_valueRead_cons (plain : Bytes) (log : List LogEntry) :
    warnings (.valueRead plain :: log) = warnings log := rfl

@[simp] theorem warnings_spurious_cons (name : Bytes) (log : List LogEntry) :
    warnings (.spurious name :: log) = .spurious name :: warnings log := rfl

@[simp] theorem warnings_duplicate_cons (name : Bytes) (log : List LogEntry) :
    warnings (.duplicate name :: log) = .duplicate name :: warnings log := rfl

@[simp] theorem warnings_missingWarning (flags : Flags) (target : Wanted) :
    warnings (target.missingWarning flags) = target.missingWarning flags := by
  cases target with
  | named name =>
      simp only [Wanted.missingWarning]
      split <;> rfl
  | any => rfl
  | terminator => rfl

end LogEntry

/-! ### Names and values -/

section

variable {config : Config} {flags : Flags} {target : Wanted} {s : Stream} {name value rest : Bytes}

theorem readName_of_ahead (name : Bytes) (d : Delimiter) (hs : s.Gapless) (hname : config.Fits name)
    (hahead : s.ahead = Base64.encode name ++ d.byte :: rest) :
    ∃ s', readName config s = ⟨.ok ⟨name, d⟩, [.nameRead name], s'⟩ ∧
      s.Advances (Base64.encode name ++ [d.byte]) s' := by
  obtain ⟨s', hread, hadv⟩ := readField_of_ahead hs (Base64.undelimited_encode name) hahead hname
  refine ⟨s', ?_, hadv⟩
  simp [readName, hread, Field.ofRaw, Base64.decode?_encode]

theorem readName_of_terminator (config : Config) (hs : s.Gapless)
    (hahead : s.ahead = terminatorLine ++ rest) :
    ∃ s', readName config s = ⟨.ok ⟨[], .newline⟩, [.nameRead []], s'⟩ ∧
      s.Advances terminatorLine s' :=
  readName_of_ahead [] .newline hs config.fits_nil hahead

theorem readName_of_line (hs : s.Gapless) (hname : config.Fits name)
    (hahead : s.ahead = attributeLine name value ++ rest) :
    ∃ s', readName config s = ⟨.ok ⟨name, .colon⟩, [.nameRead name], s'⟩ ∧
      s.Advances (Base64.encode name ++ [Bytes.colon]) s' ∧
      s'.ahead = Base64.encode value ++ Bytes.newline :: rest := by
  have hcolon : s.ahead = Base64.encode name ++
      Delimiter.colon.byte :: (Base64.encode value ++ Bytes.newline :: rest) := by
    simp [hahead, attributeLine, Delimiter.byte]
  obtain ⟨s', hread, hadv⟩ := readName_of_ahead name .colon hs hname hcolon
  exact ⟨s', hread, hadv, hadv.ahead_eq (by simp [hcolon])⟩

theorem readValue_of_ahead (kind : String) (name : Bytes) (hs : s.Gapless)
    (hvalue : config.Fits value)
    (hahead : s.ahead = Base64.encode value ++ Bytes.newline :: rest) :
    ∃ s', readValue config kind ⟨name, .colon⟩ s = ⟨.ok value, [.valueRead value], s'⟩ ∧
      s.Advances (Base64.encode value ++ [Bytes.newline]) s' := by
  obtain ⟨s', hread, hadv⟩ :=
    readField_of_ahead (d := .newline) hs (Base64.undelimited_encode value) hahead hvalue
  refine ⟨s', ?_, hadv⟩
  simp [readValue, hread, Field.ofRaw, Base64.decode?_encode]

/-! ### Searching -/

/-- What a search does once a name is read. -/
theorem seek_of_readName {name : Field} {log : List LogEntry} {s₁ : Stream}
    (h : readName config s = ⟨.ok name, log, s₁⟩) :
    seek config flags target s =
      if name.IsTerminator then
        ⟨.ok .stopped, .wanted target :: log ++ target.missingWarning flags, s₁⟩
      else if target.Accepts name.plain then ⟨.ok (.found name), .wanted target :: log, s₁⟩
      else if flags.extra then
        ⟨.ok .stopped, .wanted target :: log ++ [.spurious name.plain], s₁⟩
      else if name.delimiter = .newline then
        (seek config flags target s₁).after (.wanted target :: log)
      else
        match skipLine s₁ with
        | (.error fault, s₂) => ⟨.error (.ofFault config fault), .wanted target :: log, s₂⟩
        | (.ok _, s₂) => (seek config flags target s₂).after (.wanted target :: log) := by
  rw [seek]
  split
  · rename_i h'
    simp [h] at h'
  · rename_i h'
    rw [h, Attempt.mk.injEq, Except.ok.injEq] at h'
    obtain ⟨rfl, rfl, rfl⟩ := h'
    rcases skipLine s₁ with ⟨_ | _, s₂⟩ <;> rfl

theorem seek_of_readName_error {e : ScanError} {log : List LogEntry} {s₁ : Stream}
    (h : readName config s = ⟨.error e, log, s₁⟩) :
    seek config flags target s = ⟨.error e, .wanted target :: log, s₁⟩ := by
  rw [seek]
  split
  · rename_i h'
    rw [h, Attempt.mk.injEq, Except.error.injEq] at h'
    obtain ⟨rfl, rfl, rfl⟩ := h'
    rfl
  · rename_i h'
    simp [h] at h'

theorem not_isTerminator_colon (name : Bytes) : ¬ Field.IsTerminator ⟨name, .colon⟩ := by
  simp [Field.IsTerminator]

theorem seek_of_terminator (config : Config) (flags : Flags) (target : Wanted) (hs : s.Gapless)
    (hahead : s.ahead = terminatorLine ++ rest) :
    ∃ s', seek config flags target s =
        ⟨.ok .stopped, [.wanted target, .nameRead []] ++ target.missingWarning flags, s'⟩ ∧
      s.Advances terminatorLine s' := by
  obtain ⟨s', hread, hadv⟩ := readName_of_terminator config hs hahead
  refine ⟨s', ?_, hadv⟩
  rw [seek_of_readName hread, if_pos rfl]
  rfl

theorem seek_of_accepted (flags : Flags) (hs : s.Gapless) (hname : config.Fits name)
    (hahead : s.ahead = attributeLine name value ++ rest) (haccepts : target.Accepts name) :
    ∃ s', seek config flags target s =
        ⟨.ok (.found ⟨name, .colon⟩), [.wanted target, .nameRead name], s'⟩ ∧
      s.Advances (Base64.encode name ++ [Bytes.colon]) s' ∧
      s'.ahead = Base64.encode value ++ Bytes.newline :: rest := by
  obtain ⟨s', hread, hadv, hrest⟩ := readName_of_line hs hname hahead
  refine ⟨s', ?_, hadv, hrest⟩
  rw [seek_of_readName hread, if_neg (not_isTerminator_colon name), if_pos haccepts]

theorem seek_of_spurious (target : Wanted) (hextra : flags.extra = true) (hs : s.Gapless)
    (hname : config.Fits name) (hahead : s.ahead = attributeLine name value ++ rest)
    (haccepts : ¬ target.Accepts name) :
    ∃ s', seek config flags target s =
        ⟨.ok .stopped, [.wanted target, .nameRead name, .spurious name], s'⟩ ∧
      s.Advances (Base64.encode name ++ [Bytes.colon]) s' ∧
      s'.ahead = Base64.encode value ++ Bytes.newline :: rest := by
  obtain ⟨s', hread, hadv, hrest⟩ := readName_of_line hs hname hahead
  refine ⟨s', ?_, hadv, hrest⟩
  rw [seek_of_readName hread, if_neg (not_isTerminator_colon name), if_neg haccepts,
    if_pos hextra]
  rfl

theorem seek_of_skipped (target : Wanted) (hextra : flags.extra = false) (hs : s.Gapless)
    (hname : config.Fits name) (hahead : s.ahead = attributeLine name value ++ rest)
    (haccepts : ¬ target.Accepts name) :
    ∃ s', seek config flags target s =
        (seek config flags target s').after [.wanted target, .nameRead name] ∧
      s.Advances (attributeLine name value) s' := by
  obtain ⟨s₁, hread, hadv₁, hrest⟩ := readName_of_line hs hname hahead
  obtain ⟨s', hskip, hadv'⟩ := skipLine_of_ahead _ s₁ hadv₁.gapless
    (Base64.undelimited_encode value).newline_not_mem hrest
  refine ⟨s', ?_, ?_⟩
  · have hcolon : ¬ Delimiter.colon = .newline := by simp
    rw [seek_of_readName hread, if_neg (not_isTerminator_colon name), if_neg haccepts, hextra,
      if_neg Bool.false_ne_true, if_neg hcolon, hskip]
  · have hadv := hadv₁.trans hadv'
    simpa [attributeLine] using hadv

/-! ### Named wishes -/

/-- The same after something else was logged. -/
def Satisfied.logged (log : List LogEntry) (r : Satisfied) : Satisfied :=
  { r with log := log ++ r.log }

variable {wish : Wish} {wishes : List Wish}

theorem satisfy_of_met (flags : Flags) (wishes : List Wish) {stored : Value} (hs : s.Gapless)
    (hname : config.Fits wish.name) (hvalue : config.Fits value)
    (hahead : s.ahead = attributeLine wish.name value ++ rest)
    (hstored : wish.value.read? value = some stored) :
    ∃ s', satisfy config flags (wish :: wishes) s =
        (satisfy config flags wishes s').after ⟨wish.name, stored⟩
          [.wanted (.named wish.name), .nameRead wish.name, .valueRead value] ∧
      s.Advances (attributeLine wish.name value) s' := by
  obtain ⟨s₁, hseek, hadv₁, hrest⟩ :=
    seek_of_accepted flags hs hname hahead (Wanted.accepts_named.2 rfl)
  obtain ⟨s', hread, hadv'⟩ :=
    readValue_of_ahead wish.value.kindText wish.name hadv₁.gapless hvalue hrest
  refine ⟨s', ?_, ?_⟩
  · rw [satisfy, hseek]
    simp only [hread, hstored]
    rfl
  · have hadv := hadv₁.trans hadv'
    simpa [attributeLine] using hadv

theorem satisfy_of_skipped (wishes : List Wish) (hextra : flags.extra = false) (hs : s.Gapless)
    (hname : config.Fits name) (hahead : s.ahead = attributeLine name value ++ rest)
    (hne : wish.name ≠ name) :
    ∃ s', satisfy config flags (wish :: wishes) s =
        (satisfy config flags (wish :: wishes) s').logged
          [.wanted (.named wish.name), .nameRead name] ∧
      s.Advances (attributeLine name value) s' := by
  obtain ⟨s', hseek, hadv⟩ :=
    seek_of_skipped (.named wish.name) hextra hs hname hahead hne
  refine ⟨s', ?_, hadv⟩
  rw [satisfy, satisfy, hseek]
  rcases seek config flags (.named wish.name) s' with ⟨_ | found | _, log, s₂⟩
  · rfl
  · simp only [Attempt.after]
    rcases readValue config wish.value.kindText found s₂ with ⟨_ | value, log', s₃⟩
    · simp [Satisfied.logged]
    · cases hstored : wish.value.read? value <;>
        simp [Satisfied.logged, Satisfied.after, hstored]
  · rfl

/-! ### Captures -/

/-- What a capture does, by what it finds. -/
theorem gather_eq (config : Config) (flags : Flags) (table : Table) (s : Stream) :
    gather config flags table s =
      match seek config flags .any s with
      | ⟨.error e, log, s₁⟩ => ⟨table, 0, .error e, log, s₁⟩
      | ⟨.ok .stopped, log, s₁⟩ => ⟨table, 0, .ok (), log, s₁⟩
      | ⟨.ok (.found name), log, s₁⟩ =>
          match readValue config "string" name s₁ with
          | ⟨.error e, log', s₂⟩ => ⟨table, 0, .error e, log ++ log', s₂⟩
          | ⟨.ok value, log', s₂⟩ =>
              match table.get? name.plain with
              | some _ =>
                  if flags.extra then
                    ⟨table, 0, .ok (), log ++ log' ++ [.duplicate name.plain], s₂⟩
                  else (gather config flags table s₂).after 0 (log ++ log')
              | none =>
                  (gather config flags (table.insert name.plain value) s₂).after 1
                    (log ++ log') := by
  rw [gather]
  rcases seek config flags .any s with ⟨_ | name | _, log, s₁⟩
  · rfl
  · dsimp only
    rcases readValue config "string" name s₁ with ⟨_ | _, log', s₂⟩ <;> rfl
  · rfl

/-- What a capture does once an attribute is read. -/
theorem gather_of_readValue {table : Table} {name : Field} {log log' : List LogEntry}
    {s₁ s₂ : Stream} (hseek : seek config flags .any s = ⟨.ok (.found name), log, s₁⟩)
    (hvalue : readValue config "string" name s₁ = ⟨.ok value, log', s₂⟩) :
    gather config flags table s =
      match table.get? name.plain with
      | some _ =>
          if flags.extra then ⟨table, 0, .ok (), log ++ log' ++ [.duplicate name.plain], s₂⟩
          else (gather config flags table s₂).after 0 (log ++ log')
      | none =>
          (gather config flags (table.insert name.plain value) s₂).after 1 (log ++ log') := by
  rw [gather_eq, hseek]
  simp only [hvalue]

theorem gather_of_terminator (flags : Flags) (table : Table) (hs : s.Gapless)
    (hahead : s.ahead = terminatorLine ++ rest) :
    ∃ s', gather config flags table s =
        ⟨table, 0, .ok (), [.wanted .any, .nameRead []], s'⟩ ∧ s.Advances terminatorLine s' := by
  obtain ⟨s', hseek, hadv⟩ := seek_of_terminator config flags .any hs hahead
  refine ⟨s', ?_, hadv⟩
  rw [gather_eq, hseek]
  rfl

/-- Capturing reads the attribute that is ahead. -/
theorem gather_of_ahead (flags : Flags) (table : Table) (hs : s.Gapless)
    (hname : config.Fits name) (hvalue : config.Fits value)
    (hahead : s.ahead = attributeLine name value ++ rest) :
    ∃ s', gather config flags table s =
        (match table.get? name with
        | some _ =>
            if flags.extra then
              ⟨table, 0, .ok (),
                [.wanted .any, .nameRead name, .valueRead value, .duplicate name], s'⟩
            else
              (gather config flags table s').after 0
                [.wanted .any, .nameRead name, .valueRead value]
        | none =>
            (gather config flags (table.insert name value) s').after 1
              [.wanted .any, .nameRead name, .valueRead value]) ∧
      s.Advances (attributeLine name value) s' := by
  obtain ⟨s₁, hseek, hadv₁, hrest⟩ :=
    seek_of_accepted flags hs hname hahead (Wanted.accepts_any name)
  obtain ⟨s', hread, hadv'⟩ :=
    readValue_of_ahead "string" name hadv₁.gapless hvalue hrest
  refine ⟨s', gather_of_readValue hseek hread, ?_⟩
  have hadv := hadv₁.trans hadv'
  simpa [attributeLine] using hadv

end

end AttributeWire
