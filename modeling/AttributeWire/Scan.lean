/-
**Matching an attribute list against a wish list.**

A scan reads one list of attributes.  Named wishes are met in order: for each, names are read until
one is the name wanted, and the attributes in between are skipped.  A capture then takes every
further attribute; without a capture, and unless the rest of the list is left to the next scan, the
search for the end of the list skips what remains.  The scan stops early, without an error, when the
list ends or when an attribute stands in the way that may not be skipped.

Main definitions:

* `Attempt` — the answer of one reading step, with its log and the stream afterwards;
* `readName`, `readValue`, `seek` — a name, a value, and the next attribute that is wanted;
* `satisfy` — meets named wishes in order;
* `gather` — captures attributes until the list ends;
* `scan` — the whole of it.

Main results:

* `length_unread_readValue` — reading a value never gives input back;
* `length_unread_seek` — a search that does not fail consumes input;
* `length_unread_scan` — a scan with a named wish that does not fail consumes input.
-/

import AttributeWire.Flags
import AttributeWire.Scan.Report

set_option relaxedAutoImplicit false
set_option autoImplicit false

namespace AttributeWire

/-- The answer of one reading step, with its log and the stream afterwards. -/
structure Attempt (α : Type) where
  /-- The answer. -/
  outcome : Except ScanError α
  /-- What was logged. -/
  log : List LogEntry
  /-- The stream afterwards. -/
  stream : Stream

/-- The same step after something else was logged. -/
def Attempt.after {α : Type} (log : List LogEntry) (a : Attempt α) : Attempt α :=
  { a with log := log ++ a.log }

/-! ### Names and values -/

/-- Reads the name of an attribute, or the end of the list. -/
def readName (config : Config) (s : Stream) : Attempt Field :=
  match readField config.fieldLimit s with
  | ⟨.ok field, _, s⟩ => ⟨.ok field, [.nameRead field.plain], s⟩
  | ⟨.error e, _, s⟩ => ⟨.error (.ofField config .name e), [], s⟩

/-- Reads the one value of the attribute whose name was just read. -/
def readValue (config : Config) (kind : String) (name : Field) (s : Stream) : Attempt Bytes :=
  if name.delimiter = .newline then ⟨.error (.missingValue kind name.plain), [], s⟩
  else
    match readField config.fieldLimit s with
    | ⟨.error e, _, s⟩ => ⟨.error (.ofField config .value e), [], s⟩
    | ⟨.ok ⟨plain, .newline⟩, _, s⟩ => ⟨.ok plain, [.valueRead plain], s⟩
    | ⟨.ok ⟨plain, .colon⟩, _, s⟩ =>
        ⟨.error (.multipleValues name.plain), [.valueRead plain], s⟩

/-- An empty line, which ends the list. -/
def Field.IsTerminator (field : Field) : Prop := field = ⟨[], .newline⟩

instance (field : Field) : Decidable field.IsTerminator :=
  inferInstanceAs (Decidable (field = ⟨[], .newline⟩))

theorem length_unread_readName {config : Config} {s s' : Stream} {field : Field}
    {log : List LogEntry} (h : readName config s = ⟨.ok field, log, s'⟩) :
    s'.unread.length < s.unread.length := by
  unfold readName at h
  split at h
  · rename_i hf
    simp only [Attempt.mk.injEq] at h
    exact h.2.2 ▸ length_unread_readField hf
  · simp at h

/-- **Reading a value never gives input back.** -/
theorem length_unread_readValue (config : Config) (kind : String) (name : Field) (s : Stream) :
    (readValue config kind name s).stream.unread.length ≤ s.unread.length := by
  have hle := length_unread_readFieldFrom_le config.fieldLimit [] s
  rw [← readField] at hle
  unfold readValue
  split
  · exact Nat.le_refl _
  · split <;> simp_all

/-! ### The next attribute that is wanted -/

/-- How a search ends. -/
inductive Sighting where
  /-- The name of an attribute that is wanted. -/
  | found (name : Field)
  /-- There is none before the scan has to stop. -/
  | stopped
deriving DecidableEq, Repr

/-- The warning about a wish that the end of the list leaves open. -/
def Wanted.missingWarning (flags : Flags) : Wanted → List LogEntry
  | named name => if flags.missing then [.missing name] else []
  | any => []
  | terminator => []

/-- Reads names until one is wanted.  Attributes in between are skipped, unless unrequested
attributes stop the scan. -/
def seek (config : Config) (flags : Flags) (target : Wanted) (s : Stream) : Attempt Sighting :=
  match _h : readName config s with
  | ⟨.error e, log, s₁⟩ => ⟨.error e, .wanted target :: log, s₁⟩
  | ⟨.ok name, log, s₁⟩ =>
      -- an empty name before a colon is the name of an attribute like any other
      if name.IsTerminator then
        ⟨.ok .stopped, .wanted target :: log ++ target.missingWarning flags, s₁⟩
      else if target.Accepts name.plain then ⟨.ok (.found name), .wanted target :: log, s₁⟩
      else if flags.extra then
        ⟨.ok .stopped, .wanted target :: log ++ [.spurious name.plain], s₁⟩
      else if name.delimiter = .newline then
        (seek config flags target s₁).after (.wanted target :: log)
      else
        -- if the input ends within the line, the next name finds that out
        match _hskip : skipLine s₁ with
        | (.error fault, s₂) => ⟨.error (.ofFault config fault), .wanted target :: log, s₂⟩
        | (.ok _, s₂) => (seek config flags target s₂).after (.wanted target :: log)
termination_by s.unread.length
decreasing_by
  · exact length_unread_readName _h
  · have hle := length_unread_skipLine s₁
    rw [_hskip] at hle
    exact Nat.lt_of_le_of_lt hle (length_unread_readName _h)

/-- **A search that does not fail consumes input.** -/
theorem length_unread_seek (config : Config) (flags : Flags) (target : Wanted) (s : Stream)
    {sighting : Sighting} (h : (seek config flags target s).outcome = .ok sighting) :
    (seek config flags target s).stream.unread.length < s.unread.length := by
  fun_induction seek config flags target s with
  | case1 => simp at h
  | case2 s log s₁ hread => exact length_unread_readName hread
  | case3 s field log s₁ hread => exact length_unread_readName hread
  | case4 s field log s₁ hread => exact length_unread_readName hread
  | case5 s field log s₁ hread hterm hacc hextra hend ih =>
      exact Nat.lt_trans (ih h) (length_unread_readName hread)
  | case6 => simp at h
  | case7 s field log s₁ hread hterm hacc hextra hend found s₂ hskip ih =>
      have hle := length_unread_skipLine s₁
      rw [hskip] at hle
      exact Nat.lt_trans (ih h) (Nat.lt_of_le_of_lt hle (length_unread_readName hread))

/-! ### Named wishes -/

/-- How far the named wishes were met. -/
inductive Progress where
  /-- All of them. -/
  | complete
  /-- The scan stopped before one of them was met. -/
  | stopped
  /-- The scan failed. -/
  | failed (error : ScanError)
deriving DecidableEq, Repr

/-- What meeting named wishes gives. -/
structure Satisfied where
  /-- The wishes, with the values that were stored. -/
  wishes : List Wish
  /-- How many of them were met. -/
  count : Nat
  /-- Whether that is all. -/
  progress : Progress
  /-- What was logged. -/
  log : List LogEntry
  /-- The stream afterwards. -/
  stream : Stream

/-- The same after one more wish was met before and something else was logged. -/
def Satisfied.after (wish : Wish) (log : List LogEntry) (r : Satisfied) : Satisfied :=
  ⟨wish :: r.wishes, r.count + 1, r.progress, log ++ r.log, r.stream⟩

/-- Meets named wishes in order.  A value is stored as soon as it is read and converted. -/
def satisfy (config : Config) (flags : Flags) : List Wish → Stream → Satisfied
  | [], s => ⟨[], 0, .complete, [], s⟩
  | wish :: wishes, s =>
      match seek config flags (.named wish.name) s with
      | ⟨.error e, log, s⟩ => ⟨wish :: wishes, 0, .failed e, log, s⟩
      | ⟨.ok .stopped, log, s⟩ => ⟨wish :: wishes, 0, .stopped, log, s⟩
      | ⟨.ok (.found name), log, s⟩ =>
          match readValue config wish.value.kindText name s with
          | ⟨.error e, log', s⟩ => ⟨wish :: wishes, 0, .failed e, log ++ log', s⟩
          | ⟨.ok value, log', s⟩ =>
              match wish.value.read? value with
              | none =>
                  -- the value was read, but the destination keeps what it held
                  ⟨wish :: wishes, 0, .failed (.malformedNumber (value.take echoLength)),
                    log ++ log', s⟩
              | some stored =>
                  (satisfy config flags wishes s).after ⟨wish.name, stored⟩ (log ++ log')

/-- Meeting named wishes, as far as it does not fail, never gives input back. -/
theorem length_unread_satisfy_le (config : Config) (flags : Flags) (wishes : List Wish)
    (s : Stream) (h : ∀ e, (satisfy config flags wishes s).progress ≠ .failed e) :
    (satisfy config flags wishes s).stream.unread.length ≤ s.unread.length := by
  fun_induction satisfy config flags wishes s with
  | case1 => exact Nat.le_refl _
  | case2 => simp at h
  | case3 wish wishes s log s₁ hseek =>
      have hlt := length_unread_seek config flags (.named wish.name) s (by rw [hseek])
      rw [hseek] at hlt
      exact Nat.le_of_lt hlt
  | case4 => simp at h
  | case5 => simp at h
  | case6 wish wishes s name log s₁ hseek value log' s₂ hvalue stored hstored ih =>
      have hlt := length_unread_seek config flags (.named wish.name) s (by rw [hseek])
      have hle := length_unread_readValue config wish.value.kindText name s₁
      rw [hseek] at hlt
      rw [hvalue] at hle
      exact Nat.le_trans (ih h) (Nat.le_trans hle (Nat.le_of_lt hlt))

/-- Meeting at least one named wish, as far as it does not fail, consumes input. -/
theorem length_unread_satisfy_cons (config : Config) (flags : Flags) (wish : Wish)
    (wishes : List Wish) (s : Stream)
    (h : ∀ e, (satisfy config flags (wish :: wishes) s).progress ≠ .failed e) :
    (satisfy config flags (wish :: wishes) s).stream.unread.length < s.unread.length := by
  unfold satisfy at h ⊢
  split
  · rename_i hseek
    simp [hseek] at h
  · rename_i hseek
    have hlt := length_unread_seek config flags (.named wish.name) s (by rw [hseek])
    rw [hseek] at hlt
    exact hlt
  · rename_i name log s₁ hseek
    have hlt := length_unread_seek config flags (.named wish.name) s (by rw [hseek])
    have hle := length_unread_readValue config wish.value.kindText name s₁
    rw [hseek] at hlt
    split
    · rename_i hvalue
      simp [hseek, hvalue] at h
    · rename_i value log' s₂ hvalue
      rw [hvalue] at hle
      split
      · rename_i hstored
        simp [hseek, hvalue, hstored] at h
      · rename_i stored hstored
        simp only [hseek, hvalue, hstored] at h
        have hrest := length_unread_satisfy_le config flags wishes s₂ h
        exact Nat.lt_of_le_of_lt hrest (Nat.lt_of_le_of_lt hle hlt)

/-! ### Captures -/

/-- What capturing attributes gives. -/
structure Gathered where
  /-- The table, with the attributes that were captured. -/
  table : Table
  /-- How many new names it has. -/
  count : Nat
  /-- Why the capture failed, if it did. -/
  outcome : Except ScanError Unit
  /-- What was logged. -/
  log : List LogEntry
  /-- The stream afterwards. -/
  stream : Stream

/-- The same capture after `count` other names were captured and something else was logged. -/
def Gathered.after (count : Nat) (log : List LogEntry) (g : Gathered) : Gathered :=
  { g with count := g.count + count, log := log ++ g.log }

/-- Captures attributes until the list ends.  The first value of a name is kept; another one stops
the scan if unrequested attributes do. -/
def gather (config : Config) (flags : Flags) (table : Table) (s : Stream) : Gathered :=
  match _h : seek config flags .any s with
  | ⟨.error e, log, s₁⟩ => ⟨table, 0, .error e, log, s₁⟩
  | ⟨.ok .stopped, log, s₁⟩ => ⟨table, 0, .ok (), log, s₁⟩
  | ⟨.ok (.found name), log, s₁⟩ =>
      match _hvalue : readValue config "string" name s₁ with
      | ⟨.error e, log', s₂⟩ => ⟨table, 0, .error e, log ++ log', s₂⟩
      | ⟨.ok value, log', s₂⟩ =>
          match table.get? name.plain with
          | some _ =>
              -- the value has been read by now, so the next name begins a line
              if flags.extra then
                ⟨table, 0, .ok (), log ++ log' ++ [.duplicate name.plain], s₂⟩
              else
                (gather config flags table s₂).after 0 (log ++ log')
          | none =>
              (gather config flags (table.insert name.plain value) s₂).after 1 (log ++ log')
termination_by s.unread.length
decreasing_by
  all_goals
    have hlt := length_unread_seek config flags .any s (by rw [_h])
    have hle := length_unread_readValue config "string" name s₁
    rw [_h] at hlt
    rw [_hvalue] at hle
    exact Nat.lt_of_le_of_lt hle hlt

/-- Capturing attributes, as far as it does not fail, consumes input. -/
theorem length_unread_gather (config : Config) (flags : Flags) (table : Table) (s : Stream)
    (h : (gather config flags table s).outcome = .ok ()) :
    (gather config flags table s).stream.unread.length < s.unread.length := by
  fun_induction gather config flags table s with
  | case1 => simp at h
  | case2 table s log s₁ hseek =>
      have hlt := length_unread_seek config flags .any s (by rw [hseek])
      rw [hseek] at hlt
      exact hlt
  | case3 => simp at h
  | case4 table s name log s₁ hseek value log' s₂ hvalue =>
      have hlt := length_unread_seek config flags .any s (by rw [hseek])
      have hle := length_unread_readValue config "string" name s₁
      rw [hseek] at hlt
      rw [hvalue] at hle
      exact Nat.lt_of_le_of_lt hle hlt
  | case5 table s name log s₁ hseek value log' s₂ hvalue old hold hextra ih =>
      have hlt := length_unread_seek config flags .any s (by rw [hseek])
      have hle := length_unread_readValue config "string" name s₁
      rw [hseek] at hlt
      rw [hvalue] at hle
      exact Nat.lt_trans (ih h) (Nat.lt_of_le_of_lt hle hlt)
  | case6 table s name log s₁ hseek value log' s₂ hvalue hnew ih =>
      have hlt := length_unread_seek config flags .any s (by rw [hseek])
      have hle := length_unread_readValue config "string" name s₁
      rw [hseek] at hlt
      rw [hvalue] at hle
      exact Nat.lt_trans (ih h) (Nat.lt_of_le_of_lt hle hlt)

/-! ### The scan -/

/-- What a scan gives. -/
structure ScanResult where
  /-- How many wishes were met, each captured attribute counting as one. -/
  outcome : Except ScanError Nat
  /-- The wish list, with the values that were stored. -/
  list : WishList
  /-- What was logged. -/
  log : List LogEntry
  /-- The stream afterwards. -/
  stream : Stream

/-- What follows the named wishes: the capture, or the search for the end of the list unless the
rest of it is left to the next scan. -/
def finish (config : Config) (flags : Flags) (capture : Option Table) (named : Satisfied) :
    ScanResult :=
  match capture with
  | some table =>
      let rest := gather config flags table named.stream
      ⟨rest.outcome.map fun _ => named.count + rest.count, ⟨named.wishes, some rest.table⟩,
        named.log ++ rest.log, rest.stream⟩
  | none =>
      if flags.more then ⟨.ok named.count, ⟨named.wishes, none⟩, named.log, named.stream⟩
      else
        -- no attribute is wanted any more, so this only looks for the end of the list
        let rest := seek config flags .terminator named.stream
        ⟨rest.outcome.map fun _ => named.count, ⟨named.wishes, none⟩, named.log ++ rest.log,
          rest.stream⟩

/-- Reads the next attribute list. -/
def scan (config : Config) (flags : Flags) (list : WishList) (s : Stream) : ScanResult :=
  let named := satisfy config flags list.wishes s
  match named.progress with
  | .failed e => ⟨.error e, ⟨named.wishes, list.capture⟩, named.log, named.stream⟩
  | .stopped => ⟨.ok named.count, ⟨named.wishes, list.capture⟩, named.log, named.stream⟩
  | .complete => finish config flags list.capture named

theorem length_unread_finish_le {config : Config} {flags : Flags} {capture : Option Table}
    {named : Satisfied} {n : Nat} (h : (finish config flags capture named).outcome = .ok n) :
    (finish config flags capture named).stream.unread.length ≤ named.stream.unread.length := by
  unfold finish at h ⊢
  split
  · rename_i table
    simp only at h ⊢
    cases hr : (gather config flags table named.stream).outcome with
    | error e => simp [hr, Except.map] at h
    | ok u => exact Nat.le_of_lt (length_unread_gather config flags table named.stream hr)
  · split
    · exact Nat.le_refl _
    · rename_i hmore
      simp only [hmore] at h ⊢
      cases hr : (seek config flags .terminator named.stream).outcome with
      | error e => simp [hr, Except.map] at h
      | ok u => exact Nat.le_of_lt (length_unread_seek config flags .terminator _ hr)

/-- **A scan with a named wish that does not fail consumes input.** -/
theorem length_unread_scan {config : Config} {flags : Flags} {list : WishList} {s : Stream}
    {n : Nat} (hne : list.wishes ≠ []) (h : (scan config flags list s).outcome = .ok n) :
    (scan config flags list s).stream.unread.length < s.unread.length := by
  obtain ⟨wishes, capture⟩ := list
  cases wishes with
  | nil => exact absurd rfl hne
  | cons wish wishes =>
      have hcons := length_unread_satisfy_cons config flags wish wishes s
      unfold scan at h ⊢
      simp only at h ⊢
      split
      · rename_i e hp
        simp [hp] at h
      · rename_i hp
        exact hcons (by simp [hp])
      · rename_i hp
        simp only [hp] at h
        exact Nat.lt_of_le_of_lt (length_unread_finish_le h) (hcons (by simp [hp]))

end AttributeWire
