/-
**A scan reads fields and skips lines, and nothing else.**

Between its stream and the one it leaves, a scan does nothing but read fields and skip the rest of
lines, one after the other.  The fields it reads are told from these streams: those that can be read
are what its log says was read, in the same order; and a scan that fails over something it could not
read fails over the last of them, or over the line behind it.

Main definitions:

* `Readings` — reading a field from each of some streams in turn leads from one stream to another;
* `FieldRead.plain?`, `LogEntry.plain?` — what was read, and what a log entry says was read;
* `plainsFrom`, `plainsOf` — what was read from the streams, and what a log says was read;
* `ScanError.StopsAt` — what an error of a scan says of the last stream;
* `ReadsFrom` — the streams from which a scan reads its fields.

Main results:

* `Pass.readings`, `Reaches.readings` — **the fields of a line that is passed**, and of all of them;
* `Breakdown.readsFrom`, `Stop.readsFrom` — **the fields where a step fails**, and where a scan
  stops;
* `exists_readsFrom` — **every scan reads fields and skips lines**.
-/

import AttributeWire.Proofs.Failure

set_option relaxedAutoImplicit false
set_option autoImplicit false

namespace AttributeWire

/-! ### Readings one after the other -/

/-- Reading a field from each of the streams in turn leads from the first stream to the last, if
lines are skipped in between. -/
inductive Readings (limit : Nat) : Stream → List Stream → Stream → Prop
  | done (s : Stream) : Readings limit s [] s
  | field {s u : Stream} {sources : List Stream}
      (h : Readings limit (readField limit s).stream sources u) : Readings limit s (s :: sources) u
  | line {s u : Stream} {sources : List Stream} (h : Readings limit (skipLine s).2 sources u) :
      Readings limit s sources u

/-- What was read, if it could be. -/
def FieldRead.plain? (r : FieldRead) : Option Bytes :=
  match r.outcome with
  | .ok field => some field.plain
  | .error _ => none

/-- The field that a log entry says was read. -/
def LogEntry.plain? : LogEntry → Option Bytes
  | .nameRead plain => some plain
  | .valueRead plain => some plain
  | _ => none

/-- The fields that a log says were read, in order. -/
def plainsOf (log : List LogEntry) : List Bytes := log.filterMap LogEntry.plain?

/-- The fields that can be read from the sources, in order. -/
def plainsFrom (limit : Nat) (sources : List Stream) : List Bytes :=
  sources.filterMap fun s => (readField limit s).plain?

theorem plainsOf_append (log log' : List LogEntry) :
    plainsOf (log ++ log') = plainsOf log ++ plainsOf log' := List.filterMap_append

theorem plainsFrom_append (limit : Nat) (sources sources' : List Stream) :
    plainsFrom limit (sources ++ sources') =
      plainsFrom limit sources ++ plainsFrom limit sources' :=
  List.filterMap_append

theorem plainsFrom_cons (limit : Nat) (s : Stream) (sources : List Stream) :
    plainsFrom limit (s :: sources) =
      (readField limit s).plain?.toList ++ plainsFrom limit sources := by
  simp only [plainsFrom, List.filterMap_cons]
  cases (readField limit s).plain? with
  | none => rfl
  | some plain => rfl

/-- A warning about a wish that is left open is about no field. -/
theorem plainsOf_missingWarning (flags : Flags) (target : Wanted) :
    plainsOf (target.missingWarning flags) = [] := by
  cases target with
  | named name =>
      rw [Wanted.missingWarning]
      split <;> rfl
  | any => rfl
  | terminator => rfl

namespace Readings

variable {limit : Nat} {s t u : Stream} {sources sources' : List Stream}

theorem append (h : Readings limit s sources t) (h' : Readings limit t sources' u) :
    Readings limit s (sources ++ sources') u := by
  induction h with
  | done => exact h'
  | field _ ih => exact .field (ih h')
  | line _ ih => exact .line (ih h')

/-- What reading keeps holds wherever a field is read, and at the end. -/
theorem kept {P : Stream → Prop} (hP : KeptByReading limit P) (h : Readings limit s sources u)
    (hs : P s) : (∀ s' ∈ sources, P s') ∧ P u := by
  induction h with
  | done => exact ⟨by simp, hs⟩
  | field _ ih =>
      obtain ⟨hsources, hu⟩ := ih (hP.field hs)
      exact ⟨List.forall_mem_cons.2 ⟨hs, hsources⟩, hu⟩
  | line _ ih => exact ih (hP.line hs)

end Readings

/-! ### The fields of a scan -/

section

variable (config : Config)

/-- The error is over an attribute that was read, or over the last of the sources: the field there
cannot be read, or the line behind it cannot be skipped. -/
def ScanError.StopsAt (sources : List Stream) (e : ScanError) : Prop :=
  e.OfAttribute ∨ ∃ s, sources.getLast? = some s ∧
    ((∃ part e', (readField config.fieldLimit s).outcome = .error e' ∧
        e = .ofField config part e') ∨
      ∃ fault, (skipLine (readField config.fieldLimit s).stream).1 = .error fault ∧
        e = .ofFault config fault)

/-- The scan of the stream reads its fields from the sources. -/
structure ReadsFrom (s : Stream) (sources : List Stream) (r : ScanResult) : Prop where
  readings : Readings config.fieldLimit s sources r.stream
  log : plainsOf r.log = plainsFrom config.fieldLimit sources
  failed : ∀ e, r.outcome = .error e → e.StopsAt config sources

end

section

variable {config : Config} {flags : Flags} {list list' : WishList} {s s' s₁ u : Stream}
  {target : Wanted} {name : Field} {value : Bytes} {gain : Gain} {r : ScanResult}

theorem Sees.readField (h : Sees config flags list s target name s₁) :
    ∃ raw, readField config.fieldLimit s = ⟨.ok name, raw, s₁⟩ := by
  have hread := h.read
  unfold readName at hread
  split at hread
  · rename_i field raw t hfield
    obtain ⟨hok, -, rfl⟩ := Attempt.mk.inj hread
    obtain rfl := Except.ok.inj hok
    exact ⟨raw, hfield⟩
  · cases hread

theorem Sees.plain? (h : Sees config flags list s target name s₁) :
    (AttributeWire.readField config.fieldLimit s).plain? = some name.plain := by
  obtain ⟨raw, hread⟩ := h.readField
  rw [hread]
  rfl

/-- The name is the first of the fields. -/
theorem Sees.readings {sources : List Stream} (h : Sees config flags list s target name s₁)
    (hrest : Readings config.fieldLimit s₁ sources u) :
    Readings config.fieldLimit s (s :: sources) u := by
  obtain ⟨raw, hread⟩ := h.readField
  exact .field (by rwa [hread])

/-- What the log says of the name and of what follows is what was read of them. -/
theorem Sees.plains (h : Sees config flags list s target name s₁) (log : List LogEntry)
    (sources : List Stream) (hrest : plainsOf log = plainsFrom config.fieldLimit sources) :
    plainsOf (.wanted target :: .nameRead name.plain :: log) =
      plainsFrom config.fieldLimit (s :: sources) := by
  rw [plainsFrom_cons, h.plain?, ← hrest]
  rfl

/-- The rest of a line that is skipped is no field. -/
theorem readings_of_skipLine {answer : Except Fault Bool} {sources : List Stream}
    (hskip : skipLine s = (answer, s₁)) (hrest : Readings config.fieldLimit s₁ sources u) :
    Readings config.fieldLimit s sources u :=
  .line (by rwa [hskip])

theorem readField_of_readValue {kind : String} {log : List LogEntry}
    (h : readValue config kind name s = ⟨.ok value, log, u⟩) :
    ∃ raw, readField config.fieldLimit s = ⟨.ok ⟨value, .newline⟩, raw, u⟩ := by
  unfold readValue at h
  split at h
  · cases h
  · split at h
    · cases h
    · rename_i plain raw t hfield
      obtain ⟨hok, -, rfl⟩ := Attempt.mk.inj h
      obtain rfl := Except.ok.inj hok
      exact ⟨raw, hfield⟩
    · cases h

/-- An attribute that is taken has two fields, its name and its value. -/
theorem Takes.readings (h : Takes config flags list s target name value u) :
    ∃ s₁, Readings config.fieldLimit s [s, s₁] u ∧ ∀ log, plainsOf log = [] →
      plainsOf (.wanted target :: .nameRead name.plain :: .valueRead value :: log) =
        plainsFrom config.fieldLimit [s, s₁] := by
  obtain ⟨s₁, hsees, hvalue⟩ := h.sees
  obtain ⟨raw, hread⟩ := readField_of_readValue hvalue
  refine ⟨s₁, hsees.readings (.field ?_), fun log hlog => hsees.plains _ _ ?_⟩
  · rw [hread]
    exact .done u
  · rw [plainsFrom_cons, hread]
    exact congrArg (value :: ·) hlog

/-- **The fields of a line that is passed.** -/
theorem Pass.readings (h : Pass config flags list s gain list' s') :
    ∃ sources, Readings config.fieldLimit s sources s' ∧
      plainsOf gain.log = plainsFrom config.fieldLimit sources := by
  cases h with
  | bare h hextra hend =>
      exact ⟨[s], h.toSees.readings (.done s'), h.toSees.plains [] [] rfl⟩
  | skipped h hextra hend hskip =>
      exact ⟨[s], h.toSees.readings (readings_of_skipLine hskip (.done s')),
        h.toSees.plains [] [] rfl⟩
  | cut h hextra hend hskip hlifted =>
      exact ⟨[s], h.toSees.readings (readings_of_skipLine hskip (.done s')),
        h.toSees.plains [] [] rfl⟩
  | met h hstored =>
      obtain ⟨s₁, hreadings, hplains⟩ := h.readings
      exact ⟨_, hreadings, hplains [] rfl⟩
  | captured h hnew =>
      obtain ⟨s₁, hreadings, hplains⟩ := h.readings
      exact ⟨_, hreadings, hplains [] rfl⟩
  | repeated h hextra hold =>
      obtain ⟨s₁, hreadings, hplains⟩ := h.readings
      exact ⟨_, hreadings, hplains [] rfl⟩

/-- The fields of all the lines that are passed. -/
theorem Reaches.readings (h : Reaches config flags list s gain list' s') :
    ∃ sources, Readings config.fieldLimit s sources s' ∧
      plainsOf gain.log = plainsFrom config.fieldLimit sources := by
  induction h with
  | here => exact ⟨[], .done _, rfl⟩
  | pass h _ ih =>
      obtain ⟨sources, hreadings, hlog⟩ := h.readings
      obtain ⟨sources', hreadings', hlog'⟩ := ih
      refine ⟨sources ++ sources', hreadings.append hreadings', ?_⟩
      rw [Gain.append, plainsOf_append, plainsFrom_append, hlog, hlog']

/-! ### Where the scan stops -/

/-- A value that cannot be had: there is none, or it was read and is one too many, or reading it
fails. -/
theorem readField_of_readValue_error {kind : String} {e : ScanError} {log : List LogEntry}
    (h : readValue config kind name s = ⟨.error e, log, u⟩) :
    e.OfAttribute ∧ log = [] ∧ u = s ∨
      (readField config.fieldLimit s).stream = u ∧
        plainsOf log = (readField config.fieldLimit s).plain?.toList ∧
        (e.OfAttribute ∨ ∃ part e', (readField config.fieldLimit s).outcome = .error e' ∧
          e = .ofField config part e') := by
  unfold readValue at h
  split at h
  · obtain ⟨he, hlog, hstream⟩ := Attempt.mk.inj h
    obtain rfl := Except.error.inj he
    exact .inl ⟨trivial, hlog.symm, hstream.symm⟩
  · split at h
    · rename_i e' raw t hfield
      obtain ⟨he, rfl, rfl⟩ := Attempt.mk.inj h
      rw [hfield]
      exact .inr ⟨rfl, rfl, .inr ⟨.value, e', rfl, (Except.error.inj he).symm⟩⟩
    · cases h
    · rename_i plain raw t hfield
      obtain ⟨he, rfl, rfl⟩ := Attempt.mk.inj h
      obtain rfl := Except.error.inj he
      rw [hfield]
      exact .inr ⟨rfl, rfl, .inl trivial⟩

/-- A scan that fails stops at one error. -/
theorem ReadsFrom.of_error {e : ScanError} {log : List LogEntry} {sources : List Stream}
    (readings : Readings config.fieldLimit s sources u)
    (hlog : plainsOf log = plainsFrom config.fieldLimit sources)
    (hstops : e.StopsAt config sources) :
    ReadsFrom config s sources ⟨.error e, list, log, u⟩ where
  readings := readings
  log := hlog
  failed := by
    rintro e' heq
    obtain rfl := Except.error.inj heq
    exact hstops

/-- **The fields where a step fails.** -/
theorem Breakdown.readsFrom {e : ScanError} {log : List LogEntry}
    (h : Breakdown config flags list s e log u) :
    ∃ sources, ReadsFrom config s sources ⟨.error e, list, log, u⟩ := by
  cases h with
  | name hwanted hread =>
      unfold readName at hread
      split at hread
      · cases hread
      · rename_i e' raw t hfield
        obtain ⟨he, -, rfl⟩ := Attempt.mk.inj hread
        refine ⟨[s], .of_error (.field (by rw [hfield]; exact .done _)) ?_ ?_⟩
        · rw [plainsFrom_cons, hfield]
          rfl
        · exact .inr ⟨s, rfl, .inl ⟨.name, e', by rw [hfield], (Except.error.inj he).symm⟩⟩
  | @skip _ _ s₁ _ _ _ fault h hextra hend hskip =>
      refine ⟨[s], .of_error (h.toSees.readings (readings_of_skipLine hskip (.done u)))
        (h.toSees.plains [] [] rfl) ?_⟩
      obtain ⟨raw, hfield⟩ := h.toSees.readField
      exact .inr ⟨s, rfl, .inr ⟨fault, by rw [hfield, hskip], rfl⟩⟩
  | @cutOff _ _ s₁ s₂ _ _ _ h hextra hend hskip hover =>
      -- the name that finds the end of the input is one more field
      have hfield : readField config.fieldLimit s₂ = ⟨.error .prematureEof, [], u⟩ :=
        readField_of_access_end hover
      refine ⟨[s, s₂], .of_error (h.toSees.readings (readings_of_skipLine hskip (.field ?_)))
        (h.toSees.plains _ _ ?_) ?_⟩
      · rw [hfield]
        exact .done u
      · rw [plainsFrom_cons, hfield]
        rfl
      · exact .inr ⟨s₂, rfl, .inl ⟨.name, .prematureEof, by rw [hfield], rfl⟩⟩
  | @value _ _ s₁ _ _ _ _ log h hunended haccepts hvalue =>
      rcases readField_of_readValue_error hvalue with ⟨hattribute, rfl, rfl⟩ | ⟨rfl, hlog, hfails⟩
      · exact ⟨[s], .of_error (h.readings (.done u)) (h.plains [] [] rfl) (.inl hattribute)⟩
      · refine ⟨[s, s₁], .of_error (h.readings (.field (.done _))) (h.plains log [s₁] ?_) ?_⟩
        · rw [plainsFrom_cons, hlog]
          exact (List.append_nil _).symm
        · exact hfails.imp_right fun hreading => ⟨s₁, rfl, .inl hreading⟩
  | number h hstored =>
      obtain ⟨s₁, hreadings, hplains⟩ := h.readings
      exact ⟨_, .of_error hreadings (hplains [] rfl) (.inl trivial)⟩

/-- **The fields where a scan stops.** -/
theorem Stop.readsFrom (h : Stop config flags list s r) :
    ∃ sources, ReadsFrom config s sources r := by
  cases h with
  | left h => exact ⟨[], .done s, rfl, by simp⟩
  | terminator h hterm =>
      exact ⟨[s], h.readings (.done _), h.plains _ [] (plainsOf_missingWarning flags _), by simp⟩
  | @spurious _ _ _ _ name h hextra =>
      exact ⟨[s], h.toSees.readings (.done _), h.toSees.plains [.spurious name.plain] [] rfl,
        by simp⟩
  | @duplicate _ _ _ _ name _ h hextra hold =>
      obtain ⟨s₁, hreadings, hplains⟩ := h.readings
      exact ⟨_, hreadings, hplains [.duplicate name.plain] rfl, by simp⟩
  | failed h => exact h.readsFrom

/-- **Every scan reads fields and skips lines**, and nothing else. -/
theorem exists_readsFrom (config : Config) (flags : Flags) (list : WishList) (s : Stream) :
    ∃ sources, ReadsFrom config s sources (scan config flags list s) := by
  obtain ⟨gain, list', s', r, hreach, hstop, hscan⟩ := exists_course config flags list s
  obtain ⟨sources, hreadings, hlog⟩ := hreach.readings
  obtain ⟨sources', hrest⟩ := hstop.readsFrom
  rw [hscan]
  refine ⟨sources ++ sources', hreadings.append hrest.readings, ?_, ?_⟩
  · rw [ScanResult.passed, plainsOf_append, plainsFrom_append, hlog, hrest.log]
  · intro e herror
    have hfailed : r.outcome = .error e := by
      cases houtcome : r.outcome with
      | ok n => simp [ScanResult.passed, houtcome, Except.map] at herror
      | error e' => simpa [ScanResult.passed, houtcome, Except.map] using herror
    refine (hrest.failed e hfailed).imp_right ?_
    rintro ⟨last, hlast, hfails⟩
    exact ⟨last, by rw [List.getLast?_append, hlast]; rfl, hfails⟩

end

end AttributeWire
