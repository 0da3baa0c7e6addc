/-
**Where a scan fails.**

A scan fails either over an attribute that it could read, which has no value, too many, or one that
is no number; or over a field or the rest of a line that it could not read, and then with what the
reading failed with.  What reading fields and skipping lines keep of a stream still holds there.

Main definitions:

* `KeptByReading` — a property of streams that reading fields and skipping lines keep;
* `ScanError.OfAttribute` — an error over an attribute that was read;
* `ScanError.OfReading` — an error over what cannot be read from a stream.

Main results:

* `KeptByReading.reaches` — the property holds wherever a scan comes;
* `KeptByReading.exists_failed` — **a scan fails only where reading does**, unless it is over an
  attribute.
-/

import AttributeWire.Proofs.Course

set_option relaxedAutoImplicit false
set_option autoImplicit false

namespace AttributeWire

namespace ScanError

/-- The error is over an attribute that was read. -/
def OfAttribute : ScanError → Prop
  | malformedNumber _ => True
  | missingValue _ _ => True
  | multipleValues _ => True
  | _ => False

/-- The error is what reading a field or skipping a line from the stream fails with. -/
def OfReading (config : Config) (s : Stream) (e : ScanError) : Prop :=
  (∃ part e', (readField config.fieldLimit s).outcome = .error e' ∧ e = ofField config part e') ∨
    ∃ fault, (skipLine s).1 = .error fault ∧ e = ofFault config fault

/-- A fault that is no timeout is passed on as it is. -/
theorem eq_of_ofFault {config : Config} {f fault : Fault} (h : ofFault config f = io fault) :
    f = fault := by
  unfold ofFault at h
  split at h
  · split at h <;> simp_all
  · exact io.inj h

end ScanError

/-! ### What reading keeps -/

/-- Reading a field and skipping a line keep a property of streams. -/
structure KeptByReading (limit : Nat) (P : Stream → Prop) : Prop where
  field : ∀ {s : Stream}, P s → P (readField limit s).stream
  line : ∀ {s : Stream}, P s → P (skipLine s).2

section

variable {config : Config} {flags : Flags} {list list' : WishList} {P : Stream → Prop}
  {s s' s₁ u : Stream} {target : Wanted} {name : Field} {value : Bytes} {gain : Gain}
  {e : ScanError} {log : List LogEntry}

theorem stream_readName (config : Config) (s : Stream) :
    (readName config s).stream = (readField config.fieldLimit s).stream := by
  unfold readName
  split <;> simp_all

/-- A value is read from the field behind the colon. -/
theorem stream_readValue {kind : String}
    (h : readValue config kind name s = ⟨.ok value, log, u⟩) :
    u = (readField config.fieldLimit s).stream := by
  unfold readValue at h
  split at h
  · simp at h
  · split at h <;> simp_all

namespace KeptByReading

theorem sees (hP : KeptByReading config.fieldLimit P) (hs : P s)
    (h : Sees config flags list s target name s₁) : P s₁ := by
  have hstream := stream_readName config s
  rw [h.read] at hstream
  have hkept := hP.field hs
  rwa [← hstream] at hkept

theorem takes (hP : KeptByReading config.fieldLimit P) (hs : P s)
    (h : Takes config flags list s target name value u) : P u := by
  obtain ⟨s₁, hsees, hvalue⟩ := h.sees
  rw [stream_readValue hvalue]
  exact hP.field (hP.sees hs hsees)

theorem skips {answer : Except Fault Bool} (hP : KeptByReading config.fieldLimit P) (hs : P s)
    (h : skipLine s = (answer, u)) : P u := by
  have hkept := hP.line hs
  rwa [h] at hkept

theorem pass (hP : KeptByReading config.fieldLimit P) (hs : P s)
    (h : Pass config flags list s gain list' s') : P s' := by
  cases h with
  | bare h hextra hend => exact hP.sees hs h.toSees
  | skipped h hextra hend hskip => exact hP.skips (hP.sees hs h.toSees) hskip
  | cut h hextra hend hskip hlifted => exact hP.skips (hP.sees hs h.toSees) hskip
  | met h hstored => exact hP.takes hs h
  | captured h hnew => exact hP.takes hs h
  | repeated h hextra hold => exact hP.takes hs h

/-- **The property holds wherever a scan comes.** -/
theorem reaches (hP : KeptByReading config.fieldLimit P) (hs : P s)
    (h : Reaches config flags list s gain list' s') : P s' := by
  induction h with
  | here => exact hs
  | pass h _ ih => exact ih (hP.pass hs h)

end KeptByReading

/-! ### What reading fails with -/

theorem ofReading_of_readName (h : readName config s = ⟨.error e, log, u⟩) :
    e.OfReading config s := by
  unfold readName at h
  split at h
  · simp at h
  · rename_i e' raw s' hread
    exact .inl ⟨.name, e', by rw [hread], (Except.error.inj (Attempt.mk.inj h).1).symm⟩

/-- A value that is there but cannot be read fails over the field. -/
theorem ofReading_of_readValue {kind : String}
    (h : readValue config kind name s = ⟨.error e, log, u⟩) :
    e.OfReading config s ∨ e.OfAttribute := by
  unfold readValue at h
  split at h
  · obtain rfl := Except.error.inj (Attempt.mk.inj h).1
    exact .inr trivial
  · split at h
    · rename_i e' raw s' hread
      exact .inl (.inl ⟨.value, e', by rw [hread], (Except.error.inj (Attempt.mk.inj h).1).symm⟩)
    · simp at h
    · obtain rfl := Except.error.inj (Attempt.mk.inj h).1
      exact .inr trivial

/-- **A scan fails only where reading does**, unless it is over an attribute that was read. -/
theorem KeptByReading.exists_failed (hP : KeptByReading config.fieldLimit P) (hs : P s)
    (h : (scan config flags list s).outcome = .error e) :
    (∃ s', P s' ∧ e.OfReading config s') ∨ e.OfAttribute := by
  obtain ⟨gain, list', s', r, hreach, hstop, hscan⟩ := exists_course config flags list s
  have hs' := hP.reaches hs hreach
  rw [hscan] at h
  cases hstop with
  | left => cases h
  | terminator => cases h
  | spurious => cases h
  | duplicate => cases h
  | @failed _ _ _ e' _ hfail =>
      obtain rfl : e' = e := Except.error.inj h
      cases hfail with
      | name hwanted hread => exact .inl ⟨s', hs', ofReading_of_readName hread⟩
      | @skip _ _ s₁ _ _ _ fault hrefuses hextra hend hskip =>
          exact .inl ⟨s₁, hP.sees hs' hrefuses.toSees, .inr ⟨fault, by rw [hskip], rfl⟩⟩
      | @cutOff _ _ s₁ s₂ _ _ _ hrefuses hextra hend hskip hover =>
          have hs₂ := hP.skips (hP.sees hs' hrefuses.toSees) hskip
          exact .inl ⟨s₂, hs₂, ofReading_of_readName (readName_of_end config hover)⟩
      | @value _ _ s₁ _ _ _ _ _ hsees hunended haccepts hvalue =>
          exact (ofReading_of_readValue hvalue).imp_left fun hreading =>
            ⟨s₁, hP.sees hs' hsees, hreading⟩
      | number => exact .inr trivial

end

end AttributeWire
