/-
**Scans in lockstep.**

A scan touches its stream only by reading fields and skipping lines.  If a relation between streams
makes these two give the same answers and is kept by them, then a scan cannot tell related streams
apart: it gives the same count or error, stores the same values, logs the same, and leaves related
streams.  A field that is too long may leave them related in another way only, since a scan does
nothing after it.

Main definitions:

* `Lockstep` — a relation that reading fields and skipping lines keep, and what it may become;
* `ScanError.IsTooLong`, `TooLong` — the error, and the outcome, that may break it;
* `Attempt.Agrees`, `Satisfied.Agrees`, `Gathered.Agrees`, `ScanResult.Agrees` — the same results,
  and related streams.

Main results:

* `Lockstep.seek`, `Lockstep.satisfy`, `Lockstep.gather`, `Lockstep.scan` — **each part of a scan**,
  and the scan as a whole, keeps it as well;
* `lockstep_alike` — **streams that carry the same** are such a relation, which may break.
-/

import AttributeWire.Proofs.Attribute
import AttributeWire.Proofs.Pieces

set_option relaxedAutoImplicit false
set_option autoImplicit false

namespace AttributeWire

/-! ### Outcomes that may break the relation -/

/-- A field is too long. -/
def ScanError.IsTooLong : ScanError → Prop
  | .fieldTooLong _ _ => True
  | _ => False

instance : (e : ScanError) → Decidable e.IsTooLong
  | .prematureEof _ => inferInstanceAs (Decidable False)
  | .fieldTooLong _ _ => inferInstanceAs (Decidable True)
  | .malformedBase64 _ => inferInstanceAs (Decidable False)
  | .malformedNumber _ => inferInstanceAs (Decidable False)
  | .missingValue _ _ => inferInstanceAs (Decidable False)
  | .multipleValues _ => inferInstanceAs (Decidable False)
  | .timedOut _ => inferInstanceAs (Decidable False)
  | .io _ => inferInstanceAs (Decidable False)

/-- The reading failed because a field is too long. -/
def TooLong {α : Type} : Except ScanError α → Prop
  | .error e => e.IsTooLong
  | .ok _ => False

theorem TooLong.map {α β : Type} {outcome : Except ScanError α} (f : α → β)
    (h : TooLong outcome) : TooLong (outcome.map f) := by
  cases outcome with
  | error e => exact h
  | ok a => exact h.elim

/-- Meeting named wishes failed because a field is too long. -/
def Progress.TooLong : Progress → Prop
  | .failed e => e.IsTooLong
  | _ => False

/-! ### The same results on related streams -/

section

variable (R Q : Stream → Stream → Prop)

/-- The same answer and the same log, and related streams; they may be related in the second way
only if a field is too long. -/
structure Attempt.Agrees {α : Type} (a b : Attempt α) : Prop where
  outcome : b.outcome = a.outcome
  log : b.log = a.log
  stream : R a.stream b.stream ∨ TooLong a.outcome ∧ Q a.stream b.stream

structure Satisfied.Agrees (a b : Satisfied) : Prop where
  wishes : b.wishes = a.wishes
  count : b.count = a.count
  progress : b.progress = a.progress
  log : b.log = a.log
  stream : R a.stream b.stream ∨ a.progress.TooLong ∧ Q a.stream b.stream

structure Gathered.Agrees (a b : Gathered) : Prop where
  table : b.table = a.table
  count : b.count = a.count
  outcome : b.outcome = a.outcome
  log : b.log = a.log
  stream : R a.stream b.stream ∨ TooLong a.outcome ∧ Q a.stream b.stream

structure ScanResult.Agrees (a b : ScanResult) : Prop where
  outcome : b.outcome = a.outcome
  list : b.list = a.list
  log : b.log = a.log
  stream : R a.stream b.stream ∨ TooLong a.outcome ∧ Q a.stream b.stream

end

section

variable {α : Type} {R Q : Stream → Stream → Prop} {s₁ : Stream} {log : List LogEntry}

theorem Attempt.Agrees.of_ok {a b : Attempt α} {answer : α} (h : a.Agrees R Q b)
    (ha : a = ⟨.ok answer, log, s₁⟩) : ∃ t₁, b = ⟨.ok answer, log, t₁⟩ ∧ R s₁ t₁ := by
  obtain ⟨outcome, log', t₁⟩ := b
  obtain ⟨houtcome, hlog, hstream⟩ := h
  rw [ha] at houtcome hlog hstream
  obtain rfl : outcome = .ok answer := houtcome
  obtain rfl : log' = log := hlog
  exact ⟨t₁, rfl, hstream.resolve_right And.left⟩

theorem Attempt.Agrees.of_error {a b : Attempt α} {e : ScanError} (h : a.Agrees R Q b)
    (ha : a = ⟨.error e, log, s₁⟩) :
    ∃ t₁, b = ⟨.error e, log, t₁⟩ ∧ (R s₁ t₁ ∨ e.IsTooLong ∧ Q s₁ t₁) := by
  obtain ⟨outcome, log', t₁⟩ := b
  obtain ⟨houtcome, hlog, hstream⟩ := h
  rw [ha] at houtcome hlog hstream
  obtain rfl : outcome = .error e := houtcome
  obtain rfl : log' = log := hlog
  exact ⟨t₁, rfl, hstream⟩

theorem Attempt.Agrees.after {a b : Attempt α} (log : List LogEntry) (h : a.Agrees R Q b) :
    (a.after log).Agrees R Q (b.after log) :=
  ⟨h.outcome, congrArg (log ++ ·) h.log, h.stream⟩

theorem Satisfied.Agrees.after {a b : Satisfied} (wish : Wish) (log : List LogEntry)
    (h : a.Agrees R Q b) : (a.after wish log).Agrees R Q (b.after wish log) :=
  ⟨congrArg (wish :: ·) h.wishes, congrArg (· + 1) h.count, h.progress,
    congrArg (log ++ ·) h.log, h.stream⟩

theorem Gathered.Agrees.after {a b : Gathered} (count : Nat) (log : List LogEntry)
    (h : a.Agrees R Q b) : (a.after count log).Agrees R Q (b.after count log) :=
  ⟨h.table, congrArg (· + count) h.count, h.outcome, congrArg (log ++ ·) h.log, h.stream⟩

end

/-! ### Relations that reading keeps -/

/-- Reading a field and skipping a line give the same answers on related streams, and leave related
streams; if the field is too long they may be related in the second way only. -/
structure Lockstep (limit : Nat) (R Q : Stream → Stream → Prop) : Prop where
  field : ∀ {s t : Stream}, R s t →
    (readField limit t).outcome = (readField limit s).outcome ∧
      (R (readField limit s).stream (readField limit t).stream ∨
        (readField limit s).outcome = .error (.tooLong limit) ∧
          Q (readField limit s).stream (readField limit t).stream)
  line : ∀ {s t : Stream}, R s t →
    (skipLine t).1 = (skipLine s).1 ∧ R (skipLine s).2 (skipLine t).2

/-- **Streams that carry the same** are read in lockstep. -/
theorem lockstep_alike (limit : Nat) : Lockstep limit Stream.Alike fun _ _ => True :=
  ⟨fun h => (readField_alike limit h).imp_right (Or.imp_right fun hlong => ⟨hlong, trivial⟩),
    fun h => skipLine_alike h⟩

namespace Lockstep

variable {config : Config} {R Q : Stream → Stream → Prop} {s t : Stream}

/-- The answer to reading a field, and how the streams are left. -/
theorem readField (hl : Lockstep config.fieldLimit R Q) (h : R s t) :
    ∃ outcome raw raw' s₁ t₁, AttributeWire.readField config.fieldLimit s = ⟨outcome, raw, s₁⟩ ∧
      AttributeWire.readField config.fieldLimit t = ⟨outcome, raw', t₁⟩ ∧
      (R s₁ t₁ ∨ outcome = .error (.tooLong config.fieldLimit) ∧ Q s₁ t₁) := by
  obtain ⟨houtcome, hstream⟩ := hl.field h
  rcases hs : AttributeWire.readField config.fieldLimit s with ⟨outcome, raw, s₁⟩
  rcases ht : AttributeWire.readField config.fieldLimit t with ⟨outcome', raw', t₁⟩
  rw [hs, ht] at houtcome hstream
  obtain rfl : outcome' = outcome := houtcome
  exact ⟨outcome', raw, raw', s₁, t₁, rfl, rfl, hstream⟩

theorem readName (hl : Lockstep config.fieldLimit R Q) (h : R s t) :
    (readName config s).Agrees R Q (readName config t) := by
  obtain ⟨outcome, raw, raw', s₁, t₁, hs, ht, hstream⟩ := hl.readField h
  rw [AttributeWire.readName, AttributeWire.readName, hs, ht]
  rcases hstream with hR | ⟨rfl, hQ⟩
  · cases outcome with
    | ok field => exact ⟨rfl, rfl, .inl hR⟩
    | error e => exact ⟨rfl, rfl, .inl hR⟩
  · exact ⟨rfl, rfl, .inr ⟨trivial, hQ⟩⟩

theorem readValue (hl : Lockstep config.fieldLimit R Q) (kind : String) (name : Field) (h : R s t) :
    (readValue config kind name s).Agrees R Q (readValue config kind name t) := by
  rw [AttributeWire.readValue, AttributeWire.readValue]
  by_cases hname : name.delimiter = .newline
  · rw [if_pos hname, if_pos hname]
    exact ⟨rfl, rfl, .inl h⟩
  · rw [if_neg hname, if_neg hname]
    obtain ⟨outcome, raw, raw', s₁, t₁, hs, ht, hstream⟩ := hl.readField h
    rw [hs, ht]
    rcases hstream with hR | ⟨rfl, hQ⟩
    · rcases outcome with e | ⟨plain, _ | _⟩
      · exact ⟨rfl, rfl, .inl hR⟩
      · exact ⟨rfl, rfl, .inl hR⟩
      · exact ⟨rfl, rfl, .inl hR⟩
    · exact ⟨rfl, rfl, .inr ⟨trivial, hQ⟩⟩

/-- **A search** keeps the relation. -/
theorem seek (hl : Lockstep config.fieldLimit R Q) (flags : Flags) (target : Wanted) (h : R s t) :
    (seek config flags target s).Agrees R Q (seek config flags target t) := by
  fun_induction AttributeWire.seek config flags target s generalizing t with
  | case1 s e log s₁ hread =>
      obtain ⟨t₁, hread', hstream⟩ := (hl.readName h).of_error hread
      rw [seek_of_readName_error hread']
      exact ⟨rfl, rfl, hstream⟩
  | case2 s log s₁ hread =>
      obtain ⟨t₁, hread', hR⟩ := (hl.readName h).of_ok hread
      rw [seek_of_readName hread', if_pos rfl]
      exact ⟨rfl, rfl, .inl hR⟩
  | case3 s name log s₁ hread hterm hacc =>
      obtain ⟨t₁, hread', hR⟩ := (hl.readName h).of_ok hread
      rw [seek_of_readName hread', if_neg hterm, if_pos hacc]
      exact ⟨rfl, rfl, .inl hR⟩
  | case4 s name log s₁ hread hterm hacc hextra =>
      obtain ⟨t₁, hread', hR⟩ := (hl.readName h).of_ok hread
      rw [seek_of_readName hread', if_neg hterm, if_neg hacc, if_pos hextra]
      exact ⟨rfl, rfl, .inl hR⟩
  | case5 s name log s₁ hread hterm hacc hextra hend ih =>
      obtain ⟨t₁, hread', hR⟩ := (hl.readName h).of_ok hread
      rw [seek_of_readName hread', if_neg hterm, if_neg hacc, if_neg hextra, if_pos hend]
      exact (ih hR).after _
  | case6 s name log s₁ hread hterm hacc hextra hend fault s₂ hskip =>
      obtain ⟨t₁, hread', hR⟩ := (hl.readName h).of_ok hread
      obtain ⟨hanswer, hR'⟩ := hl.line hR
      rw [seek_of_readName hread', if_neg hterm, if_neg hacc, if_neg hextra, if_neg hend]
      rcases hskip' : skipLine t₁ with ⟨answer, t₂⟩
      rw [hskip, hskip'] at hanswer hR'
      obtain rfl : answer = .error fault := hanswer
      exact ⟨rfl, rfl, .inl hR'⟩
  | case7 s name log s₁ hread hterm hacc hextra hend found s₂ hskip ih =>
      obtain ⟨t₁, hread', hR⟩ := (hl.readName h).of_ok hread
      obtain ⟨hanswer, hR'⟩ := hl.line hR
      rw [seek_of_readName hread', if_neg hterm, if_neg hacc, if_neg hextra, if_neg hend]
      rcases hskip' : skipLine t₁ with ⟨answer, t₂⟩
      rw [hskip, hskip'] at hanswer hR'
      obtain rfl : answer = .ok found := hanswer
      exact (ih hR').after _

/-- **Meeting named wishes** keeps the relation. -/
theorem satisfy (hl : Lockstep config.fieldLimit R Q) (flags : Flags) (wishes : List Wish)
    (h : R s t) :
    (satisfy config flags wishes s).Agrees R Q (satisfy config flags wishes t) := by
  fun_induction AttributeWire.satisfy config flags wishes s generalizing t with
  | case1 s => exact ⟨rfl, rfl, rfl, rfl, .inl h⟩
  | case2 wish wishes s e log s₁ hseek =>
      obtain ⟨t₁, hseek', hstream⟩ := (hl.seek flags _ h).of_error hseek
      simp only [AttributeWire.satisfy, hseek']
      exact ⟨rfl, rfl, rfl, rfl, hstream⟩
  | case3 wish wishes s log s₁ hseek =>
      obtain ⟨t₁, hseek', hR⟩ := (hl.seek flags _ h).of_ok hseek
      simp only [AttributeWire.satisfy, hseek']
      exact ⟨rfl, rfl, rfl, rfl, .inl hR⟩
  | case4 wish wishes s name log s₁ hseek e log' s₂ hvalue =>
      obtain ⟨t₁, hseek', hR⟩ := (hl.seek flags _ h).of_ok hseek
      obtain ⟨t₂, hvalue', hstream⟩ := (hl.readValue _ name hR).of_error hvalue
      simp only [AttributeWire.satisfy, hseek', hvalue']
      exact ⟨rfl, rfl, rfl, rfl, hstream⟩
  | case5 wish wishes s name log s₁ hseek value log' s₂ hvalue hstored =>
      obtain ⟨t₁, hseek', hR⟩ := (hl.seek flags _ h).of_ok hseek
      obtain ⟨t₂, hvalue', hR'⟩ := (hl.readValue _ name hR).of_ok hvalue
      simp only [AttributeWire.satisfy, hseek', hvalue', hstored]
      exact ⟨rfl, rfl, rfl, rfl, .inl hR'⟩
  | case6 wish wishes s name log s₁ hseek value log' s₂ hvalue stored hstored ih =>
      obtain ⟨t₁, hseek', hR⟩ := (hl.seek flags _ h).of_ok hseek
      obtain ⟨t₂, hvalue', hR'⟩ := (hl.readValue _ name hR).of_ok hvalue
      simp only [AttributeWire.satisfy, hseek', hvalue', hstored]
      exact (ih hR').after _ _

/-- **A capture** keeps the relation. -/
theorem gather (hl : Lockstep config.fieldLimit R Q) (flags : Flags) (table : Table) (h : R s t) :
    (gather config flags table s).Agrees R Q (gather config flags table t) := by
  fun_induction AttributeWire.gather config flags table s generalizing t with
  | case1 table s e log s₁ hseek =>
      obtain ⟨t₁, hseek', hstream⟩ := (hl.seek flags _ h).of_error hseek
      rw [gather_eq, hseek']
      exact ⟨rfl, rfl, rfl, rfl, hstream⟩
  | case2 table s log s₁ hseek =>
      obtain ⟨t₁, hseek', hR⟩ := (hl.seek flags _ h).of_ok hseek
      rw [gather_eq, hseek']
      exact ⟨rfl, rfl, rfl, rfl, .inl hR⟩
  | case3 table s name log s₁ hseek e log' s₂ hvalue =>
      obtain ⟨t₁, hseek', hR⟩ := (hl.seek flags _ h).of_ok hseek
      obtain ⟨t₂, hvalue', hstream⟩ := (hl.readValue _ name hR).of_error hvalue
      rw [gather_eq, hseek']
      simp only [hvalue']
      exact ⟨rfl, rfl, rfl, rfl, hstream⟩
  | case4 table s name log s₁ hseek value log' s₂ hvalue old hold hextra =>
      obtain ⟨t₁, hseek', hR⟩ := (hl.seek flags _ h).of_ok hseek
      obtain ⟨t₂, hvalue', hR'⟩ := (hl.readValue _ name hR).of_ok hvalue
      rw [gather_of_readValue hseek' hvalue', hold]
      simp only [if_pos hextra]
      exact ⟨rfl, rfl, rfl, rfl, .inl hR'⟩
  | case5 table s name log s₁ hseek value log' s₂ hvalue old hold hextra ih =>
      obtain ⟨t₁, hseek', hR⟩ := (hl.seek flags _ h).of_ok hseek
      obtain ⟨t₂, hvalue', hR'⟩ := (hl.readValue _ name hR).of_ok hvalue
      rw [gather_of_readValue hseek' hvalue', hold]
      simp only [if_neg hextra]
      exact (ih hR').after _ _
  | case6 table s name log s₁ hseek value log' s₂ hvalue hnew ih =>
      obtain ⟨t₁, hseek', hR⟩ := (hl.seek flags _ h).of_ok hseek
      obtain ⟨t₂, hvalue', hR'⟩ := (hl.readValue _ name hR).of_ok hvalue
      rw [gather_of_readValue hseek' hvalue', hnew]
      exact (ih hR').after _ _

theorem finish (hl : Lockstep config.fieldLimit R Q) (flags : Flags) (capture : Option Table)
    {named named' : Satisfied} (h : named.Agrees R Q named')
    (hcomplete : named.progress = .complete) :
    (finish config flags capture named).Agrees R Q (finish config flags capture named') := by
  obtain ⟨wishes, count, progress, log, s⟩ := named
  obtain ⟨wishes', count', progress', log', t⟩ := named'
  obtain ⟨rfl, rfl, rfl, rfl, hR | ⟨hlong, -⟩⟩ := h
  · cases capture with
    | some table =>
        have hg := hl.gather flags table hR
        simp only [AttributeWire.finish]
        rw [hg.outcome, hg.table, hg.count, hg.log]
        exact ⟨rfl, rfl, rfl, hg.stream.imp_right (And.imp_left (TooLong.map _))⟩
    | none =>
        simp only [AttributeWire.finish]
        by_cases hmore : flags.more = true
        · rw [if_pos hmore, if_pos hmore]
          exact ⟨rfl, rfl, rfl, .inl hR⟩
        · rw [if_neg hmore, if_neg hmore]
          have hk := hl.seek flags .terminator hR
          rw [hk.outcome, hk.log]
          exact ⟨rfl, rfl, rfl, hk.stream.imp_right (And.imp_left (TooLong.map _))⟩
  · simp only at hcomplete hlong
    rw [hcomplete] at hlong
    exact hlong.elim

/-- **A scan** keeps the relation, and gives the same on related streams. -/
theorem scan (hl : Lockstep config.fieldLimit R Q) (flags : Flags) (list : WishList) (h : R s t) :
    (scan config flags list s).Agrees R Q (scan config flags list t) := by
  have hnamed := hl.satisfy flags list.wishes h
  rw [AttributeWire.scan, AttributeWire.scan]
  simp only [hnamed.progress]
  cases hprogress : (AttributeWire.satisfy config flags list.wishes s).progress with
  | failed e =>
      have hstream := hnamed.stream
      rw [hprogress] at hstream
      simp only [hnamed.wishes, hnamed.log]
      exact ⟨rfl, rfl, rfl, hstream⟩
  | stopped =>
      have hstream := hnamed.stream
      rw [hprogress] at hstream
      simp only [hnamed.wishes, hnamed.log, hnamed.count]
      exact ⟨rfl, rfl, rfl, hstream⟩
  | complete => exact hl.finish flags list.capture hnamed hprogress

end Lockstep

end AttributeWire
