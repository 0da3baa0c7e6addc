/-
**Reading takes no notice of pieces.**

A field, a line that is skipped and the rest of a stream are read piece by piece, but what is read
depends only on the run of bytes ahead and on what stops the stream behind it.  Each of the three
loops is described here in these terms.  On two streams that carry the same signals it therefore
gives the same answer, and leaves them carrying the same signals.  The one exception is a field
that is too long: how much of it is consumed before that is noticed depends on the pieces.

Main definitions:

* `FieldError.ofStall`, `faultOfStall?` — what a reader reports when the stream stops.

Main results:

* `readFieldFrom_of_undelimited`, `readFieldFrom_tooLong` — **a field that is not complete**, and
  one that is too long;
* `skipLine_of_not_mem`, `drain_eq` — a line that is not complete, and **the rest of a stream**;
* `readField_alike`, `skipLine_alike`, `drain_alike` — **streams that carry the same are read
  alike**.
-/

import AttributeWire.Channel
import AttributeWire.Proofs.Field
import AttributeWire.Proofs.Signal

set_option relaxedAutoImplicit false
set_option autoImplicit false

namespace AttributeWire

/-- What a reader of a field reports when the stream stops within it. -/
def FieldError.ofStall : Except Fault Bytes → FieldError
  | .error f => .transport f
  | .ok _ => .prematureEof

/-- The fault that stops a stream, if it is not its end. -/
def faultOfStall? : Except Fault Bytes → Option Fault
  | .error f => some f
  | .ok _ => none

section

variable {limit : Nat} {raw more rest : Bytes} {s t : Stream}

/-! ### A field that is not complete -/

theorem readFieldFrom_of_stalled (limit : Nat) (raw : Bytes) (h : s.access = (s.stall, s.past)) :
    readFieldFrom limit raw s = ⟨.error (.ofStall s.stall), raw, s.past⟩ := by
  rw [readFieldFrom_eq, h]
  rcases s.stall_eq_nil_or_error with hend | ⟨f, hfault⟩
  · rw [hend]
    rfl
  · rw [hfault]
    rfl

/-- **A field without its delimiter** ends with what stops the stream, if it is not too long. -/
theorem readFieldFrom_of_undelimited (raw : Bytes) (s : Stream) (hs : s.Gapless)
    (hahead : s.ahead.Undelimited) (hlen : (raw ++ s.ahead).length ≤ limit) :
    readFieldFrom limit raw s = ⟨.error (.ofStall s.stall), raw ++ s.ahead, s.past⟩ := by
  -- each piece shortens what is ahead
  induction hn : s.ahead.length using Nat.strongRecOn generalizing raw s with
  | ind n ih =>
      by_cases hnil : s.ahead = []
      · rw [hnil, List.append_nil]
        exact readFieldFrom_of_stalled limit raw (Stream.access_of_stalled hs hnil)
      · obtain ⟨b, bs, s₁, haccess, -⟩ := Stream.access_of_ahead hs hnil
        have hconsume := Stream.advances_access_consume hs haccess
        have hsplit := hconsume.ahead
        have hstall := hconsume.stall
        have hpast := hconsume.past
        generalize hs₂ : s₁.consume (bs.length + 1) = s₂ at hconsume hsplit hstall hpast
        rw [hsplit] at hahead hlen hn ⊢
        obtain ⟨hnow, hlater⟩ := Bytes.undelimited_append.1 hahead
        rw [← List.append_assoc] at hlen ⊢
        have hfits : ¬ limit < (raw ++ b :: bs).length := by
          rw [List.length_append] at hlen
          omega
        have hshorter : s₂.ahead.length < n := by
          rw [List.length_append, List.length_cons] at hn
          omega
        rw [readFieldFrom_of_access haccess, breakField_of_undelimited hnow]
        simp only [if_neg hfits]
        rw [hs₂, ih _ hshorter (raw ++ b :: bs) s₂ hconsume.gapless hlater hlen rfl, hstall, hpast]

/-- **A field that is too long is refused**, whether its delimiter is ahead or not. -/
theorem readFieldFrom_tooLong (raw more : Bytes) (s : Stream) (hs : s.Gapless)
    (hmore : more.Undelimited) (hahead : s.ahead = more ++ rest) (hraw : raw.length ≤ limit)
    (hlen : limit < (raw ++ more).length) :
    (readFieldFrom limit raw s).outcome = .error (.tooLong limit) := by
  -- each piece within the limit shortens what is left of the written form
  induction hn : more.length using Nat.strongRecOn generalizing raw more s with
  | ind n ih =>
      have hne : s.ahead ≠ [] := by
        intro hnil
        rw [hahead, List.append_eq_nil_iff] at hnil
        rw [hnil.1, List.append_nil] at hlen
        omega
      obtain ⟨b, bs, s₁, haccess, -⟩ := Stream.access_of_ahead hs hne
      have hconsume := Stream.advances_access_consume hs haccess
      have hpiece := hconsume.ahead
      rw [hahead] at hpiece
      rw [readFieldFrom_of_access haccess]
      rcases List.append_eq_append_iff.1 hpiece with ⟨extra, hshown, -⟩ | ⟨left, rfl, hrest⟩
      · -- the piece holds all that is left of the written form
        have hlong : limit < (raw ++ (more ++ (breakField extra).1)).length := by
          rw [← List.append_assoc, List.length_append]
          omega
        rw [hshown, breakField_undelimited_append hmore]
        cases hdelimiter : (breakField extra).2 with
        | some delimiter => simp only [if_pos hlong]
        | none => simp only [if_pos hlong]
      · obtain ⟨hnow, hleft⟩ := Bytes.undelimited_append.1 hmore
        rw [breakField_of_undelimited hnow]
        rcases Nat.lt_or_ge limit (raw ++ b :: bs).length with hlong | hfits
        · simp only [if_pos hlong]
        · simp only [if_neg (Nat.not_lt.2 hfits)]
          rw [← List.append_assoc] at hlen
          have hshorter : left.length < n := by
            rw [List.length_append, List.length_cons] at hn
            omega
          exact ih _ hshorter (raw ++ b :: bs) left _ hconsume.gapless hleft hrest hfits hlen rfl

/-! ### A line that is not complete -/

theorem skipLine_of_stalled (h : s.access = (s.stall, s.past)) :
    skipLine s = (s.stall.map fun _ => false, s.past) := by
  rw [skipLine_eq, h]
  rcases s.stall_eq_nil_or_error with hend | ⟨f, hfault⟩
  · rw [hend]
    rfl
  · rw [hfault]
    rfl

/-- **A line without its newline** ends with what stops the stream. -/
theorem skipLine_of_not_mem (s : Stream) (hs : s.Gapless) (hahead : Bytes.newline ∉ s.ahead) :
    skipLine s = (s.stall.map fun _ => false, s.past) := by
  -- each piece shortens what is ahead
  induction hn : s.ahead.length using Nat.strongRecOn generalizing s with
  | ind n ih =>
      by_cases hnil : s.ahead = []
      · exact skipLine_of_stalled (Stream.access_of_stalled hs hnil)
      · obtain ⟨b, bs, s₁, haccess, -⟩ := Stream.access_of_ahead hs hnil
        have hconsume := Stream.advances_access_consume hs haccess
        have hsplit := hconsume.ahead
        rw [hsplit] at hahead hn
        obtain ⟨hnow, hlater⟩ := not_or.1 (mt List.mem_append.2 hahead)
        have hshorter : (s₁.consume (bs.length + 1)).ahead.length < n := by
          rw [List.length_append, List.length_cons] at hn
          omega
        rw [skipLine_of_access haccess, breakLine_of_not_mem hnow]
        simp only
        rw [ih _ hshorter _ hconsume.gapless hlater rfl, hconsume.stall, hconsume.past]

/-! ### The rest of a stream -/

/-- **The rest of a stream** is what is ahead, and the fault that stops it if one does. -/
theorem drain_eq (s : Stream) (hs : s.Gapless) :
    s.drain = (s.ahead, faultOfStall? s.stall, s.past) := by
  -- each piece shortens what is ahead
  induction hn : s.ahead.length using Nat.strongRecOn generalizing s with
  | ind n ih =>
      rw [Stream.drain]
      by_cases hnil : s.ahead = []
      · have hfill := Stream.fill_settle_of_stalled hs hnil
        rw [hnil]
        split
        · rename_i fault s₁ h
          obtain ⟨hstall, rfl⟩ := Prod.mk.inj (hfill.symm.trans h)
          rw [hstall, faultOfStall?]
        · rename_i s₁ h
          obtain ⟨hstall, rfl⟩ := Prod.mk.inj (hfill.symm.trans h)
          rw [hstall, faultOfStall?]
        · rename_i b bs s₁ h
          have hstall := (Prod.mk.inj (hfill.symm.trans h)).1
          exact absurd hstall (s.stall_ne_ok_cons b bs)
      · obtain ⟨b, bs, s₁, hfill, hadv, hcurrent⟩ := Stream.fill_settle_of_ahead hs hnil
        have hconsume : s.Advances (b :: bs) (s₁.consume (bs.length + 1)) :=
          hadv.trans (Stream.advances_consume hadv.gapless (b :: bs) []
            (by rw [hcurrent, List.append_nil]))
        have hshorter : (s₁.consume (bs.length + 1)).ahead.length < n := by
          rw [hconsume.ahead, List.length_append, List.length_cons] at hn
          omega
        have hrest := ih _ hshorter _ hconsume.gapless rfl
        rw [hconsume.stall, hconsume.past] at hrest
        split
        · rename_i h
          simp [hfill] at h
        · rename_i h
          simp [hfill] at h
        · rename_i c cs s₂ h
          rw [hfill, Prod.mk.injEq, Except.ok.injEq, List.cons.injEq] at h
          obtain ⟨⟨rfl, rfl⟩, rfl⟩ := h
          rw [hrest, hconsume.ahead]

/-! ### Streams that carry the same -/

/-- **A field is read alike** from streams that carry the same, unless it is too long: then it is
refused on both, but the streams may be left at different places. -/
theorem readField_alike (limit : Nat) (h : s.Alike t) :
    (readField limit t).outcome = (readField limit s).outcome ∧
      ((readField limit s).stream.Alike (readField limit t).stream ∨
        (readField limit s).outcome = .error (.tooLong limit)) := by
  have hahead := h.ahead
  rcases hbreak : breakField s.ahead with ⟨raw, _ | delimiter⟩
  · have hun := undelimited_of_breakField_none hbreak
    rcases Nat.lt_or_ge limit s.ahead.length with hlong | hfits
    · have hs : (readField limit s).outcome = .error (.tooLong limit) :=
        readFieldFrom_tooLong [] s.ahead s h.left hun (List.append_nil _).symm (Nat.zero_le _) hlong
      have ht : (readField limit t).outcome = .error (.tooLong limit) :=
        readFieldFrom_tooLong [] s.ahead t h.right hun (by rw [← hahead, List.append_nil])
          (Nat.zero_le _) hlong
      exact ⟨ht.trans hs.symm, .inr hs⟩
    · obtain ⟨hstall, hpast⟩ := h.stalled
      have hs : readField limit s = _ := readFieldFrom_of_undelimited [] s h.left hun hfits
      rw [hahead] at hun hfits
      have ht : readField limit t = _ := readFieldFrom_of_undelimited [] t h.right hun hfits
      rw [hs, ht, hstall]
      exact ⟨rfl, .inl hpast⟩
  · obtain ⟨hraw, rest, hs⟩ := breakField_some hbreak
    have ht := hahead.symm.trans hs
    rcases Nat.lt_or_ge limit raw.length with hlong | hfits
    · have hs' : (readField limit s).outcome = .error (.tooLong limit) :=
        readFieldFrom_tooLong [] raw s h.left hraw hs (Nat.zero_le _) hlong
      have ht' : (readField limit t).outcome = .error (.tooLong limit) :=
        readFieldFrom_tooLong [] raw t h.right hraw ht (Nat.zero_le _) hlong
      exact ⟨ht'.trans hs'.symm, .inr hs'⟩
    · obtain ⟨s', hs', hadv⟩ := readField_of_ahead h.left hraw hs hfits
      obtain ⟨t', ht', hadv'⟩ := readField_of_ahead h.right hraw ht hfits
      rw [hs', ht']
      exact ⟨rfl, .inl (h.advance hadv hadv')⟩

/-- **A line is skipped alike** on streams that carry the same. -/
theorem skipLine_alike (h : s.Alike t) :
    (skipLine t).1 = (skipLine s).1 ∧ (skipLine s).2.Alike (skipLine t).2 := by
  have hahead := h.ahead
  cases hbreak : breakLine s.ahead with
  | none =>
      have hline := not_mem_of_breakLine_none hbreak
      obtain ⟨hstall, hpast⟩ := h.stalled
      have hs := skipLine_of_not_mem s h.left hline
      rw [hahead] at hline
      rw [hs, skipLine_of_not_mem t h.right hline, hstall]
      exact ⟨rfl, hpast⟩
  | some n =>
      obtain ⟨line, rest, hs, hline, -⟩ := breakLine_some hbreak
      obtain ⟨s', hs', hadv⟩ := skipLine_of_ahead line s h.left hline hs
      obtain ⟨t', ht', hadv'⟩ := skipLine_of_ahead line t h.right hline (hahead.symm.trans hs)
      rw [hs', ht']
      exact ⟨rfl, h.advance hadv hadv'⟩

/-- **The rest is read alike** from streams that carry the same. -/
theorem drain_alike (h : s.Alike t) :
    t.drain.1 = s.drain.1 ∧ t.drain.2.1 = s.drain.2.1 ∧ s.drain.2.2.Alike t.drain.2.2 := by
  obtain ⟨hstall, hpast⟩ := h.stalled
  rw [drain_eq s h.left, drain_eq t h.right, h.ahead, hstall]
  exact ⟨rfl, rfl, hpast⟩

end

end AttributeWire
