/-
**A scan consumes exactly what it needs.**

Every reading step that succeeds reads past some bytes, and these decide it.  On any stream that
begins with the same bytes it gives the same answer and reads past the same, whatever follows; on a
stream that ends before all of them it reports the end of input and nothing else.  Steps taken one
after the other need their bytes one after the other.

Main definitions:

* `Stream.CutShort` — the stream ends before all of some bytes;
* `Exact` — some bytes are all that a reader needs;
* `Starved`, `Satisfied.Starved` — the input ended too early.

Main results:

* `Exact.map`, `Exact.bind`, `Exact.bind₃` — **steps taken one after the other**;
* `exact_seek`, `exact_satisfy`, `exact_gather`, `exact_finish`, `exact_scan` — **each part of a
  scan** that succeeds is exact, and so is the scan as a whole;
* `scan_needs` — **later bytes have no influence, and none of the earlier ones can be missing**.
-/

import AttributeWire.Proofs.Boundary
import AttributeWire.Proofs.Pieces

set_option relaxedAutoImplicit false
set_option autoImplicit false

namespace AttributeWire

/-! ### Streams that end too early -/

namespace Stream

/-- The stream ends, without a fault, before all of `bytes` are read. -/
structure CutShort (t : Stream) (bytes : Bytes) : Prop where
  gapless : t.Gapless
  stall : t.stall = .ok []
  front : t.ahead <+: bytes
  ne : t.ahead ≠ bytes

/-- A steady stream that ends within the bytes. -/
theorem Steady.cutShort {t : Stream} {bytes : Bytes} (ht : t.Steady) (hending : t.ending = .closed)
    (hfront : t.unread <+: bytes) (hne : t.unread ≠ bytes) : t.CutShort bytes where
  gapless := ht.gapless
  stall := stall_eq_ok_nil_iff.2 ⟨ht.beyond, hending⟩
  front := by rwa [ht.ahead]
  ne := by rwa [ht.ahead]

namespace CutShort

variable {t u : Stream} {a b : Bytes}

/-- The cut is in the first part, or in the second behind all of the first. -/
theorem append (h : t.CutShort (a ++ b)) :
    t.CutShort a ∨ ∃ q, t.ahead = a ++ q ∧ ∀ u, t.Advances a u → u.CutShort b := by
  by_cases hfirst : a <+: t.ahead
  · obtain ⟨q, hq⟩ := hfirst
    refine .inr ⟨q, hq.symm, fun u hadv => ?_⟩
    have hahead : u.ahead = q := hadv.ahead_eq hq.symm
    refine ⟨hadv.gapless, hadv.stall.trans h.stall, ?_, ?_⟩
    · rw [hahead, ← List.prefix_append_right_inj a, hq]
      exact h.front
    · intro heq
      exact h.ne (by rw [← hq, ← hahead, heq])
  · refine .inl ⟨h.gapless, h.stall, ?_, ?_⟩
    · rcases List.prefix_or_prefix_of_prefix h.front (List.prefix_append a b) with hin | hpast
      · exact hin
      · exact absurd hpast hfirst
    · intro heq
      exact hfirst (by simp [heq])

/-- The last byte at least is missing. -/
theorem front_of_concat {byte : UInt8} (h : t.CutShort (a ++ [byte])) : t.ahead <+: a :=
  (List.prefix_concat_iff.1 h.front).resolve_left h.ne

theorem ne_nil (h : t.CutShort a) : a ≠ [] := by
  intro hnil
  have hfront := h.front
  rw [hnil, List.prefix_nil] at hfront
  exact h.ne (hfront.trans hnil.symm)

end CutShort

end Stream

/-! ### Readers and the bytes they need -/

/-- The bytes are all that the reader needs: with them ahead it reads past them and gives the
answer, and it starves on a stream that ends before. -/
structure Exact {ρ : Type} (read : Stream → ρ) (starved : ρ → Prop) (bytes : Bytes)
    (answer : Stream → ρ) : Prop where
  whole : ∀ {t : Stream} {q : Bytes}, t.Gapless → t.ahead = bytes ++ q →
    ∃ u, read t = answer u ∧ t.Advances bytes u
  short : ∀ {t : Stream}, t.CutShort bytes → starved (read t)

namespace Exact

variable {ρ₁ ρ₂ ρ₃ ρ : Type} {first : Stream → ρ₁} {second : Stream → ρ₂} {third : Stream → ρ₃}
  {read : Stream → ρ} {starved₁ : ρ₁ → Prop} {starved₂ : ρ₂ → Prop} {starved₃ : ρ₃ → Prop}
  {starved : ρ → Prop} {a b c : Bytes} {answer₁ : Stream → ρ₁} {answer₂ : Stream → ρ₂}
  {answer₃ : Stream → ρ₃} {answer : Stream → ρ}

/-- A reader that only reads past nothing needs nothing. -/
theorem nothing (starved : ρ → Prop) (answer : Stream → ρ) : Exact answer starved [] answer where
  whole := by
    intro t q ht hahead
    exact ⟨t, rfl, .refl ht⟩
  short := by
    intro t hcut
    exact absurd rfl hcut.ne_nil

/-- One step, whose answer is made into another one. -/
theorem map (h : Exact first starved₁ a answer₁)
    (hnext : ∀ t u, first t = answer₁ u → read t = answer u)
    (hfirst : ∀ t, starved₁ (first t) → starved (read t)) : Exact read starved a answer where
  whole := by
    intro t q ht hahead
    obtain ⟨u, hread, hadv⟩ := h.whole ht hahead
    exact ⟨u, hnext t u hread, hadv⟩
  short := by
    intro t hcut
    exact hfirst t (h.short hcut)

/-- **Two steps** need the bytes of the first and then those of the second. -/
theorem bind (h₁ : Exact first starved₁ a answer₁) (h₂ : Exact second starved₂ b answer₂)
    (hnext : ∀ t u v, first t = answer₁ u → second u = answer₂ v → read t = answer v)
    (hfirst : ∀ t, starved₁ (first t) → starved (read t))
    (hsecond : ∀ t u, first t = answer₁ u → starved₂ (second u) → starved (read t)) :
    Exact read starved (a ++ b) answer where
  whole := by
    intro t q ht hahead
    rw [List.append_assoc] at hahead
    obtain ⟨u, hu, hadv₁⟩ := h₁.whole ht hahead
    obtain ⟨v, hv, hadv₂⟩ := h₂.whole hadv₁.gapless (hadv₁.ahead_eq hahead)
    exact ⟨v, hnext t u v hu hv, hadv₁.trans hadv₂⟩
  short := by
    intro t hcut
    rcases hcut.append with hin | ⟨q, hahead, hlater⟩
    · exact hfirst t (h₁.short hin)
    · obtain ⟨u, hu, hadv⟩ := h₁.whole hcut.gapless hahead
      exact hsecond t u hu (h₂.short (hlater u hadv))

/-- **Three steps**, the first two of which decide where the third begins. -/
theorem bind₃ (h₁ : Exact first starved₁ a answer₁) (h₂ : Exact second starved₂ b answer₂)
    (h₃ : Exact third starved₃ c answer₃)
    (hnext : ∀ t u v w, first t = answer₁ u → second u = answer₂ v → third v = answer₃ w →
      read t = answer w)
    (hfirst : ∀ t, starved₁ (first t) → starved (read t))
    (hsecond : ∀ t u, first t = answer₁ u → starved₂ (second u) → starved (read t))
    (hthird : ∀ t u v, first t = answer₁ u → second u = answer₂ v → starved₃ (third v) →
      starved (read t)) :
    Exact read starved (a ++ (b ++ c)) answer where
  whole := by
    intro t q ht hahead
    rw [List.append_assoc, List.append_assoc] at hahead
    obtain ⟨u, hu, hadv₁⟩ := h₁.whole ht hahead
    have hrest := hadv₁.ahead_eq hahead
    obtain ⟨v, hv, hadv₂⟩ := h₂.whole hadv₁.gapless hrest
    obtain ⟨w, hw, hadv₃⟩ := h₃.whole hadv₂.gapless (hadv₂.ahead_eq hrest)
    exact ⟨w, hnext t u v w hu hv hw, hadv₁.trans (hadv₂.trans hadv₃)⟩
  short := by
    intro t hcut
    rcases hcut.append with hin | ⟨q, hahead, hlater⟩
    · exact hfirst t (h₁.short hin)
    · obtain ⟨u, hu, hadv₁⟩ := h₁.whole hcut.gapless hahead
      have hcut' := hlater u hadv₁
      rcases hcut'.append with hin | ⟨q, hahead, hlater⟩
      · exact hsecond t u hu (h₂.short hin)
      · obtain ⟨v, hv, hadv₂⟩ := h₂.whole hcut'.gapless hahead
        exact hthird t u v hu hv (h₃.short (hlater v hadv₂))

end Exact

/-! ### Names, values and lines -/

/-- The input ended too early. -/
def Starved {α : Type} (outcome : Except ScanError α) : Prop :=
  ∃ part, outcome = .error (.prematureEof part)

theorem Starved.map {α β : Type} {outcome : Except ScanError α} (f : α → β)
    (h : Starved outcome) : Starved (outcome.map f) := by
  obtain ⟨part, rfl⟩ := h
  exact ⟨part, rfl⟩

theorem Starved.attempt {α : Type} {a : Attempt α} (h : Starved a.outcome) :
    ∃ part, a = ⟨.error (.prematureEof part), a.log, a.stream⟩ := by
  obtain ⟨part, h⟩ := h
  exact ⟨part, by rw [← h]⟩

section

variable {config : Config} {flags : Flags} {target : Wanted} {s s₁ : Stream} {name : Field}
  {log : List LogEntry}

theorem exact_readField {limit : Nat} {field : Field} {raw : Bytes} (hs : s.Gapless)
    (h : readField limit s = ⟨.ok field, raw, s₁⟩) :
    ∃ c raw', s.Advances c s₁ ∧
      Exact (readField limit) (fun r => r.outcome = .error .prematureEof) c
        fun u => ⟨.ok field, raw', u⟩ := by
  obtain ⟨written, hraw, hlen, hplain, hadv⟩ := advances_of_readField hs h
  refine ⟨_, written, hadv, ?_, ?_⟩
  · intro t q ht hahead
    rw [List.append_assoc, List.singleton_append] at hahead
    obtain ⟨u, hread, hadv'⟩ := readField_of_ahead ht hraw hahead hlen
    refine ⟨u, ?_, hadv'⟩
    rw [hread, Field.ofRaw, hplain]
  · intro t hcut
    obtain ⟨left, hleft⟩ := hcut.front_of_concat
    rw [← hleft] at hraw hlen
    rw [List.length_append] at hlen
    have hfits : ([] ++ t.ahead).length ≤ limit := by
      rw [List.nil_append]
      omega
    have hread := readFieldFrom_of_undelimited [] t hcut.gapless
      (Bytes.undelimited_append.1 hraw).1 hfits
    rw [readField, hread, hcut.stall]
    rfl

/-- **A name** that was read. -/
theorem exact_readName (hs : s.Gapless) (h : readName config s = ⟨.ok name, log, s₁⟩) :
    ∃ c, s.Advances c s₁ ∧
      Exact (readName config) (fun r => Starved r.outcome) c fun u => ⟨.ok name, log, u⟩ := by
  unfold readName at h
  split at h
  · rename_i field raw s₁ hread
    simp only [Attempt.mk.injEq, Except.ok.injEq] at h
    obtain ⟨rfl, rfl, rfl⟩ := h
    obtain ⟨c, raw', hadv, hexact⟩ := exact_readField hs hread
    refine ⟨c, hadv, hexact.map ?_ ?_⟩
    · intro t u hfield
      rw [readName, hfield]
    · intro t hfield
      obtain ⟨raw, u, hend⟩ := readField_of_prematureEof hfield
      rw [readName, hend]
      exact ⟨_, rfl⟩
  · simp at h

/-- **A value** that was read. -/
theorem exact_readValue {kind : String} {value : Bytes} (hs : s.Gapless)
    (h : readValue config kind name s = ⟨.ok value, log, s₁⟩) :
    ∃ c, s.Advances c s₁ ∧
      Exact (readValue config kind name) (fun r => Starved r.outcome) c
        fun u => ⟨.ok value, log, u⟩ := by
  unfold readValue at h
  split at h
  · simp at h
  · rename_i hcolon
    split at h
    · simp at h
    · rename_i plain raw s₁ hread
      simp only [Attempt.mk.injEq, Except.ok.injEq] at h
      obtain ⟨rfl, rfl, rfl⟩ := h
      obtain ⟨c, raw', hadv, hexact⟩ := exact_readField hs hread
      refine ⟨c, hadv, hexact.map ?_ ?_⟩
      · intro t u hfield
        rw [readValue, if_neg hcolon, hfield]
      · intro t hfield
        obtain ⟨raw, u, hend⟩ := readField_of_prematureEof hfield
        rw [readValue, if_neg hcolon, hend]
        exact ⟨_, rfl⟩
    · simp at h

/-- **A line** that was skipped.  One that the end of input cuts off is no failure yet. -/
theorem exact_skipLine (hs : s.Gapless) (h : skipLine s = (.ok true, s₁)) :
    ∃ c, s.Advances c s₁ ∧
      Exact skipLine (fun r => r.1 = .ok false ∧ r.2.access = (.ok [], r.2)) c
        fun u => (.ok true, u) := by
  obtain ⟨line, hline, hadv⟩ := advances_of_skipLine hs h
  refine ⟨_, hadv, ?_, ?_⟩
  · intro t q ht hahead
    rw [List.append_assoc, List.singleton_append] at hahead
    exact skipLine_of_ahead line t ht hline hahead
  · intro t hcut
    obtain ⟨left, hleft⟩ := hcut.front_of_concat
    have hskip := skipLine_of_not_mem t hcut.gapless fun hmem =>
      hline (hleft ▸ List.mem_append_left left hmem)
    rw [hcut.stall] at hskip
    rw [hskip]
    exact ⟨rfl, access_of_skipLine hcut.gapless hskip⟩

/-! ### Searching -/

/-- The same step, leaving another stream. -/
def Attempt.leaving {α : Type} (a : Attempt α) (u : Stream) : Attempt α := { a with stream := u }

theorem starved_seek (flags : Flags) (target : Wanted) {t : Stream}
    (h : Starved (readName config t).outcome) : Starved (seek config flags target t).outcome := by
  obtain ⟨part, hread⟩ := h.attempt
  rw [seek_of_readName_error hread]
  exact ⟨part, rfl⟩

/-- **A search** that does not fail. -/
theorem exact_seek {sighting : Sighting} (hs : s.Gapless)
    (h : (seek config flags target s).outcome = .ok sighting) :
    ∃ c, s.Advances c (seek config flags target s).stream ∧
      Exact (seek config flags target) (fun r => Starved r.outcome) c
        (seek config flags target s).leaving := by
  fun_induction seek config flags target s with
  | case1 => simp at h
  | case2 s log s₁ hread =>
      obtain ⟨c, hadv, hname⟩ := exact_readName hs hread
      refine ⟨c, hadv, hname.map ?_ fun t => starved_seek flags target⟩
      intro t u hread'
      rw [seek_of_readName hread', if_pos rfl]
      rfl
  | case3 s name log s₁ hread hterm hacc =>
      obtain ⟨c, hadv, hname⟩ := exact_readName hs hread
      refine ⟨c, hadv, hname.map ?_ fun t => starved_seek flags target⟩
      intro t u hread'
      rw [seek_of_readName hread', if_neg hterm, if_pos hacc]
      rfl
  | case4 s name log s₁ hread hterm hacc hextra =>
      obtain ⟨c, hadv, hname⟩ := exact_readName hs hread
      refine ⟨c, hadv, hname.map ?_ fun t => starved_seek flags target⟩
      intro t u hread'
      rw [seek_of_readName hread', if_neg hterm, if_neg hacc, if_pos hextra]
      rfl
  | case5 s name log s₁ hread hterm hacc hextra hend ih =>
      obtain ⟨c, hadv, hname⟩ := exact_readName hs hread
      obtain ⟨c', hadv', hrest⟩ := ih hadv.gapless h
      have hseek {t u : Stream} (hread' : readName config t = ⟨.ok name, log, u⟩) :
          seek config flags target t =
            (seek config flags target u).after (.wanted target :: log) := by
        rw [seek_of_readName hread', if_neg hterm, if_neg hacc, if_neg hextra, if_pos hend]
      refine ⟨c ++ c', hadv.trans hadv',
        hname.bind hrest ?_ (fun t => starved_seek flags target) ?_⟩
      · intro t u v hu hv
        rw [hseek hu, hv]
        rfl
      · intro t u hu hstarved
        rw [hseek hu]
        exact hstarved
  | case6 => simp at h
  | case7 s name log s₁ hread hterm hacc hextra hend whole s₂ hskip ih =>
      obtain ⟨c, hadv, hname⟩ := exact_readName hs hread
      have hseek {t u v : Stream} {whole : Bool} (hread' : readName config t = ⟨.ok name, log, u⟩)
          (hskip' : skipLine u = (.ok whole, v)) : seek config flags target t =
            (seek config flags target v).after (.wanted target :: log) := by
        rw [seek_of_readName hread', if_neg hterm, if_neg hacc, if_neg hextra, if_neg hend, hskip']
      cases whole with
      | false =>
          -- the input ended within the line, so that the search has failed
          rw [Attempt.after, seek_of_end config flags target
            (access_of_skipLine hadv.gapless hskip)] at h
          simp at h
      | true =>
          obtain ⟨c', hadv', hline⟩ := exact_skipLine hadv.gapless hskip
          obtain ⟨c'', hadv'', hrest⟩ := ih hadv'.gapless h
          refine ⟨c ++ (c' ++ c''), hadv.trans (hadv'.trans hadv''),
            hname.bind₃ hline hrest ?_ (fun t => starved_seek flags target) ?_ ?_⟩
          · intro t u v w hu hv hw
            rw [hseek hu hv, hw]
            rfl
          · -- the end of input within the line is found out by the next name
            rintro t u hu ⟨hcut, hend⟩
            rw [hseek hu (Prod.ext hcut rfl)]
            exact ⟨.name, seek_of_end config flags target hend⟩
          · intro t u v hu hv hstarved
            rw [hseek hu hv]
            exact hstarved

/-- A search whose answer is known. -/
theorem exact_seek_of_eq {sighting : Sighting} (hs : s.Gapless)
    (h : seek config flags target s = ⟨.ok sighting, log, s₁⟩) :
    ∃ c, s.Advances c s₁ ∧
      Exact (seek config flags target) (fun r => Starved r.outcome) c
        fun u => ⟨.ok sighting, log, u⟩ := by
  have hok : (seek config flags target s).outcome = .ok sighting := by rw [h]
  have hexact := exact_seek hs hok
  rwa [h] at hexact

/-! ### Named wishes -/

/-- The input ended too early. -/
def Satisfied.Starved (r : Satisfied) : Prop := ∃ part, r.progress = .failed (.prematureEof part)

def Satisfied.leaving (r : Satisfied) (u : Stream) : Satisfied := { r with stream := u }

theorem starved_satisfy {wish : Wish} (wishes : List Wish) {t : Stream}
    (h : Starved (seek config flags (.named wish.name) t).outcome) :
    (satisfy config flags (wish :: wishes) t).Starved := by
  obtain ⟨part, hseek⟩ := h.attempt
  rw [satisfy, hseek]
  exact ⟨part, rfl⟩

/-- **Named wishes**, as far as meeting them does not fail. -/
theorem exact_satisfy (config : Config) (flags : Flags) (wishes : List Wish) (hs : s.Gapless)
    (h : ∀ e, (satisfy config flags wishes s).progress ≠ .failed e) :
    ∃ c, s.Advances c (satisfy config flags wishes s).stream ∧
      Exact (satisfy config flags wishes) Satisfied.Starved c
        (satisfy config flags wishes s).leaving := by
  fun_induction satisfy config flags wishes s with
  | case1 s => exact ⟨[], .refl hs, .nothing _ _⟩
  | case2 => simp at h
  | case3 wish wishes s log s₁ hseek =>
      obtain ⟨c, hadv, hname⟩ := exact_seek_of_eq hs hseek
      refine ⟨c, hadv, hname.map ?_ fun t => starved_satisfy wishes⟩
      intro t u hu
      rw [satisfy, hu]
      rfl
  | case4 => simp at h
  | case5 => simp at h
  | case6 wish wishes s name log s₁ hseek value log' s₂ hvalue stored hstored ih =>
      obtain ⟨c, hadv, hname⟩ := exact_seek_of_eq hs hseek
      obtain ⟨c', hadv', hread⟩ := exact_readValue hadv.gapless hvalue
      obtain ⟨c'', hadv'', hrest⟩ := ih hadv'.gapless h
      refine ⟨c ++ (c' ++ c''), hadv.trans (hadv'.trans hadv''),
        hname.bind₃ hread hrest ?_ (fun t => starved_satisfy wishes) ?_ ?_⟩
      · intro t u v w hu hv hw
        simp only [satisfy, hu, hv, hstored, hw]
        rfl
      · intro t u hu hstarved
        obtain ⟨part, hv⟩ := hstarved.attempt
        rw [satisfy, hu]
        simp only
        rw [hv]
        exact ⟨part, rfl⟩
      · intro t u v hu hv hstarved
        simp only [satisfy, hu, hv, hstored]
        exact hstarved

/-! ### Captures -/

def Gathered.leaving (g : Gathered) (u : Stream) : Gathered := { g with stream := u }

theorem starved_gather {table : Table} {t : Stream}
    (h : Starved (seek config flags .any t).outcome) :
    Starved (gather config flags table t).outcome := by
  obtain ⟨part, hseek⟩ := h.attempt
  rw [gather_eq, hseek]
  exact ⟨part, rfl⟩

theorem starved_gather_of_found {table : Table} {t u : Stream}
    (hu : seek config flags .any t = ⟨.ok (.found name), log, u⟩)
    (h : Starved (readValue config "string" name u).outcome) :
    Starved (gather config flags table t).outcome := by
  obtain ⟨part, hv⟩ := h.attempt
  rw [gather_eq, hu]
  simp only
  rw [hv]
  exact ⟨part, rfl⟩

/-- One attribute and the capture of the others. -/
theorem exact_gather_next {table table' : Table} {value : Bytes} {log' : List LogEntry}
    {count : Nat} {a b c : Bytes} {answer : Stream → Gathered}
    (hname : Exact (seek config flags .any) (fun r => Starved r.outcome) a
      fun u => ⟨.ok (.found name), log, u⟩)
    (hvalue : Exact (readValue config "string" name) (fun r => Starved r.outcome) b
      fun u => ⟨.ok value, log', u⟩)
    (hrest : Exact (gather config flags table') (fun r => Starved r.outcome) c answer)
    (hnext : ∀ t u v, seek config flags .any t = ⟨.ok (.found name), log, u⟩ →
      readValue config "string" name u = ⟨.ok value, log', v⟩ →
        gather config flags table t = (gather config flags table' v).after count (log ++ log')) :
    Exact (gather config flags table) (fun r => Starved r.outcome) (a ++ (b ++ c))
      fun u => (answer u).after count (log ++ log') := by
  refine hname.bind₃ hvalue hrest ?_ (fun t => starved_gather)
    (fun t u => starved_gather_of_found) ?_
  · intro t u v w hu hv hw
    rw [hnext t u v hu hv, hw]
  · intro t u v hu hv hstarved
    rw [hnext t u v hu hv]
    exact hstarved

/-- **A capture** that does not fail. -/
theorem exact_gather {table : Table} (hs : s.Gapless)
    (h : (gather config flags table s).outcome = .ok ()) :
    ∃ c, s.Advances c (gather config flags table s).stream ∧
      Exact (gather config flags table) (fun r => Starved r.outcome) c
        (gather config flags table s).leaving := by
  fun_induction gather config flags table s with
  | case1 => simp at h
  | case2 table s log s₁ hseek =>
      obtain ⟨c, hadv, hname⟩ := exact_seek_of_eq hs hseek
      refine ⟨c, hadv, hname.map ?_ fun t => starved_gather⟩
      intro t u hu
      rw [gather_eq, hu]
      rfl
  | case3 => simp at h
  | case4 table s name log s₁ hseek value log' s₂ hvalue old hold hextra =>
      obtain ⟨c, hadv, hname⟩ := exact_seek_of_eq hs hseek
      obtain ⟨c', hadv', hread⟩ := exact_readValue hadv.gapless hvalue
      refine ⟨c ++ c', hadv.trans hadv',
        hname.bind hread ?_ (fun t => starved_gather) fun t u => starved_gather_of_found⟩
      intro t u v hu hv
      rw [gather_of_readValue hu hv, hold]
      simp only [if_pos hextra]
      rfl
  | case5 table s name log s₁ hseek value log' s₂ hvalue old hold hextra ih =>
      obtain ⟨c, hadv, hname⟩ := exact_seek_of_eq hs hseek
      obtain ⟨c', hadv', hread⟩ := exact_readValue hadv.gapless hvalue
      obtain ⟨c'', hadv'', hrest⟩ := ih hadv'.gapless h
      refine ⟨c ++ (c' ++ c''), hadv.trans (hadv'.trans hadv''),
        exact_gather_next hname hread hrest ?_⟩
      intro t u v hu hv
      rw [gather_of_readValue hu hv, hold]
      simp only [if_neg hextra]
  | case6 table s name log s₁ hseek value log' s₂ hvalue hnew ih =>
      obtain ⟨c, hadv, hname⟩ := exact_seek_of_eq hs hseek
      obtain ⟨c', hadv', hread⟩ := exact_readValue hadv.gapless hvalue
      obtain ⟨c'', hadv'', hrest⟩ := ih hadv'.gapless h
      refine ⟨c ++ (c' ++ c''), hadv.trans (hadv'.trans hadv''),
        exact_gather_next hname hread hrest ?_⟩
      intro t u v hu hv
      rw [gather_of_readValue hu hv, hnew]

/-! ### The scan -/

def ScanResult.leaving (r : ScanResult) (u : Stream) : ScanResult := { r with stream := u }

/-- **What follows the named wishes**, if it does not fail. -/
theorem exact_finish {capture : Option Table} {named : Satisfied} {n : Nat}
    (hs : named.stream.Gapless) (h : (finish config flags capture named).outcome = .ok n) :
    ∃ c, named.stream.Advances c (finish config flags capture named).stream ∧
      Exact (fun t => finish config flags capture (named.leaving t)) (fun r => Starved r.outcome) c
        (finish config flags capture named).leaving := by
  cases capture with
  | some table =>
      simp only [finish] at h ⊢
      cases hgather : (gather config flags table named.stream).outcome with
      | error e => simp [hgather, Except.map] at h
      | ok u =>
          obtain ⟨c, hadv, hrest⟩ := exact_gather hs hgather
          rw [← hgather]
          refine ⟨c, hadv, hrest.map ?_ fun t hstarved => hstarved.map _⟩
          intro t u hu
          simp only [Satisfied.leaving, hu]
          rfl
  | none =>
      simp only [finish] at h ⊢
      by_cases hmore : flags.more = true
      · simp only [if_pos hmore] at h ⊢
        exact ⟨[], .refl hs, .nothing _ _⟩
      · simp only [if_neg hmore] at h ⊢
        cases hseek : (seek config flags .terminator named.stream).outcome with
        | error e => simp [hseek, Except.map] at h
        | ok sighting =>
            obtain ⟨c, hadv, hrest⟩ := exact_seek hs hseek
            rw [← hseek]
            refine ⟨c, hadv, hrest.map ?_ fun t hstarved => hstarved.map _⟩
            intro t u hu
            simp only [Satisfied.leaving, hu]
            rfl

/-- **A scan** that does not fail. -/
theorem exact_scan {list : WishList} {n : Nat} (hs : s.Gapless)
    (h : (scan config flags list s).outcome = .ok n) :
    ∃ c, s.Advances c (scan config flags list s).stream ∧
      Exact (scan config flags list) (fun r => Starved r.outcome) c
        (scan config flags list s).leaving := by
  have hfirst (t : Stream) (hstarved : (satisfy config flags list.wishes t).Starved) :
      Starved (scan config flags list t).outcome := by
    obtain ⟨part, hprogress⟩ := hstarved
    simp only [scan, hprogress]
    exact ⟨part, rfl⟩
  have hnamed := exact_satisfy config flags list.wishes hs
  generalize hr : satisfy config flags list.wishes s = named at hnamed
  cases hprogress : named.progress with
  | failed e => simp [scan, hr, hprogress] at h
  | stopped =>
      obtain ⟨c, hadv, hexact⟩ := hnamed (by simp [hprogress])
      have hscan : scan config flags list s =
          ⟨.ok named.count, ⟨named.wishes, list.capture⟩, named.log, named.stream⟩ := by
        simp only [scan, hr, hprogress]
      rw [hscan]
      refine ⟨c, hadv, hexact.map ?_ hfirst⟩
      intro t u hu
      simp only [scan, hu, Satisfied.leaving, hprogress]
      rfl
  | complete =>
      obtain ⟨c, hadv, hexact⟩ := hnamed (by simp [hprogress])
      have hscan {t u : Stream} (hu : satisfy config flags list.wishes t = named.leaving u) :
          scan config flags list t = finish config flags list.capture (named.leaving u) := by
        simp only [scan, hu, Satisfied.leaving, hprogress]
      rw [hscan (hr.trans rfl)] at h ⊢
      obtain ⟨c', hadv', hrest⟩ := exact_finish hadv.gapless h
      refine ⟨c ++ c', hadv.trans hadv', hexact.bind hrest ?_ hfirst ?_⟩
      · intro t u v hu hv
        rw [hscan hu]
        exact hv
      · intro t u hu hstarved
        rw [hscan hu]
        exact hstarved

/-- A scan that does not fail and leaves nothing needs all of the input. -/
theorem exact_scan_of_drained {list : WishList} {n : Nat} (hs : s.Gapless)
    (h : (scan config flags list s).outcome = .ok n)
    (hunread : (scan config flags list s).stream.unread = []) :
    Exact (scan config flags list) (fun r => Starved r.outcome) s.unread
      (scan config flags list s).leaving := by
  obtain ⟨consumed, hadv, hexact⟩ := exact_scan hs h
  rwa [hadv.unread, hunread, List.append_nil]

/-! ### Lists that are cut off -/

theorem lines_attributeLines (attributes : List (Bytes × Bytes)) :
    Lines (attributeLines attributes) := by
  induction attributes with
  | nil => exact .nil
  | cons pair rest ih =>
      obtain ⟨name, value⟩ := pair
      have hline := lines_of_colon (Base64.undelimited_encode name)
        (Base64.undelimited_encode value).newline_not_mem
      rw [attributeLines_cons]
      refine Lines.append ?_ ih
      simpa [attributeLine] using hline

theorem isSegment_listText (attributes : List (Bytes × Bytes)) :
    IsSegment (listText attributes) :=
  (lines_attributeLines attributes).isSegment

/-- **A scan consumes exactly what it needs.**  If it does not fail, then it gives the same on every
stream that begins with what it consumed, and leaves what follows; and on a stream that ends before
that it reports the end of input.  So a list that is cut off is never taken for a shorter one. -/
theorem scan_consumes_exactly (config : Config) (flags : Flags) (list : WishList) :
    (∀ (s : Stream) (n : Nat), s.Steady → (scan config flags list s).outcome = .ok n →
      let r := scan config flags list s
      ∃ consumed, s.unread = consumed ++ r.stream.unread ∧
        (∀ (t : Stream) (q : Bytes), t.Steady → t.unread = consumed ++ q →
          let r' := scan config flags list t
          r'.outcome = r.outcome ∧ r'.list = r.list ∧ r'.log = r.log ∧ r'.stream.unread = q) ∧
        ∀ t : Stream, t.Steady → t.ending = .closed → t.unread <+: consumed →
          t.unread ≠ consumed →
            ∃ part, (scan config flags list t).outcome = .error (.prematureEof part)) ∧
    (flags.more = false → flags.extra = false →
      ∀ (attributes : List (Bytes × Bytes)) (t : Stream), t.Steady →
        t.unread <+: listText attributes → t.unread ≠ listText attributes →
          ∀ n, (scan config flags list t).outcome ≠ .ok n) := by
  constructor
  · intro s n hs hok
    obtain ⟨consumed, hadv, hexact⟩ := exact_scan hs.gapless hok
    refine ⟨consumed, hadv.unread, ?_, ?_⟩
    · intro t q ht hunread
      obtain ⟨u, hscan, hadv'⟩ := hexact.whole ht.gapless (ht.ahead.trans hunread)
      rw [hscan]
      exact ⟨rfl, rfl, rfl, hadv'.unread_eq_of_append hunread⟩
    · intro t ht hending hfront hne
      exact hexact.short (ht.cutShort hending hfront hne)
  · intro hmore hextra attributes t ht hfront hne n hok
    obtain ⟨segment, hsegment, hadv⟩ := advances_segment_of_scan ht.gapless hmore hextra hok
    -- the scan would have found an empty line before the one that ends the list
    have hin : segment <+: t.unread := ⟨_, hadv.unread.symm⟩
    have hwhole := (isSegment_listText attributes).2 segment (hin.trans hfront) hsegment.1
    rw [hwhole] at hin
    exact hne (hfront.eq_of_length_le hin.length_le)

/-- A scan that an attribute stops, and a list that is cut off within its second line. -/
theorem scan_consumes_exactly_of_surplus :
    let text := listText [([97], [49]), ([98], [50])]
    let list : WishList := ⟨[⟨[97], .str []⟩], none⟩
    let r := scan .standard ⟨true, true, false⟩ list
      (.bytewise (text ++ listText [([97], [49])]) .closed)
    (∃ consumed, text ++ listText [([97], [49])] = consumed ++ r.stream.unread ∧
      (∀ (t : Stream) (q : Bytes), t.Steady → t.unread = consumed ++ q →
        let r' := scan .standard ⟨true, true, false⟩ list t
        r'.outcome = r.outcome ∧ r'.list = r.list ∧ r'.log = r.log ∧ r'.stream.unread = q) ∧
      ∀ t : Stream, t.Steady → t.ending = .closed → t.unread <+: consumed → t.unread ≠ consumed →
        ∃ part, (scan .standard ⟨true, true, false⟩ list t).outcome =
          .error (.prematureEof part)) ∧
    ∀ n, (scan .standard ⟨true, false, false⟩ list
      (.bytewise (text.take 13) .closed)).outcome ≠ .ok n := by
  intro text list
  constructor
  · have hwire := Stream.unread_bytewise (text ++ listText [([97], [49])]) .closed
    rw [← hwire]
    exact (scan_consumes_exactly .standard ⟨true, true, false⟩ list).1 _ 1
      (Stream.steady_bytewise _ _) ends_of_surplus.outcome
  · have hwire := Stream.unread_bytewise (text.take 13) .closed
    have hfront : text.take 13 <+: text := List.take_prefix 13 text
    have hne : text.take 13 ≠ text := by decide
    exact (scan_consumes_exactly .standard ⟨true, false, false⟩ list).2 rfl rfl
      [([97], [49]), ([98], [50])] _ (Stream.steady_bytewise _ _) (hwire ▸ hfront) (hwire ▸ hne)

end

end AttributeWire
