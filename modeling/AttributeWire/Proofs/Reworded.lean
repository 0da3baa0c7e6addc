/-
**What stands behind a name that is not wanted does not matter.**

A scan skips the line of an attribute that it does not look for without looking at the value: it
neither decodes it nor bounds its length, and a colon in it means nothing.  So two inputs that are
alike but for what stands between the first colon and the newline of such lines are scanned alike.
Both inputs come in one piece here.

Main definitions:

* `Reworded` — the input with other text in some of the lines that are skipped;
* `ScanResult.Same` — the same result, and the same bytes left unread.

Main results:

* `Pass.of_shows` — **a line is passed in the same way** whatever follows it;
* `same_of_reworded` — **what is skipped does not matter**, from any point of a scan;
* `scan_reworded` — and hence for a whole scan.
-/

import AttributeWire.Proofs.Course
import AttributeWire.Proofs.Whole

set_option relaxedAutoImplicit false
set_option autoImplicit false

namespace AttributeWire

section

variable {config : Config} {flags : Flags} {list list' : WishList} {s s' s₁ : Stream}
  {target : Wanted} {name : Field} {value : Bytes} {gain : Gain} {r r' : ScanResult}
  {bytes plain text : Bytes} {ending : Ending}

/-! ### The same result -/

/-- The same result, and the same bytes left unread. -/
structure ScanResult.Same (r r' : ScanResult) : Prop where
  outcome : r'.outcome = r.outcome
  list : r'.list = r.list
  log : r'.log = r.log
  unread : r'.stream.unread = r.stream.unread

namespace ScanResult.Same

theorem refl (r : ScanResult) : r.Same r := ⟨rfl, rfl, rfl, rfl⟩

theorem symm (h : r.Same r') : r'.Same r :=
  ⟨h.outcome.symm, h.list.symm, h.log.symm, h.unread.symm⟩

theorem trans {r'' : ScanResult} (h : r.Same r') (h' : r'.Same r'') : r.Same r'' :=
  ⟨h'.outcome.trans h.outcome, h'.list.trans h.list, h'.log.trans h.log,
    h'.unread.trans h.unread⟩

theorem passed (h : r.Same r') (gain : Gain) :
    (r.passed gain).Same (r'.passed gain) := by
  obtain ⟨houtcome, hlist, hlog, hunread⟩ := h
  constructor
  · rw [ScanResult.passed, houtcome, ScanResult.passed]
  · rw [ScanResult.passed, hlist, ScanResult.passed]
  · rw [ScanResult.passed, hlog, ScanResult.passed]
  · exact hunread

end ScanResult.Same

theorem same_of_shows (list : WishList) (hs : s.Shows bytes ending) :
    (scan config flags list s).Same (scan config flags list (.whole bytes ending)) := by
  cases hwanted : list.wanted? flags with
  | none =>
      rw [scan_of_not_wanted hwanted, scan_of_not_wanted hwanted]
      exact ⟨rfl, rfl, rfl, by rw [Stream.unread_whole, hs.unread]⟩
  | some target =>
      rw [scan_of_wanted hwanted, scan_of_wanted hwanted, seek_of_access_eq hs.access]
      exact .refl _

/-! ### Lines in front -/

/-- A name in front is seen in the same way whatever follows it. -/
theorem Sees.of_shows (hs : s.Shows bytes ending) (h : Sees config flags list s target name s₁) :
    ∃ raw, WrittenForm config raw name.plain ∧
      bytes = raw ++ name.delimiter.byte :: s₁.unread ∧ s₁ = .whole s₁.unread ending ∧
      ∀ more, Sees config flags list (.whole (raw ++ name.delimiter.byte :: more) ending) target
        name (.whole more ending) := by
  obtain ⟨raw, hraw, hunread⟩ := h.unread
  rw [hs.unread] at hunread
  have hread : ∀ more, readName config (.whole (raw ++ name.delimiter.byte :: more) ending) =
      ⟨.ok name, [.nameRead name.plain], .whole more ending⟩ := fun more =>
    readName_front name.delimiter more [] ending hraw
  have hrest : s₁ = .whole s₁.unread ending := by
    have hname := (readName_of_access_eq hs.access).symm.trans h.read
    rw [hunread, hread] at hname
    exact (Attempt.mk.inj hname).2.2.symm
  exact ⟨raw, hraw, hunread, hrest, fun more => ⟨h.wanted, hread more⟩⟩

theorem Refuses.of_shows (hs : s.Shows bytes ending)
    (h : Refuses config flags list s target name s₁) :
    ∃ raw, WrittenForm config raw name.plain ∧
      bytes = raw ++ name.delimiter.byte :: s₁.unread ∧ s₁ = .whole s₁.unread ending ∧
      ∀ more, Refuses config flags list (.whole (raw ++ name.delimiter.byte :: more) ending) target
        name (.whole more ending) := by
  obtain ⟨raw, hraw, hunread, hrest, hsees⟩ := h.toSees.of_shows hs
  exact ⟨raw, hraw, hunread, hrest, fun more => ⟨hsees more, h.unended, h.refused⟩⟩

/-- The line of an attribute in front is taken in the same way whatever follows it. -/
theorem Takes.of_shows (hs : s.Shows bytes ending)
    (h : Takes config flags list s target name value s') :
    ∃ line, bytes = line ++ s'.unread ∧ s' = .whole s'.unread ending ∧
      ∀ more, Takes config flags list (.whole (line ++ more) ending) target name value
        (.whole more ending) := by
  obtain ⟨s₁, hsees, hread⟩ := h.sees
  obtain ⟨raw, hraw, hunread, hrest, hsees⟩ := hsees.of_shows hs
  obtain ⟨hcolon, -, raw', hraw', hunread'⟩ := unread_of_readValue hread
  obtain ⟨plain, delimiter⟩ := name
  obtain rfl : delimiter = .colon := hcolon
  have hvalue : ∀ more, readValue config list.kindText ⟨plain, .colon⟩
      (.whole (raw' ++ Bytes.newline :: more) ending) =
        ⟨.ok value, [.valueRead value], .whole more ending⟩ := fun more =>
    readValue_front list.kindText more [] ending hraw'
  have hlast : s' = .whole s'.unread ending := by
    rw [hrest, hunread', hvalue] at hread
    exact (Attempt.mk.inj hread).2.2.symm
  refine ⟨raw ++ Bytes.colon :: (raw' ++ [Bytes.newline]), ?_, hlast, fun more => ?_⟩
  · rw [hunread, hunread']
    simp [Delimiter.byte]
  · have hfront : raw ++ Bytes.colon :: (raw' ++ [Bytes.newline]) ++ more =
        raw ++ Delimiter.colon.byte :: (raw' ++ Bytes.newline :: more) := by
      simp [Delimiter.byte]
    rw [hfront]
    exact ⟨h.accepts, _, hsees _, hvalue more⟩

/-- On one piece an end of input is not lifted. -/
theorem access_of_skipLine_whole (h : skipLine (.whole bytes ending) = (.ok false, s')) :
    s'.access = (.ok [], s') := by
  have hgapless : (Stream.whole bytes ending).Gapless := by simp [Stream.Gapless]
  exact access_of_skipLine hgapless h

/-- **A line in front is passed in the same way** whatever follows it. -/
theorem Pass.of_shows (hs : s.Shows bytes ending) (h : Pass config flags list s gain list' s') :
    ∃ line, bytes = line ++ s'.unread ∧ s' = .whole s'.unread ending ∧
      ∀ more, Pass config flags list (.whole (line ++ more) ending) gain list'
        (.whole more ending) := by
  cases h with
  | @bare _ _ _ target name h hextra hend =>
      obtain ⟨raw, -, hunread, hrest, hrefuses⟩ := h.of_shows hs
      refine ⟨raw ++ [name.delimiter.byte], by simpa using hunread, hrest, fun more => ?_⟩
      rw [List.append_assoc]
      exact .bare (hrefuses more) hextra hend
  | @skipped _ _ s₁ _ target name h hextra hend hskip =>
      obtain ⟨raw, -, hunread, hrest, hrefuses⟩ := h.of_shows hs
      rw [hrest] at hskip
      obtain ⟨hlast, rest, hline, hunread'⟩ := eq_whole_of_skipLine hskip
      refine ⟨raw ++ name.delimiter.byte :: (rest ++ [Bytes.newline]), ?_, hlast, fun more => ?_⟩
      · rw [hunread, hunread']
        simp
      · have hfront : raw ++ name.delimiter.byte :: (rest ++ [Bytes.newline]) ++ more =
            raw ++ name.delimiter.byte :: (rest ++ Bytes.newline :: more) := by
          simp
        rw [hfront]
        exact .skipped (hrefuses _) hextra hend (skipLine_front more [] ending hline)
  | cut h hextra hend hskip hlifted =>
      obtain ⟨raw, -, hunread, hrest, hrefuses⟩ := h.of_shows hs
      rw [hrest] at hskip
      exact absurd (access_of_skipLine_whole hskip) (hlifted s')
  | met h hstored =>
      obtain ⟨line, hunread, hrest, htakes⟩ := h.of_shows hs
      exact ⟨line, hunread, hrest, fun more => .met (htakes more) hstored⟩
  | captured h hnew =>
      obtain ⟨line, hunread, hrest, htakes⟩ := h.of_shows hs
      exact ⟨line, hunread, hrest, fun more => .captured (htakes more) hnew⟩
  | repeated h hextra hold =>
      obtain ⟨line, hunread, hrest, htakes⟩ := h.of_shows hs
      exact ⟨line, hunread, hrest, fun more => .repeated (htakes more) hextra hold⟩

/-! ### Other text in the lines that are skipped -/

/-- The input with other text in some of the lines that are skipped, between the first colon and the
newline. -/
inductive Reworded (config : Config) (flags : Flags) : WishList → Stream → Bytes → Prop
  /-- The input is as it was. -/
  | rest {list : WishList} {s : Stream} : Reworded config flags list s s.unread
  /-- A line is as it was. -/
  | kept {list list' : WishList} {s s' : Stream} {gain : Gain} {line text : Bytes}
      (h : Pass config flags list s gain list' s') (hline : s.unread = line ++ s'.unread)
      (hrest : Reworded config flags list' s' text) : Reworded config flags list s (line ++ text)
  /-- A line that is skipped has another text. -/
  | replaced {list : WishList} {s s₁ s' : Stream} {target : Wanted} {name : Field}
      {raw old new text : Bytes} (h : Refuses config flags list s target name s₁)
      (hextra : flags.extra = false) (hcolon : name.delimiter = .colon)
      (hskip : skipLine s₁ = (.ok true, s')) (hraw : raw.Undelimited)
      (hline : s.unread = raw ++ Bytes.colon :: (old ++ Bytes.newline :: s'.unread))
      (hnew : Bytes.newline ∉ new) (hrest : Reworded config flags list s' text) :
      Reworded config flags list s (raw ++ Bytes.colon :: (new ++ Bytes.newline :: text))

/-- **What is skipped does not matter**, from any point of a scan. -/
theorem same_of_reworded (hs : s.Shows bytes ending) (h : Reworded config flags list s text) :
    (scan config flags list s).Same (scan config flags list (.whole text ending)) := by
  induction h generalizing bytes with
  | rest =>
      rw [hs.unread]
      exact same_of_shows _ hs
  | @kept list list' s s' gain line text h hline _ ih =>
      obtain ⟨line', hline', hrest, hpass⟩ := h.of_shows hs
      rw [← hs.unread, hline] at hline'
      obtain rfl := List.append_cancel_right hline'
      have hshows : s'.Shows s'.unread ending := Stream.shows_of_eq hrest
      rw [scan_of_pass h, scan_of_pass (hpass text)]
      exact (ih hshows).passed gain
  | @replaced list s s₁ s' target name raw old new text h hextra hcolon hskip hraw hline hnew _
      ih =>
      obtain ⟨raw', hraw', hunread, hrest, hrefuses⟩ := h.of_shows hs
      have hpass := Pass.skipped h hextra hcolon hskip
      rw [hrest] at hskip
      obtain ⟨hlast, -⟩ := eq_whole_of_skipLine hskip
      rw [← hs.unread, hline, hcolon, ← Delimiter.byte] at hunread
      obtain rfl := eq_of_undelimited_append hraw hraw'.undelimited hunread
      have hrefuses' : Refuses config flags list
          (.whole (raw ++ Bytes.colon :: (new ++ Bytes.newline :: text)) ending) target name
          (.whole (new ++ Bytes.newline :: text) ending) := by
        rw [hcolon] at hrefuses
        exact hrefuses _
      have hpass' := Pass.skipped hrefuses' hextra hcolon (skipLine_front text [] ending hnew)
      rw [scan_of_pass hpass, scan_of_pass hpass']
      exact (ih (Stream.shows_of_eq hlast)).passed _

/-- **Unrequested values have no influence.**  If the lines that a scan skips have other text
between the first colon and the newline, then the scan gives the same. -/
theorem scan_reworded
    (h : Reworded config flags list (.ofEvents [.data bytes] ending) text) :
    (scan config flags list (.ofEvents [.data bytes] ending)).Same
      (scan config flags list (.ofEvents [.data text] ending)) := by
  have hwhole := same_of_reworded (Stream.shows_ofEvents bytes ending) h
  have htext : (scan config flags list (.ofEvents [.data text] ending)).Same
      (scan config flags list (.whole text ending)) :=
    same_of_shows list (Stream.shows_ofEvents text ending)
  exact hwhole.trans htext.symm

/-- On one piece, a line whose name is not wanted may have any text behind the colon. -/
theorem reworded_of_line {raw rest old new : Bytes} (hs : s.Shows bytes ending)
    (hwanted : list.wanted? flags = some target) (hraw : WrittenForm config raw plain)
    (hrefused : ¬ target.Accepts plain) (hextra : flags.extra = false)
    (hbytes : bytes = raw ++ Bytes.colon :: (old ++ Bytes.newline :: rest))
    (hold : Bytes.newline ∉ old) (hnew : Bytes.newline ∉ new)
    (hrest : Reworded config flags list (.whole rest ending) text) :
    Reworded config flags list s (raw ++ Bytes.colon :: (new ++ Bytes.newline :: text)) := by
  have hread : readName config s = ⟨.ok ⟨plain, .colon⟩, [.nameRead plain],
      .whole (old ++ Bytes.newline :: rest) ending⟩ := by
    rw [readName_of_access_eq hs.access, hbytes]
    exact readName_front .colon _ [] ending hraw
  have hrefuses : Refuses config flags list s target ⟨plain, .colon⟩
      (.whole (old ++ Bytes.newline :: rest) ending) :=
    ⟨⟨hwanted, hread⟩, not_isTerminator_colon plain, hrefused⟩
  have hline : s.unread = raw ++ Bytes.colon ::
      (old ++ Bytes.newline :: (Stream.whole rest ending).unread) := by
    rw [hs.unread, hbytes, Stream.unread_whole]
  exact .replaced hrefuses hextra rfl (skipLine_front rest [] ending hold) hraw.undelimited hline
    hnew hrest

/-- The value of an attribute that is not wanted may be no base64 at all, and longer than the
limit. -/
theorem scan_reworded_of_long :
    let list : WishList := ⟨[⟨[97], .str []⟩], none⟩
    let flags : Flags := ⟨true, false, false⟩
    let behind := attributeLine [97] [49] ++ terminatorLine
    let text := Base64.encode [120] ++ Bytes.colon ::
      (List.replicate 5000 Bytes.colon ++ Bytes.newline :: behind)
    (scan .standard flags list
        (.ofEvents [.data (attributeLine [120] [50] ++ behind)] .closed)).Same
      (scan .standard flags list (.ofEvents [.data text] .closed)) := by
  intro list flags behind text
  have hraw : WrittenForm .standard (Base64.encode [120]) [120] := ⟨by decide, by decide⟩
  have hrefused : ¬ (Wanted.named [97]).Accepts [120] := by decide
  have hbytes : attributeLine [120] [50] ++ behind = Base64.encode [120] ++ Bytes.colon ::
      (Base64.encode [50] ++ Bytes.newline :: behind) := by
    simp [attributeLine]
  have hnew : Bytes.newline ∉ List.replicate 5000 Bytes.colon := by
    rw [List.mem_replicate]
    exact fun h => Bytes.colon_ne_newline h.2.symm
  have hrest : Reworded .standard flags list (.whole behind .closed)
      (Stream.whole behind .closed).unread := .rest
  rw [Stream.unread_whole] at hrest
  exact scan_reworded (reworded_of_line (Stream.shows_ofEvents _ .closed) rfl hraw hrefused rfl
    hbytes (Base64.undelimited_encode [50]).newline_not_mem hnew hrest)

end

end AttributeWire
