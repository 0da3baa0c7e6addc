/-
**Which drafts are wish lists.**

A draft is checked for a marker, for entries behind the first marker, and for captures anywhere but
directly before it, in this order.  What passes is what adding entries one at a time makes as well,
and is kept as it was stated.

Main definitions:

* `IsComplete` — named wishes, then at most one capture, then the marker;
* `EndsEarly`, `CapturesEarly` — entries behind the first marker, and a capture that something else
  than the marker follows;
* `fault?` — the text of what is wrong with a draft.

Main results:

* `splitTerminator_eq_some_iff`, `ofBody?_eq_some_iff`, `exists_of_ofBody?_eq_none` — what each part
  of the check finds;
* `ofEntries_cases` — **every draft has one of four verdicts**;
* `ofEntries_exactly` — **which drafts pass**, and which fault each of the others has.
-/

import AttributeWire.Wish

set_option relaxedAutoImplicit false
set_option autoImplicit false

namespace AttributeWire

namespace WishList

variable {entries before after body : List Entry} {list : WishList}

/-! ### Drafts -/

/-- Any number of named wishes, then at most one capture, then the marker. -/
def IsComplete (entries : List Entry) : Prop :=
  ∃ (wishes : List Wish) (captures : List Table), captures.length ≤ 1 ∧
    entries = wishes.map .named ++ captures.map .capture ++ [.terminator]

/-- Entries follow the first marker. -/
def EndsEarly (entries : List Entry) : Prop :=
  ∃ before after, entries = before ++ .terminator :: after ∧ .terminator ∉ before ∧ after ≠ []

/-- Something else than the marker follows a capture. -/
def CapturesEarly (entries : List Entry) : Prop :=
  ∃ before table next after, entries = before ++ .capture table :: next :: after ∧
    next ≠ .terminator

/-- The entry is a capture. -/
def isCapture : Entry → Bool
  | .capture _ => true
  | _ => false

/-- The text of what is wrong with a draft. -/
def fault? (entries : List Entry) : Option String :=
  match ofEntries entries with
  | .ok _ => none
  | .error e => some e.message

theorem isComplete_iff : IsComplete entries ↔ ∃ list : WishList, list.toEntries = entries := by
  constructor
  · rintro ⟨wishes, captures, hlen, rfl⟩
    match captures, hlen with
    | [], _ => exact ⟨⟨wishes, none⟩, rfl⟩
    | [table], _ => exact ⟨⟨wishes, some table⟩, rfl⟩
  · rintro ⟨list, rfl⟩
    exact ⟨list.wishes, list.capture.toList, Option.length_toList_le, rfl⟩

/-! ### The parts of the check -/

/-- A draft is cut at its first marker. -/
theorem splitTerminator_eq_some_iff :
    splitTerminator entries = some (before, after) ↔
      entries = before ++ .terminator :: after ∧ .terminator ∉ before := by
  constructor
  · intro h
    fun_induction splitTerminator entries generalizing before with
    | case1 => simp at h
    | case2 rest =>
        obtain ⟨rfl, rfl⟩ := Prod.mk.inj (Option.some.inj h)
        exact ⟨rfl, List.not_mem_nil⟩
    | case3 entry rest hentry before' after' hrest ih =>
        obtain ⟨rfl, rfl⟩ := Prod.mk.inj (Option.some.inj h)
        obtain ⟨rfl, hbefore⟩ := ih hrest
        exact ⟨rfl, List.not_mem_cons_of_ne_of_not_mem (Ne.symm hentry) hbefore⟩
    | case4 => simp at h
  · rintro ⟨rfl, hbefore⟩
    exact splitTerminator_append before hbefore after

theorem splitTerminator_eq_none_iff : splitTerminator entries = none ↔ .terminator ∉ entries := by
  constructor
  · intro h hmem
    obtain ⟨before, after, heq, hbefore⟩ := List.eq_append_cons_of_mem hmem
    rw [splitTerminator_eq_some_iff.2 ⟨heq, hbefore⟩] at h
    simp at h
  · intro h
    cases hsplit : splitTerminator entries with
    | none => rfl
    | some parts =>
        obtain ⟨rfl, -⟩ := splitTerminator_eq_some_iff.1 hsplit
        exact absurd (by simp) h

/-- The entries before the marker are a list if they are those that hold its destinations. -/
theorem ofBody?_eq_some_iff : ofBody? body = some list ↔ body = list.holders := by
  constructor
  · intro h
    fun_induction ofBody? body generalizing list with
    | case1 =>
        obtain rfl := Option.some.inj h
        rfl
    | case2 wish rest list' hrest ih =>
        obtain rfl := Option.some.inj h
        rw [ih hrest]
        rfl
    | case3 => simp at h
    | case4 table =>
        obtain rfl := Option.some.inj h
        rfl
    | case5 => simp at h
  · rintro rfl
    exact ofBody?_holders list

/-- If the entries before the marker are no list, then one of them follows a capture. -/
theorem exists_of_ofBody?_eq_none (hbody : .terminator ∉ body) (h : ofBody? body = none) :
    ∃ before table next after, body = before ++ .capture table :: next :: after := by
  induction body with
  | nil => simp [ofBody?] at h
  | cons entry rest ih =>
      cases entry with
      | terminator => exact absurd List.mem_cons_self hbody
      | named wish =>
          have hrest : ofBody? rest = none := by
            cases hlist : ofBody? rest with
            | none => rfl
            | some list => simp [ofBody?, hlist] at h
          obtain ⟨before, table, next, after, heq⟩ := ih (by simpa using hbody) hrest
          exact ⟨.named wish :: before, table, next, after, congrArg _ heq⟩
      | capture table =>
          cases rest with
          | nil => simp [ofBody?] at h
          | cons next after => exact ⟨[], table, next, after, rfl⟩

/-! ### The verdicts -/

theorem ofEntries_of_not_mem (h : .terminator ∉ entries) :
    ofEntries entries = .error .noTerminator := by
  rw [ofEntries, splitTerminator_eq_none_iff.2 h]

theorem ofEntries_of_endsEarly (h : EndsEarly entries) :
    ofEntries entries = .error .afterTerminator := by
  obtain ⟨before, after, heq, hbefore, hne⟩ := h
  obtain ⟨next, rest, rfl⟩ := List.exists_cons_of_ne_nil hne
  rw [ofEntries, splitTerminator_eq_some_iff.2 ⟨heq, hbefore⟩]

theorem ofEntries_of_marked (hbody : .terminator ∉ body) :
    ofEntries (body ++ [.terminator]) =
      match ofBody? body with
      | some list => .ok list
      | none => .error .captureNotLast := by
  have hsplit : splitTerminator (body ++ [.terminator]) = some (body, []) :=
    splitTerminator_eq_some_iff.2 ⟨rfl, hbody⟩
  cases hlist : ofBody? body <;> simp [ofEntries, hsplit, hlist]

/-- Only the marker follows the capture of a list. -/
theorem not_capturesEarly_toEntries (list : WishList) : ¬ CapturesEarly list.toEntries := by
  rintro ⟨before, table, next, after, heq, hnext⟩
  obtain ⟨wishes, capture⟩ := list
  induction wishes generalizing before with
  | nil =>
      cases capture with
      | none => cases before <;> simp [toEntries, holders] at heq
      | some table' =>
          rcases before with _ | ⟨first, _ | ⟨second, before⟩⟩
          · exact hnext (by simp_all [toEntries, holders])
          · simp [toEntries, holders] at heq
          · simp [toEntries, holders] at heq
  | cons wish wishes ih =>
      cases before with
      | nil => simp [toEntries, holders] at heq
      | cons entry before => exact ih before (List.cons.inj heq).2

/-- **Every draft has one of four verdicts.** -/
theorem ofEntries_cases (entries : List Entry) :
    (∃ list : WishList, list.toEntries = entries ∧ ofEntries entries = .ok list) ∨
      .terminator ∉ entries ∧ ofEntries entries = .error .noTerminator ∨
      EndsEarly entries ∧ ofEntries entries = .error .afterTerminator ∨
      .terminator ∈ entries ∧ ¬ EndsEarly entries ∧ CapturesEarly entries ∧
        ofEntries entries = .error .captureNotLast := by
  by_cases hmem : .terminator ∈ entries
  · obtain ⟨body, after, rfl, hbody⟩ := List.eq_append_cons_of_mem hmem
    by_cases hafter : after = []
    · subst hafter
      have hchecked := ofEntries_of_marked hbody
      cases hlist : ofBody? body with
      | some list =>
          rw [hlist] at hchecked
          exact .inl ⟨list, by rw [ofBody?_eq_some_iff.1 hlist, toEntries], hchecked⟩
      | none =>
          rw [hlist] at hchecked
          obtain ⟨before, table, next, rest, rfl⟩ := exists_of_ofBody?_eq_none hbody hlist
          refine .inr (.inr (.inr ⟨hmem, ?_, ?_, hchecked⟩))
          · intro hearly
            rw [ofEntries_of_endsEarly hearly] at hchecked
            cases hchecked
          · refine ⟨before, table, next, rest ++ [.terminator], by simp, ?_⟩
            rintro rfl
            exact hbody (by simp)
    · have hearly : EndsEarly (body ++ .terminator :: after) := ⟨body, after, rfl, hbody, hafter⟩
      exact .inr (.inr (.inl ⟨hearly, ofEntries_of_endsEarly hearly⟩))
  · exact .inr (.inl ⟨hmem, ofEntries_of_not_mem hmem⟩)

theorem ofEntries_eq_ok_iff : ofEntries entries = .ok list ↔ list.toEntries = entries := by
  constructor
  · intro h
    rcases ofEntries_cases entries with ⟨list', hlist, hok⟩ | ⟨-, hfault⟩ | ⟨-, hfault⟩ |
      ⟨-, -, -, hfault⟩
    · obtain rfl := Except.ok.inj (hok.symm.trans h)
      exact hlist
    · cases hfault.symm.trans h
    · cases hfault.symm.trans h
    · cases hfault.symm.trans h
  · rintro rfl
    exact ofEntries_toEntries list

theorem ofEntries_eq_noTerminator_iff :
    ofEntries entries = .error .noTerminator ↔ .terminator ∉ entries := by
  rcases ofEntries_cases entries with ⟨list, rfl, h⟩ | ⟨hmem, h⟩ | ⟨⟨before, after, rfl, -⟩, h⟩ |
    ⟨hmem, -, -, h⟩
  · refine iff_of_false (by simp [h]) (not_not_intro ?_)
    exact List.mem_append_right _ List.mem_cons_self
  · simp [h, hmem]
  · simp [h]
  · simp [h, hmem]

theorem ofEntries_eq_afterTerminator_iff :
    ofEntries entries = .error .afterTerminator ↔ EndsEarly entries := by
  refine ⟨fun h => ?_, ofEntries_of_endsEarly⟩
  rcases ofEntries_cases entries with ⟨_, -, hok⟩ | ⟨-, hfault⟩ | ⟨hearly, -⟩ | ⟨-, -, -, hfault⟩
  · cases hok.symm.trans h
  · cases hfault.symm.trans h
  · exact hearly
  · cases hfault.symm.trans h

theorem ofEntries_eq_captureNotLast_iff :
    ofEntries entries = .error .captureNotLast ↔
      .terminator ∈ entries ∧ ¬ EndsEarly entries ∧ CapturesEarly entries := by
  rcases ofEntries_cases entries with ⟨list, rfl, h⟩ | ⟨hmem, h⟩ | ⟨hearly, h⟩ |
    ⟨hmem, hearly, hcaptures, h⟩
  · simp [h, not_capturesEarly_toEntries]
  · simp [h, hmem]
  · simp [h, hearly]
  · simp [h, hmem, hearly, hcaptures]

/-- Where the marker is as it should be, a draft is complete unless it captures early. -/
theorem capturesEarly_iff (hmem : .terminator ∈ entries) (hearly : ¬ EndsEarly entries) :
    CapturesEarly entries ↔ ¬ IsComplete entries := by
  rcases ofEntries_cases entries with ⟨list, rfl, -⟩ | ⟨habsent, -⟩ | ⟨hearly', -⟩ |
    ⟨-, -, hcaptures, -⟩
  · have hcomplete := isComplete_iff.2 ⟨list, rfl⟩
    simp [hcomplete, not_capturesEarly_toEntries]
  · exact absurd hmem habsent
  · exact absurd hearly' hearly
  · refine iff_of_true hcaptures fun hcomplete => ?_
    obtain ⟨list, rfl⟩ := isComplete_iff.1 hcomplete
    exact not_capturesEarly_toEntries list hcaptures

theorem fault?_eq_some_iff {e : DraftError} :
    fault? entries = some e.message ↔ ofEntries entries = .error e := by
  have hinj : Function.Injective DraftError.message := by
    intro e e' h
    revert h
    cases e <;> cases e' <;> decide
  unfold fault?
  cases ofEntries entries with
  | ok list => simp
  | error e' => simp [hinj.eq_iff]

theorem countP_isCapture (wishes : List Wish) (captures : List Table) :
    (wishes.map Entry.named ++ captures.map Entry.capture ++ [Entry.terminator]).countP isCapture =
      captures.length := by
  have hnamed : (wishes.map Entry.named).countP isCapture = 0 :=
    List.countP_eq_zero.2 (by simp [isCapture])
  have hcaptures : (captures.map Entry.capture).countP isCapture = captures.length := by
    rw [List.countP_eq_length.2 (by simp [isCapture]), List.length_map]
  have hlast : [Entry.terminator].countP isCapture = 0 := rfl
  rw [List.countP_append, List.countP_append, hnamed, hcaptures, hlast, Nat.zero_add, Nat.add_zero]

/-- Two captures are more than a list may have. -/
theorem not_isComplete_of_captures {table table' : Table}
    (h : List.Sublist [.capture table, .capture table'] entries) : ¬ IsComplete entries := by
  rintro ⟨wishes, captures, hlen, rfl⟩
  have htwo : 2 ≤ _ := List.Sublist.countP_le h (p := isCapture)
  rw [countP_isCapture] at htwo
  omega

/-- **Exactly the complete drafts pass**, which are those that adding entries one at a time makes,
and they are kept as they were stated.  Of the others, each has the first fault in this order: there
is no marker, entries follow the first marker, something else than the marker follows a capture. -/
theorem ofEntries_exactly (entries : List Entry) :
    (∀ list, ofEntries entries = .ok list ↔ list.toEntries = entries) ∧
      ((∃ list, ofEntries entries = .ok list) ↔ IsComplete entries) ∧
      (IsComplete entries ↔ ∃ calls, (take calls).1.toEntries = entries) ∧
      (fault? entries = some "attribute wish list has no end marker" ↔ .terminator ∉ entries) ∧
      (fault? entries = some "attribute wish list has entries after the end marker" ↔
        EndsEarly entries) ∧
      (fault? entries = some "hash capture is not followed by the end marker" ↔
        ¬ IsComplete entries ∧ .terminator ∈ entries ∧ ¬ EndsEarly entries) ∧
      (.terminator ∈ entries → ¬ EndsEarly entries →
        (CapturesEarly entries ↔ ¬ IsComplete entries) ∧
          ∀ table table', List.Sublist [.capture table, .capture table'] entries →
            fault? entries = some "hash capture is not followed by the end marker") := by
  have hcapture : fault? entries = some "hash capture is not followed by the end marker" ↔
      ¬ IsComplete entries ∧ .terminator ∈ entries ∧ ¬ EndsEarly entries := by
    refine (fault?_eq_some_iff (e := .captureNotLast)).trans ?_
    rw [ofEntries_eq_captureNotLast_iff]
    constructor
    · rintro ⟨hmem, hearly, hcaptures⟩
      exact ⟨(capturesEarly_iff hmem hearly).1 hcaptures, hmem, hearly⟩
    · rintro ⟨hcomplete, hmem, hearly⟩
      exact ⟨hmem, hearly, (capturesEarly_iff hmem hearly).2 hcomplete⟩
  refine ⟨fun list => ofEntries_eq_ok_iff, ?_, ?_, ?_, ?_, hcapture, ?_⟩
  · simp only [ofEntries_eq_ok_iff, isComplete_iff]
  · rw [isComplete_iff]
    constructor
    · rintro ⟨list, rfl⟩
      exact ⟨list.toEntries, by rw [take_toEntries]⟩
    · rintro ⟨calls, rfl⟩
      exact ⟨_, rfl⟩
  · exact (fault?_eq_some_iff (e := .noTerminator)).trans ofEntries_eq_noTerminator_iff
  · exact (fault?_eq_some_iff (e := .afterTerminator)).trans ofEntries_eq_afterTerminator_iff
  · intro hmem hearly
    refine ⟨capturesEarly_iff hmem hearly, fun table table' htwo => ?_⟩
    exact hcapture.2 ⟨not_isComplete_of_captures htwo, hmem, hearly⟩

example : ofEntries [.capture .empty, .capture .empty, .terminator] = .error .captureNotLast := rfl

end WishList

end AttributeWire
