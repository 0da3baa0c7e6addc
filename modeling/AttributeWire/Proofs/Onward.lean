/-
**What a scan does with what it finds.**

What a scan looks for next depends only on the wishes that are left.  It searches for that, and then
stops, or receives the attribute that it found and goes on as a scan for the rest.

Main definitions:

* `WishList.wanted?` — what a scan looks for next;
* `Gain`, `ScanResult.passed` — what some lines add to the result of the scan behind them;
* `receive`, `ScanResult.ofSighting` — what a scan does with an attribute that it looked for, and
  with what a search finds.

Main results:

* `scan_of_wanted`, `scan_of_not_wanted` — **a scan does what its search finds**.
-/

import AttributeWire.Proofs.Continuation

set_option relaxedAutoImplicit false
set_option autoImplicit false

namespace AttributeWire

/-! ### What some lines add to a result -/

/-- What some lines add to the result of the scan behind them. -/
structure Gain where
  /-- The wishes that were met, with the values that were stored. -/
  wishes : List Wish
  /-- How many wishes were met, each new capture counting as one. -/
  count : Nat
  /-- What was logged. -/
  log : List LogEntry

namespace Gain

/-- Nothing but what was logged. -/
def logged (log : List LogEntry) : Gain := ⟨[], 0, log⟩

/-- What some lines add, and then others. -/
def append (gain gain' : Gain) : Gain :=
  ⟨gain.wishes ++ gain'.wishes, gain.count + gain'.count, gain.log ++ gain'.log⟩

end Gain

/-- The result with the lines before. -/
def ScanResult.passed (gain : Gain) (r : ScanResult) : ScanResult :=
  ⟨r.outcome.map (gain.count + ·), ⟨gain.wishes ++ r.list.wishes, r.list.capture⟩,
    gain.log ++ r.log, r.stream⟩

@[simp] theorem ScanResult.passed_logged_nil (r : ScanResult) : r.passed (.logged []) = r := by
  obtain ⟨outcome | n, list, log, s⟩ := r <;> simp [passed, Gain.logged, Except.map]

theorem ScanResult.passed_passed (gain gain' : Gain) (r : ScanResult) :
    (r.passed gain').passed gain = r.passed (gain.append gain') := by
  obtain ⟨outcome | n, list, log, s⟩ := r <;>
    simp [passed, Gain.append, Except.map, Nat.add_assoc]

/-- The lines before neither mend an error nor give one. -/
theorem ScanResult.exists_of_passed_ok {gain : Gain} {r : ScanResult} {n : Nat}
    (h : (r.passed gain).outcome = .ok n) : ∃ m, r.outcome = .ok m ∧ gain.count + m = n := by
  obtain ⟨e | m, list, log, s⟩ := r
  · simp [passed, Except.map] at h
  · exact ⟨m, rfl, Except.ok.inj h⟩

/-! ### What a scan looks for next -/

/-- What a scan looks for next; nothing if the rest of the list is left to the next scan. -/
def WishList.wanted? (flags : Flags) : WishList → Option Wanted
  | ⟨wish :: _, _⟩ => some (.named wish.name)
  | ⟨[], some _⟩ => some .any
  | ⟨[], none⟩ => if flags.more then none else some .terminator

/-- The word for the kind of the value that is wanted. -/
def WishList.kindText : WishList → String
  | ⟨wish :: _, _⟩ => wish.value.kindText
  | ⟨[], _⟩ => "string"

/-- What a scan does with an attribute that it looked for. -/
def receive (config : Config) (flags : Flags) (list : WishList) (name : Field) (s : Stream) :
    ScanResult :=
  match readValue config list.kindText name s with
  | ⟨.error e, log, s₁⟩ => ⟨.error e, list, log, s₁⟩
  | ⟨.ok value, log, s₁⟩ =>
      match list with
      | ⟨wish :: wishes, capture⟩ =>
          match wish.value.read? value with
          | none => ⟨.error (.malformedNumber (value.take echoLength)), list, log, s₁⟩
          | some stored =>
              (scan config flags ⟨wishes, capture⟩ s₁).passed ⟨[⟨wish.name, stored⟩], 1, log⟩
      | ⟨[], some table⟩ =>
          match table.get? name.plain with
          | some _ =>
              if flags.extra then ⟨.ok 0, list, log ++ [.duplicate name.plain], s₁⟩
              else (scan config flags list s₁).passed (.logged log)
          | none =>
              (scan config flags ⟨[], some (table.insert name.plain value)⟩ s₁).passed
                ⟨[], 1, log⟩
      | ⟨[], none⟩ => ⟨.ok 0, list, log, s₁⟩

section

variable {config : Config} {flags : Flags} {list list' : WishList} {s s' s₁ : Stream}
  {target : Wanted} {name : Field} {value : Bytes}

/-- What a scan does with what it finds. -/
def ScanResult.ofSighting (config : Config) (flags : Flags) (list : WishList) :
    Attempt Sighting → ScanResult
  | ⟨.error e, log, s⟩ => ⟨.error e, list, log, s⟩
  | ⟨.ok .stopped, log, s⟩ => ⟨.ok 0, list, log, s⟩
  | ⟨.ok (.found name), log, s⟩ => (receive config flags list name s).passed (.logged log)

theorem ScanResult.ofSighting_after (log : List LogEntry) (a : Attempt Sighting) :
    ofSighting config flags list (a.after log) =
      (ofSighting config flags list a).passed (.logged log) := by
  obtain ⟨e | name | _, log', s⟩ := a
  · rfl
  · simp only [Attempt.after, ofSighting, passed_passed]
    rfl
  · rfl

theorem scan_nil_none (config : Config) (flags : Flags) (s : Stream) :
    scan config flags ⟨[], none⟩ s = finish config flags none ⟨[], 0, .complete, [], s⟩ := rfl

theorem scan_nil_some (config : Config) (flags : Flags) (table : Table) (s : Stream) :
    scan config flags ⟨[], some table⟩ s =
      ⟨(gather config flags table s).outcome.map fun _ => (gather config flags table s).count,
        ⟨[], some (gather config flags table s).table⟩, (gather config flags table s).log,
        (gather config flags table s).stream⟩ := by
  simp [scan, satisfy, finish]

theorem scan_capture_of_gather_after {table table' : Table} {n : Nat} {log : List LogEntry}
    (h : gather config flags table s = (gather config flags table' s').after n log) :
    scan config flags ⟨[], some table⟩ s =
      (scan config flags ⟨[], some table'⟩ s').passed ⟨[], n, log⟩ := by
  rw [scan_nil_some, scan_nil_some, h]
  simp only [Gathered.after, ScanResult.passed]
  cases (gather config flags table' s').outcome with
  | error e => rfl
  | ok u => simp [Except.map, Nat.add_comm]

/-- Behind a wish that was met, a scan goes on with the others. -/
theorem scan_of_satisfy_after {wish met : Wish} {wishes : List Wish} {log : List LogEntry}
    (capture : Option Table)
    (h : satisfy config flags (wish :: wishes) s = (satisfy config flags wishes s').after met log) :
    scan config flags ⟨wish :: wishes, capture⟩ s =
      (scan config flags ⟨wishes, capture⟩ s').passed ⟨[met], 1, log⟩ := by
  have hafter : (satisfy config flags wishes s').after met log =
      (satisfy config flags wishes s').afterAll [met] log := by
    simp [Satisfied.after, Satisfied.afterAll]
  have hbehind : ∀ r : ScanResult, r.behind [met] log = r.passed ⟨[met], 1, log⟩ := fun _ => rfl
  simp only [scan, h, hafter, ← hbehind]
  cases hprogress : (satisfy config flags wishes s').progress with
  | failed e => simp [Satisfied.afterAll, ScanResult.behind, hprogress, Except.map]
  | stopped => simp [Satisfied.afterAll, ScanResult.behind, hprogress, Except.map, Nat.add_comm]
  | complete =>
      rw [← finish_afterAll]
      simp [Satisfied.afterAll, hprogress]

theorem accepts_of_found {log : List LogEntry}
    (h : seek config flags target s = ⟨.ok (.found name), log, s₁⟩) :
    target.Accepts name.plain := by
  have hfound : (seek config flags target s).outcome = .ok (.found name) := by rw [h]
  clear h
  fun_induction seek config flags target s with
  | case1 => simp at hfound
  | case2 => simp at hfound
  | case3 s found log s₁ hread hterm haccepts =>
      obtain rfl := Sighting.found.inj (Except.ok.inj hfound)
      exact haccepts
  | case4 => simp at hfound
  | case5 s found log s₁ hread hterm hrefused hextra hend ih => exact ih hfound
  | case6 => simp at hfound
  | case7 s found log s₁ hread hterm hrefused hextra hend whole s₂ hskip ih => exact ih hfound

theorem receive_of_wish (wish : Wish) (wishes : List Wish) (capture : Option Table)
    {log : List LogEntry}
    (hseek : seek config flags (.named wish.name) s = ⟨.ok (.found name), log, s₁⟩) :
    scan config flags ⟨wish :: wishes, capture⟩ s =
      (receive config flags ⟨wish :: wishes, capture⟩ name s₁).passed (.logged log) := by
  simp only [receive, WishList.kindText]
  rcases hvalue : readValue config wish.value.kindText name s₁ with ⟨e | value, log', s₂⟩
  · simp [scan, satisfy, hseek, hvalue, ScanResult.passed, Gain.logged, Except.map]
  · cases hstored : wish.value.read? value with
    | none =>
        simp [scan, satisfy, hseek, hvalue, hstored, ScanResult.passed, Gain.logged, Except.map]
    | some stored =>
        have hafter : satisfy config flags (wish :: wishes) s =
            (satisfy config flags wishes s₂).after ⟨wish.name, stored⟩ (log ++ log') := by
          simp only [satisfy, hseek, hvalue, hstored]
        rw [scan_of_satisfy_after capture hafter]
        simp only [hstored, ScanResult.passed_passed]
        simp [Gain.append, Gain.logged]

theorem receive_of_capture (table : Table) {log : List LogEntry}
    (hseek : seek config flags .any s = ⟨.ok (.found name), log, s₁⟩) :
    scan config flags ⟨[], some table⟩ s =
      (receive config flags ⟨[], some table⟩ name s₁).passed (.logged log) := by
  simp only [receive, WishList.kindText]
  rcases hvalue : readValue config "string" name s₁ with ⟨e | value, log', s₂⟩
  · simp [scan_nil_some, gather_eq, hseek, hvalue, ScanResult.passed, Gain.logged, Except.map]
  · have hgather := gather_eq config flags table s
    rw [hseek] at hgather
    simp only [hvalue] at hgather
    cases hbound : table.get? name.plain with
    | none =>
        rw [hbound] at hgather
        rw [scan_capture_of_gather_after hgather]
        simp [ScanResult.passed_passed, Gain.append, Gain.logged]
    | some old =>
        rw [hbound] at hgather
        dsimp only at hgather ⊢
        split
        · rename_i hextra
          simp [scan_nil_some, hgather, hextra, ScanResult.passed, Gain.logged, Except.map]
        · rename_i hextra
          rw [if_neg hextra] at hgather
          rw [scan_capture_of_gather_after hgather, ScanResult.passed_passed]
          rfl

/-- **A scan does what its search finds.** -/
theorem scan_of_wanted (h : list.wanted? flags = some target) :
    scan config flags list s =
      .ofSighting config flags list (seek config flags target s) := by
  obtain ⟨_ | ⟨wish, wishes⟩, capture⟩ := list
  · cases capture with
    | none =>
        simp only [WishList.wanted?] at h
        split at h
        · simp at h
        · rename_i hmore
          obtain rfl := Option.some.inj h
          simp only [scan_nil_none, finish, hmore]
          rcases hseek : seek config flags .terminator s with ⟨e | found | _, log, s₁⟩
          · rfl
          · exact absurd (accepts_of_found hseek) (Wanted.not_accepts_terminator _)
          · rfl
    | some table =>
        obtain rfl := Option.some.inj h
        rcases hseek : seek config flags .any s with ⟨e | found | _, log, s₁⟩
        · rw [scan_nil_some, gather_eq, hseek]
          rfl
        · exact receive_of_capture table hseek
        · rw [scan_nil_some, gather_eq, hseek]
          rfl
  · obtain rfl := Option.some.inj h
    rcases hseek : seek config flags (.named wish.name) s with ⟨e | found | _, log, s₁⟩
    · simp only [scan, satisfy, hseek]
      rfl
    · exact receive_of_wish wish wishes capture hseek
    · simp only [scan, satisfy, hseek]
      rfl

theorem scan_of_not_wanted (h : list.wanted? flags = none) :
    scan config flags list s = ⟨.ok 0, list, [], s⟩ := by
  obtain ⟨_ | ⟨wish, wishes⟩, _ | table⟩ := list
  · simp only [WishList.wanted?] at h
    split at h
    · rename_i hmore
      simp [scan_nil_none, finish, hmore]
    · simp at h
  · simp [WishList.wanted?] at h
  · simp [WishList.wanted?] at h
  · simp [WishList.wanted?] at h

end

end AttributeWire
