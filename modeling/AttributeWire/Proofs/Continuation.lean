/-
**A list read by several scans.**

A scan may leave the rest of its list to the next one.  Named wishes that are divided into groups,
each group scanned for with the rest left to the next scan, are met as by a single scan for all of
them: the counts add up, the same values are stored, the logs follow one another, and the same
stream is left.  If a scan of the chain fails or falls short of its group, then the chain ends
there, and so does the single scan.  Nothing is assumed of the stream.

Main definitions:

* `chain` — the scans for several groups of wishes, up to the first that fails or falls short;
* `total` — the counts of a chain together, or the error of the scan that failed;
* `Satisfied.before`, `ScanResult.behind` — wishes that were not reached, and wishes met before.

Main results:

* `satisfy_append_of_complete`, `satisfy_append_of_not_complete` — **meeting wishes one group after
  the other**;
* `scan_chain` — **a chain of scans does what a single one does**.
-/

import AttributeWire.Proofs.Listing

set_option relaxedAutoImplicit false
set_option autoImplicit false

namespace AttributeWire

section

variable {config : Config} {flags : Flags} {s : Stream}

/-! ### Leaving the rest of a list -/

/-- A search does not look at whether the rest of the list is left. -/
theorem seek_withMore (config : Config) (flags : Flags) (more : Bool) (target : Wanted)
    (s : Stream) :
    seek config { flags with more := more } target s = seek config flags target s := by
  have hwarning : target.missingWarning { flags with more := more } =
      target.missingWarning flags := by
    cases target <;> rfl
  fun_induction seek config flags target s with
  | case1 s e log s₁ hread => rw [seek_of_readName_error hread]
  | case2 s log s₁ hread =>
      have hterm : Field.IsTerminator ⟨[], .newline⟩ := rfl
      rw [seek_of_readName hread, if_pos hterm, hwarning]
  | case3 s name log s₁ hread hterm hacc =>
      rw [seek_of_readName hread, if_neg hterm, if_pos hacc]
  | case4 s name log s₁ hread hterm hacc hextra =>
      rw [seek_of_readName hread, if_neg hterm, if_neg hacc, if_pos hextra]
  | case5 s name log s₁ hread hterm hacc hextra hend ih =>
      rw [seek_of_readName hread, if_neg hterm, if_neg hacc, if_neg hextra, if_pos hend, ih]
  | case6 s name log s₁ hread hterm hacc hextra hend fault s₂ hskip =>
      rw [seek_of_readName hread, if_neg hterm, if_neg hacc, if_neg hextra, if_neg hend, hskip]
  | case7 s name log s₁ hread hterm hacc hextra hend whole s₂ hskip ih =>
      rw [seek_of_readName hread, if_neg hterm, if_neg hacc, if_neg hextra, if_neg hend, hskip]
      simp only [ih]

theorem satisfy_withMore (config : Config) (flags : Flags) (more : Bool) (wishes : List Wish)
    (s : Stream) :
    satisfy config { flags with more := more } wishes s = satisfy config flags wishes s := by
  fun_induction satisfy config flags wishes s with
  | case1 => rfl
  | case2 wish wishes s e log s₁ hseek => simp only [satisfy, seek_withMore, hseek]
  | case3 wish wishes s log s₁ hseek => simp only [satisfy, seek_withMore, hseek]
  | case4 wish wishes s name log s₁ hseek e log' s₂ hvalue =>
      simp only [satisfy, seek_withMore, hseek, hvalue]
  | case5 wish wishes s name log s₁ hseek value log' s₂ hvalue hstored =>
      simp only [satisfy, seek_withMore, hseek, hvalue, hstored]
  | case6 wish wishes s name log s₁ hseek value log' s₂ hvalue stored hstored ih =>
      simp only [satisfy, seek_withMore, hseek, hvalue, hstored, ih]

/-! ### Meeting wishes one group after the other -/

/-- The same with wishes behind that were not reached. -/
def Satisfied.before (more : List Wish) (r : Satisfied) : Satisfied :=
  { r with wishes := r.wishes ++ more }

theorem length_wishes_satisfy (config : Config) (flags : Flags) (wishes : List Wish) (s : Stream) :
    (satisfy config flags wishes s).wishes.length = wishes.length := by
  fun_induction satisfy config flags wishes s with
  | case1 => rfl
  | case2 => rfl
  | case3 => rfl
  | case4 => rfl
  | case5 => rfl
  | case6 wish wishes s name log s₁ hseek value log' s₂ hvalue stored hstored ih =>
      simp [Satisfied.after, ih]

/-- If all wishes are met, each counts. -/
theorem count_of_complete {wishes : List Wish}
    (h : (satisfy config flags wishes s).progress = .complete) :
    (satisfy config flags wishes s).count = wishes.length := by
  fun_induction satisfy config flags wishes s with
  | case1 => rfl
  | case2 => simp at h
  | case3 => simp at h
  | case4 => simp at h
  | case5 => simp at h
  | case6 wish wishes s name log s₁ hseek value log' s₂ hvalue stored hstored ih =>
      simp [Satisfied.after, ih h]

/-- If the scan stops before a wish is met, fewer count. -/
theorem count_of_stopped {wishes : List Wish}
    (h : (satisfy config flags wishes s).progress = .stopped) :
    (satisfy config flags wishes s).count < wishes.length := by
  fun_induction satisfy config flags wishes s with
  | case1 => simp at h
  | case2 => simp at h
  | case3 => simp
  | case4 => simp at h
  | case5 => simp at h
  | case6 wish wishes s name log s₁ hseek value log' s₂ hvalue stored hstored ih =>
      simpa [Satisfied.after] using ih h

/-- **Behind wishes that are all met**, the others are met on the stream that is left. -/
theorem satisfy_append_of_complete {wishes : List Wish} (more : List Wish)
    (h : (satisfy config flags wishes s).progress = .complete) :
    let named := satisfy config flags wishes s
    satisfy config flags (wishes ++ more) s =
      (satisfy config flags more named.stream).afterAll named.wishes named.log := by
  intro named
  fun_induction satisfy config flags wishes s with
  | case1 s => rfl
  | case2 => simp at h
  | case3 => simp at h
  | case4 => simp at h
  | case5 => simp at h
  | case6 wish wishes s name log s₁ hseek value log' s₂ hvalue stored hstored ih =>
      simp only [List.cons_append, satisfy, hseek, hvalue, hstored, ih h]
      simp [named, Satisfied.after, Satisfied.afterAll, Nat.add_assoc]

/-- **Behind a wish that is not met** no other is reached. -/
theorem satisfy_append_of_not_complete {wishes : List Wish} (more : List Wish)
    (h : (satisfy config flags wishes s).progress ≠ .complete) :
    satisfy config flags (wishes ++ more) s = (satisfy config flags wishes s).before more := by
  fun_induction satisfy config flags wishes s with
  | case1 => simp at h
  | case2 wish wishes s e log s₁ hseek => simp only [List.cons_append, satisfy, hseek]; rfl
  | case3 wish wishes s log s₁ hseek => simp only [List.cons_append, satisfy, hseek]; rfl
  | case4 wish wishes s name log s₁ hseek e log' s₂ hvalue =>
      simp only [List.cons_append, satisfy, hseek, hvalue]
      rfl
  | case5 wish wishes s name log s₁ hseek value log' s₂ hvalue hstored =>
      simp only [List.cons_append, satisfy, hseek, hvalue, hstored]
      rfl
  | case6 wish wishes s name log s₁ hseek value log' s₂ hvalue stored hstored ih =>
      simp only [List.cons_append, satisfy, hseek, hvalue, hstored, ih h]
      rfl

/-! ### Scanning one group after the other -/

/-- The same after other wishes were met before and something else was logged. -/
def ScanResult.behind (met : List Wish) (log : List LogEntry) (r : ScanResult) : ScanResult :=
  ⟨r.outcome.map (met.length + ·), ⟨met ++ r.list.wishes, r.list.capture⟩, log ++ r.log, r.stream⟩

theorem finish_afterAll (config : Config) (flags : Flags) (capture : Option Table)
    (met : List Wish) (log : List LogEntry) (named : Satisfied) :
    finish config flags capture (named.afterAll met log) =
      (finish config flags capture named).behind met log := by
  cases capture with
  | some table =>
      simp only [finish, ScanResult.behind, Satisfied.afterAll, List.append_assoc]
      cases (gather config flags table named.stream).outcome with
      | error e => rfl
      | ok u => simp [Except.map, Nat.add_assoc, Nat.add_comm, Nat.add_left_comm]
  | none =>
      simp only [finish]
      split
      · simp [ScanResult.behind, Satisfied.afterAll, Except.map, Nat.add_comm]
      · simp only [ScanResult.behind, Satisfied.afterAll, List.append_assoc]
        cases (seek config flags .terminator named.stream).outcome with
        | error e => rfl
        | ok u => simp [Except.map, Nat.add_comm]

/-- **Behind wishes that are all met**, a scan goes on with the others. -/
theorem scan_append_of_complete {wishes : List Wish} (more : List Wish) (capture : Option Table)
    (h : (satisfy config flags wishes s).progress = .complete) :
    let named := satisfy config flags wishes s
    scan config flags ⟨wishes ++ more, capture⟩ s =
      (scan config flags ⟨more, capture⟩ named.stream).behind named.wishes named.log := by
  intro named
  simp only [scan, satisfy_append_of_complete more h]
  cases hrest : (satisfy config flags more named.stream).progress with
  | failed e => simp [named, Satisfied.afterAll, ScanResult.behind, hrest, Except.map]
  | stopped =>
      simp [named, Satisfied.afterAll, ScanResult.behind, hrest, Except.map, Nat.add_comm]
  | complete =>
      rw [← finish_afterAll]
      simp [named, Satisfied.afterAll, hrest]

/-- **Behind a wish that is not met** a scan does nothing more. -/
theorem scan_append_of_not_complete {wishes : List Wish} (more : List Wish) (capture : Option Table)
    (h : (satisfy config flags wishes s).progress ≠ .complete) :
    let r := scan config { flags with more := true } ⟨wishes, none⟩ s
    scan config flags ⟨wishes ++ more, capture⟩ s =
      ⟨r.outcome, ⟨r.list.wishes ++ more, capture⟩, r.log, r.stream⟩ := by
  intro r
  simp only [r, scan, satisfy_withMore, satisfy_append_of_not_complete more h, Satisfied.before]
  cases hprogress : (satisfy config flags wishes s).progress with
  | failed e => rfl
  | stopped => rfl
  | complete => exact absurd hprogress h

/-- A scan that leaves the rest of its list reads no more than its wishes. -/
theorem scan_group_of_complete {group : List Wish}
    (h : (satisfy config flags group s).progress = .complete) :
    let named := satisfy config flags group s
    scan config { flags with more := true } ⟨group, none⟩ s =
      ⟨.ok group.length, ⟨named.wishes, none⟩, named.log, named.stream⟩ := by
  intro named
  simp only [scan, satisfy_withMore, h, finish, if_true, count_of_complete h]
  rfl

/-! ### Chains of scans -/

/-- The scans for several groups of named wishes, each leaving the rest of the list to the next one,
and for a last list of wishes.  They end with the first that fails or falls short of its group. -/
def chain (config : Config) (flags : Flags) : List (List Wish) → WishList → Stream → List ScanResult
  | [], last, s => [scan config flags last s]
  | group :: groups, last, s =>
      let r := scan config { flags with more := true } ⟨group, none⟩ s
      match r.outcome with
      | .error _ => [r]
      | .ok n => if n < group.length then [r] else r :: chain config flags groups last r.stream

/-- The counts of several scans together, or the error of the one that failed. -/
def total : List ScanResult → Except ScanError Nat
  | [] => .ok 0
  | r :: rs =>
      match r.outcome with
      | .error e => .error e
      | .ok n => (total rs).map (n + ·)

theorem total_singleton (r : ScanResult) : total [r] = r.outcome := by
  rw [total]
  cases r.outcome <;> rfl

variable {group : List Wish} (groups : List (List Wish)) (last : WishList)

theorem chain_of_complete (h : (satisfy config flags group s).progress = .complete) :
    let named := satisfy config flags group s
    chain config flags (group :: groups) last s =
      ⟨.ok group.length, ⟨named.wishes, none⟩, named.log, named.stream⟩ ::
        chain config flags groups last named.stream := by
  intro named
  simp only [chain, scan_group_of_complete h, Nat.lt_irrefl, if_false]
  rfl

theorem chain_of_not_complete (h : (satisfy config flags group s).progress ≠ .complete) :
    chain config flags (group :: groups) last s =
      [scan config { flags with more := true } ⟨group, none⟩ s] := by
  cases hprogress : (satisfy config flags group s).progress with
  | failed e => simp only [chain, scan, satisfy_withMore, hprogress]
  | stopped =>
      simp only [chain, scan, satisfy_withMore, hprogress, if_pos (count_of_stopped hprogress)]
  | complete => exact absurd hprogress h

/-- **A chain of scans does what a single one does**: the counts add up, the same values are stored,
the logs follow one another, and the same stream is left.  A scan that fails or falls short of its
group ends both, and then the wishes behind it are as they were. -/
theorem scan_chain (config : Config) (flags : Flags) (groups : List (List Wish)) (last : WishList)
    (s : Stream) :
    let scans := chain config flags groups last s
    let r := scan config flags ⟨groups.flatten ++ last.wishes, last.capture⟩ s
    r.outcome = total scans ∧
      r.list.wishes = scans.flatMap (fun part => part.list.wishes) ++
        ((groups ++ [last.wishes]).drop scans.length).flatten ∧
      r.list.capture = (if scans.length ≤ groups.length then last.capture
        else scans.getLast?.bind fun part => part.list.capture) ∧
      r.log = scans.flatMap ScanResult.log ∧
      scans.getLast?.map ScanResult.stream = some r.stream := by
  induction groups generalizing s with
  | nil => simp [chain, total_singleton]
  | cons group groups ih =>
      simp only [List.flatten_cons, List.append_assoc]
      by_cases hcomplete : (satisfy config flags group s).progress = .complete
      · rw [chain_of_complete groups last hcomplete, scan_append_of_complete _ _ hcomplete]
        obtain ⟨houtcome, hwishes, hcapture, hlog, hstream⟩ :=
          ih (satisfy config flags group s).stream
        obtain ⟨final, hfinal, hleft⟩ := Option.map_eq_some_iff.1 hstream
        rw [hfinal] at hcapture
        refine ⟨?_, ?_, ?_, ?_, ?_⟩
        · simp only [ScanResult.behind, total, houtcome, length_wishes_satisfy]
        · simp [ScanResult.behind, hwishes]
        · simp [ScanResult.behind, hcapture, List.getLast?_cons, hfinal]
        · simp [ScanResult.behind, hlog]
        · simp [ScanResult.behind, List.getLast?_cons, hfinal, hleft]
      · rw [chain_of_not_complete groups last hcomplete,
          scan_append_of_not_complete _ _ hcomplete]
        simp [total_singleton]

end

end AttributeWire
