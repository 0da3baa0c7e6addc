/-
**Strict matching is prefix matching.**

When an unrequested attribute stops the scan, the wishes are met by the first attributes of the
list, one by one, as long as the names agree.  The first attribute that differs is named in a
warning, and the scan stops right behind its name, in the middle of a line.  A capture stops at the
first name that is bound already; by then the value has been read, so the next scan begins with the
next line.

Main definitions:

* `commonPrefix` — how many names two lists have in common at the front;
* `stopWarning`, `stopText` — the warning where a strict search stops, and what it leaves;
* `StrictScan` — what scanning a written list gives.

Main results:

* `isGreatest_commonPrefix` — **it is the longest common prefix**;
* `seek_strict`, `gather_strict` — **where a strict search and a strict capture stop**;
* `scan_strict` — **a strict scan takes the common prefix**.
-/

import AttributeWire.Proofs.Listing
import Mathlib.Order.Bounds.Defs

set_option relaxedAutoImplicit false
set_option autoImplicit false

namespace AttributeWire

open LogEntry

/-! ### Common prefixes -/

/-- How many names two lists have in common at the front. -/
def commonPrefix : List Bytes → List Bytes → Nat
  | name :: names, other :: others => if name = other then commonPrefix names others + 1 else 0
  | _, _ => 0

section

variable {name other : Bytes} {names others : List Bytes}

theorem commonPrefix_cons_self (name : Bytes) (names others : List Bytes) :
    commonPrefix (name :: names) (name :: others) = commonPrefix names others + 1 := by
  rw [commonPrefix, if_pos rfl]

theorem commonPrefix_cons_of_ne (h : name ≠ other) (names others : List Bytes) :
    commonPrefix (name :: names) (other :: others) = 0 := by
  rw [commonPrefix, if_neg h]

/-- **It is the longest common prefix**. -/
theorem isGreatest_commonPrefix (names others : List Bytes) :
    IsGreatest {k | k ≤ names.length ∧ k ≤ others.length ∧ names.take k = others.take k}
      (commonPrefix names others) := by
  fun_induction commonPrefix names others with
  | case1 other names others ih =>
      obtain ⟨⟨hle, hle', htake⟩, hgreatest⟩ := ih
      refine ⟨⟨Nat.succ_le_succ hle, Nat.succ_le_succ hle', ?_⟩, ?_⟩
      · rw [List.take_succ_cons, List.take_succ_cons, htake]
      · rintro k ⟨hk, hk', hprefix⟩
        cases k with
        | zero => exact Nat.zero_le _
        | succ k =>
            rw [List.take_succ_cons, List.take_succ_cons] at hprefix
            exact Nat.succ_le_succ (hgreatest
              ⟨Nat.le_of_succ_le_succ hk, Nat.le_of_succ_le_succ hk', (List.cons.inj hprefix).2⟩)
  | case2 name names other others hne =>
      refine ⟨⟨Nat.zero_le _, Nat.zero_le _, rfl⟩, ?_⟩
      rintro k ⟨hk, hk', hprefix⟩
      cases k with
      | zero => exact Nat.le_refl 0
      | succ k =>
          rw [List.take_succ_cons, List.take_succ_cons] at hprefix
          exact absurd (List.cons.inj hprefix).1 hne
  | case3 names others hnil =>
      refine ⟨⟨Nat.zero_le _, Nat.zero_le _, rfl⟩, ?_⟩
      rintro k ⟨hk, hk', -⟩
      cases names with
      | nil => exact hk
      | cons name names =>
          cases others with
          | nil => exact hk'
          | cons other others => exact absurd rfl (hnil name names other others rfl)

theorem commonPrefix_le_left (names others : List Bytes) :
    commonPrefix names others ≤ names.length :=
  (isGreatest_commonPrefix names others).1.1

theorem commonPrefix_le_right (names others : List Bytes) :
    commonPrefix names others ≤ others.length :=
  (isGreatest_commonPrefix names others).1.2.1

/-- Behind the common prefix the names differ. -/
theorem ne_of_commonPrefix {j : Nat} (hj : commonPrefix names others = j)
    (hname : names[j]? = some name) (hother : others[j]? = some other) : name ≠ other := by
  subst hj
  fun_induction commonPrefix names others with
  | case1 other names others ih => exact ih hname hother
  | case2 first names second others hne =>
      obtain rfl : first = name := by simpa using hname
      obtain rfl : second = other := by simpa using hother
      exact hne
  | case3 names others hnil =>
      cases names with
      | nil => simp at hname
      | cons first names =>
          cases others with
          | nil => simp at hother
          | cons second others => exact absurd rfl (hnil first names second others rfl)

/-! ### The wishes that are met -/

/-- **The attributes of the common prefix meet the first wishes.** -/
theorem meet_commonPrefix {wishes : List Wish} {attributes : List (Bytes × Bytes)} {j : Nat}
    (hj : commonPrefix (wishes.map Wish.name) (attributes.map Prod.fst) = j)
    (hconv : Convertible wishes attributes (List.range j)) (extra : Bool) :
    Wish.Meet extra (wishes.take j) (attributes.take j) (textsAt attributes (List.range j)) := by
  induction wishes generalizing attributes j with
  | nil =>
      subst hj
      exact .nil
  | cons wish wishes ih =>
      cases attributes with
      | nil =>
          subst hj
          exact .nil
      | cons pair attributes =>
          obtain ⟨name, value⟩ := pair
          rw [List.map_cons, List.map_cons] at hj
          by_cases hname : wish.name = name
          · subst hname
            rw [commonPrefix_cons_self] at hj
            subst hj
            rw [List.range_succ_eq_map] at hconv ⊢
            rw [textsAt_zero_cons_map_succ, List.take_succ_cons, List.take_succ_cons]
            exact .met ⟨rfl, hconv 0 0 wish _ rfl rfl rfl⟩ (ih rfl hconv.tail)
          · rw [commonPrefix_cons_of_ne hname] at hj
            subst hj
            exact .nil

end

/-! ### Where a strict search stops -/

/-- The warning of a search that may skip nothing, before the rest of a list it does not want. -/
def stopWarning (flags : Flags) (target : Wanted) : List (Bytes × Bytes) → List LogEntry
  | [] => target.missingWarning flags
  | pair :: _ => [.spurious pair.1]

/-- What such a search leaves of the rest of the list: nothing, or all that stands behind the colon
after the next name. -/
def stopText : List (Bytes × Bytes) → Bytes
  | [] => []
  | pair :: later => Base64.encode pair.2 ++ Bytes.newline :: listText later

section

variable {config : Config} {flags : Flags} {target : Wanted} {attributes : List (Bytes × Bytes)}
  {following : Bytes} {s : Stream}

/-- **A strict search stops** at the end of the list, or behind the next name. -/
theorem seek_strict (hextra : flags.extra = true) (hs : s.Gapless)
    (hfits : config.FitsAll attributes) (hahead : s.ahead = listText attributes ++ following)
    (hrefused : ∀ pair ∈ attributes.head?, ¬ target.Accepts pair.1) :
    ∃ log consumed s', seek config flags target s = ⟨.ok .stopped, log, s'⟩ ∧
      warnings log = stopWarning flags target attributes ∧ s.Advances consumed s' ∧
      s'.ahead = stopText attributes ++ following := by
  cases attributes with
  | nil =>
      obtain ⟨s', hseek, hadv⟩ := seek_of_terminator config flags target hs hahead
      exact ⟨_, _, s', hseek, by simp [stopWarning], hadv, hadv.ahead_eq hahead⟩
  | cons pair later =>
      obtain ⟨name, value⟩ := pair
      obtain ⟨⟨hname, -⟩, -⟩ := Config.fitsAll_cons.1 hfits
      rw [listText_cons, List.append_assoc] at hahead
      obtain ⟨s', hseek, hadv, hrest⟩ :=
        seek_of_spurious target hextra hs hname hahead (hrefused (name, value) rfl)
      refine ⟨_, _, s', hseek, rfl, hadv, ?_⟩
      rw [hrest, stopText, List.append_assoc, List.cons_append]

end

/-- **A strict capture stops** behind the first attribute whose name is not new. -/
theorem gather_strict {config : Config} {flags : Flags} {table : Table}
    {fresh later : List (Bytes × Bytes)} {pair : Bytes × Bytes} {following : Bytes} {s : Stream}
    (hextra : flags.extra = true) (hs : s.Gapless)
    (hfits : config.FitsAll (fresh ++ pair :: later))
    (hahead : s.ahead = listText (fresh ++ pair :: later) ++ following)
    (hfresh : table.Fresh fresh)
    (hbound : (table.get? pair.1).isSome ∨ pair.1 ∈ fresh.map Prod.fst) :
    ∃ log consumed s', gather config flags table s =
        ⟨table.extend fresh, fresh.length, .ok (), log, s'⟩ ∧
      warnings log = [.duplicate pair.1] ∧ s.Advances consumed s' ∧
      s'.ahead = listText later ++ following := by
  obtain ⟨name, value⟩ := pair
  have hfits₀ : config.FitsAll fresh := fun pair hmem => hfits pair (List.mem_append_left _ hmem)
  obtain ⟨hname, hvalue⟩ := hfits (name, value) (List.mem_append_right _ List.mem_cons_self)
  rw [listText_append, listText_cons, List.append_assoc, List.append_assoc] at hahead
  obtain ⟨log, count, s₁, hrun, hcount, hwarn, hadv₁⟩ :=
    gather_append flags table s hs hfits₀ hahead fun _ => hfresh
  obtain ⟨s', hstep, hadv₂⟩ :=
    gather_of_ahead flags (table.extend fresh) hadv₁.gapless hname hvalue (hadv₁.ahead_eq hahead)
  obtain ⟨old, hold⟩ := Option.isSome_iff_exists.1 (Table.isSome_get?_extend_iff.2 hbound)
  rw [hold] at hstep
  simp only [hextra, if_true] at hstep
  rw [Table.size_extend_of_fresh hfresh] at hcount
  obtain rfl : count = fresh.length := Nat.add_left_cancel hcount
  refine ⟨log ++ [.wanted .any, .nameRead name, .valueRead value, .duplicate name], _, s', ?_, ?_,
    hadv₁.trans hadv₂, hadv₂.ahead_eq (hadv₁.ahead_eq hahead)⟩
  · rw [hrun, hstep, Gathered.after, Nat.zero_add]
  · rw [warnings_append, hwarn]
    rfl

/-! ### Scanning -/

/-- What scanning a written list gives when the first `j` attributes are taken for the first `j`
wishes and the next one may not be skipped. -/
structure StrictScan (flags : Flags) (wishes : List Wish) (capture : Option Table)
    (attributes : List (Bytes × Bytes)) (following : Bytes) (j : Nat) (r : ScanResult) : Prop where
  /-- The values that are taken are stored. -/
  stores : Stores wishes attributes (List.range j) r.list.wishes
  /-- If a wish is left open, the list ends there or the next attribute is in the way. -/
  short : ∀ wish, wishes[j]? = some wish →
    r.Ends j capture (stopWarning flags (.named wish.name) (attributes.drop j))
      (stopText (attributes.drop j) ++ following)
  /-- If all are met and nothing is to be captured, the rest may be left. -/
  left : j = wishes.length → capture = none → flags.more = true →
    r.Ends j none [] (listText (attributes.drop j) ++ following)
  /-- If it may not, the list ends there or the next attribute is in the way. -/
  ended : j = wishes.length → capture = none → flags.more = false →
    r.Ends j none (stopWarning flags .terminator (attributes.drop j))
      (stopText (attributes.drop j) ++ following)
  /-- A capture takes all that is left if the names are new. -/
  captured : ∀ table, j = wishes.length → capture = some table →
    table.Fresh (attributes.drop j) →
      ∃ table' : Table,
        (∀ name, table'.get? name =
          (table.get? name).or (Table.lookup name (attributes.drop j))) ∧
        r.Ends attributes.length (some table') [] following
  /-- Otherwise it takes what stands before the first name that is not new, and stops behind that
  attribute. -/
  duplicate : ∀ table, j = wishes.length → capture = some table →
    ¬ table.Fresh (attributes.drop j) →
      ∃ fresh pair later, ∃ table' : Table, attributes.drop j = fresh ++ pair :: later ∧
        table.Fresh fresh ∧ ((table.get? pair.1).isSome ∨ pair.1 ∈ fresh.map Prod.fst) ∧
        (∀ name, table'.get? name = (table.get? name).or (Table.lookup name fresh)) ∧
        r.Ends (j + fresh.length) (some table') [.duplicate pair.1] (listText later ++ following)
  /-- The stream is still steady. -/
  steady : r.stream.Steady

section

variable {config : Config} {flags : Flags} {wishes : List Wish} {capture : Option Table}
  {attributes : List (Bytes × Bytes)} {following : Bytes} {s : Stream} {j : Nat}

/-- A wish that is left open is compared with the next attribute alone. -/
theorem strictScan_of_lt (hextra : flags.extra = true) (hs : s.Steady)
    (hwire : s.unread = listText attributes ++ following) (hfits : config.FitsAll attributes)
    (hj : commonPrefix (wishes.map Wish.name) (attributes.map Prod.fst) = j)
    (hconv : Convertible wishes attributes (List.range j)) (hlt : j < wishes.length) :
    StrictScan flags wishes capture attributes following j
      (scan config flags ⟨wishes, capture⟩ s) := by
  obtain ⟨log, s₁, hrun, hwarn, hadv₁, hahead₁, hfits₁⟩ :=
    satisfy_of_meet (meet_commonPrefix hj hconv flags.extra) hs.gapless (hs.ahead.trans hwire) hfits
  have hlen : (textsAt attributes (List.range j)).length = j := by
    rw [length_textsAt, List.length_range]
  have hwish : wishes[j]? = some wishes[j] := List.getElem?_eq_getElem hlt
  have hdrop : wishes.drop j = wishes[j] :: wishes.drop (j + 1) := List.drop_eq_getElem_cons hlt
  have hrefused : ∀ pair ∈ (attributes.drop j).head?,
      ¬ (Wanted.named wishes[j].name).Accepts pair.1 := by
    intro pair hpair
    rw [List.head?_drop, Option.mem_def] at hpair
    have hname : (wishes.map Wish.name)[j]? = some wishes[j].name := by simp [hwish]
    have hother : (attributes.map Prod.fst)[j]? = some pair.1 := by simp [hpair]
    exact ne_of_commonPrefix hj hname hother
  obtain ⟨log', consumed, s₂, hseek, hwarn', hadv₂, hahead₂⟩ :=
    seek_strict hextra hadv₁.gapless hfits₁ hahead₁ hrefused
  have hsteady : s₂.Steady := (hadv₁.trans hadv₂).steady hs
  have hstop : satisfy config flags (wishes.drop j) s₁ =
      ⟨wishes.drop j, 0, .stopped, log', s₂⟩ := by
    rw [hdrop, satisfy, hseek]
  rw [scan_of_stopped capture hlen (Nat.le_of_lt hlt) hrun hstop]
  have hne : ¬ j = wishes.length := Nat.ne_of_lt hlt
  refine ⟨stores_receiveAll hconv, fun wish hopen => ?_, fun h => absurd h hne,
    fun h => absurd h hne, fun _ h => absurd h hne, fun _ h => absurd h hne, hsteady⟩
  obtain rfl : wishes[j] = wish := Option.some.inj (hwish.symm.trans hopen)
  refine ⟨rfl, rfl, ?_, hsteady.ahead.symm.trans hahead₂⟩
  rw [warnings_append, hwarn, hwarn', List.nil_append]

/-- Once all wishes are met without a capture, the rest of the list is left, or stops the scan. -/
theorem strictScan_of_eq (hextra : flags.extra = true) (hs : s.Steady)
    (hwire : s.unread = listText attributes ++ following) (hfits : config.FitsAll attributes)
    (hj : commonPrefix (wishes.map Wish.name) (attributes.map Prod.fst) = j)
    (hconv : Convertible wishes attributes (List.range j)) (hall : j = wishes.length) :
    StrictScan flags wishes none attributes following j
      (scan config flags ⟨wishes, none⟩ s) := by
  obtain ⟨log, s₁, hrun, hwarn, hadv₁, hahead₁, hfits₁⟩ :=
    satisfy_of_meet (meet_commonPrefix hj hconv flags.extra) hs.gapless (hs.ahead.trans hwire) hfits
  have hstores := stores_receiveAll hconv
  have hopen : wishes[j]? = none := List.getElem?_eq_none (Nat.le_of_eq hall.symm)
  rw [scan_of_complete none hall hrun]
  by_cases hmore : flags.more = true
  · have hsteady : s₁.Steady := hadv₁.steady hs
    rw [finish_of_more hmore]
    refine ⟨hstores, by simp [hopen], fun _ _ _ => ?_, by simp [hmore], by simp, by simp, hsteady⟩
    exact ⟨by rw [hall], rfl, hwarn, hsteady.ahead.symm.trans hahead₁⟩
  · obtain ⟨log', consumed, s₂, hseek, hwarn', hadv₂, hahead₂⟩ :=
      seek_strict hextra hadv₁.gapless hfits₁ hahead₁
        fun pair _ => Wanted.not_accepts_terminator pair.1
    have hsteady : s₂.Steady := (hadv₁.trans hadv₂).steady hs
    rw [finish_of_seek hmore hseek]
    refine ⟨hstores, by simp [hopen], by simp [hmore], fun _ _ _ => ?_, by simp, by simp, hsteady⟩
    refine ⟨by rw [hall], rfl, ?_, hsteady.ahead.symm.trans hahead₂⟩
    rw [warnings_append, hwarn, hwarn', List.nil_append]

/-- Once all wishes are met, a capture takes attributes as long as their names are new. -/
theorem strictScan_capture {table : Table} (hextra : flags.extra = true) (hs : s.Steady)
    (hwire : s.unread = listText attributes ++ following) (hfits : config.FitsAll attributes)
    (hj : commonPrefix (wishes.map Wish.name) (attributes.map Prod.fst) = j)
    (hconv : Convertible wishes attributes (List.range j)) (hall : j = wishes.length) :
    StrictScan flags wishes (some table) attributes following j
      (scan config flags ⟨wishes, some table⟩ s) := by
  obtain ⟨log, s₁, hrun, hwarn, hadv₁, hahead₁, hfits₁⟩ :=
    satisfy_of_meet (meet_commonPrefix hj hconv flags.extra) hs.gapless (hs.ahead.trans hwire) hfits
  have hstores := stores_receiveAll hconv
  have hopen : wishes[j]? = none := List.getElem?_eq_none (Nat.le_of_eq hall.symm)
  rw [scan_of_complete (some table) hall hrun]
  by_cases hfresh : table.Fresh (attributes.drop j)
  · obtain ⟨log', count, s₂, hgather, hcount, hwarn', hadv₂⟩ :=
      gather_listText flags table s₁ hadv₁.gapless hfits₁ hahead₁ fun _ => hfresh
    have hadv := hadv₁.trans hadv₂
    rw [attributeLines_take_append] at hadv
    rw [Table.size_extend_of_fresh hfresh, List.length_drop] at hcount
    rw [finish_of_gather hgather]
    refine ⟨hstores, by simp [hopen], by simp, by simp, fun table' _ htable _ => ?_,
      fun table' _ htable hnot => ?_, hadv.steady hs⟩
    · obtain rfl := Option.some.inj htable
      refine ⟨_, table.get?_extend _, ?_, rfl, ?_, hadv.unread_eq_of_append hwire⟩
      · have hle : j ≤ attributes.length := by
          rw [← hj, ← attributes.length_map Prod.fst]
          exact commonPrefix_le_right _ _
        simp only [Except.ok.injEq]
        omega
      · rw [warnings_append, hwarn, hwarn', List.append_nil]
    · obtain rfl := Option.some.inj htable
      exact absurd hfresh hnot
  · obtain ⟨fresh, pair, later, hrest, hnew, hbound⟩ := Table.exists_duplicate hfresh
    rw [hrest] at hfits₁ hahead₁
    obtain ⟨log', consumed, s₂, hgather, hwarn', hadv₂, hahead₂⟩ :=
      gather_strict hextra hadv₁.gapless hfits₁ hahead₁ hnew hbound
    have hsteady : s₂.Steady := (hadv₁.trans hadv₂).steady hs
    rw [finish_of_gather hgather]
    refine ⟨hstores, by simp [hopen], by simp, by simp, fun table' _ htable h => ?_,
      fun table' _ htable _ => ?_, hsteady⟩
    · obtain rfl := Option.some.inj htable
      exact absurd h hfresh
    · obtain rfl := Option.some.inj htable
      refine ⟨fresh, pair, later, _, hrest, hnew, hbound, table.get?_extend fresh, ?_, rfl, ?_,
        hsteady.ahead.symm.trans hahead₂⟩
      · rw [hall]
      · rw [warnings_append, hwarn, hwarn', List.nil_append]

/-- **A strict scan takes the common prefix** of the names in the list and the names wanted. -/
theorem scan_strict (hextra : flags.extra = true) (hs : s.Steady)
    (hwire : s.unread = listText attributes ++ following) (hfits : config.FitsAll attributes)
    (hconv : Convertible wishes attributes
      (List.range (commonPrefix (wishes.map Wish.name) (attributes.map Prod.fst)))) :
    let wanted := wishes.map Wish.name
    let listed := attributes.map Prod.fst
    let j := commonPrefix wanted listed
    IsGreatest {k | k ≤ wanted.length ∧ k ≤ listed.length ∧ wanted.take k = listed.take k} j ∧
      StrictScan flags wishes capture attributes following j
        (scan config flags ⟨wishes, capture⟩ s) := by
  intro wanted listed j
  refine ⟨isGreatest_commonPrefix wanted listed, ?_⟩
  have hle : j ≤ wishes.length := by
    rw [← wishes.length_map Wish.name]
    exact commonPrefix_le_left _ _
  rcases Nat.lt_or_eq_of_le hle with hlt | hall
  · exact strictScan_of_lt hextra hs hwire hfits rfl hconv hlt
  · cases capture with
    | none => exact strictScan_of_eq hextra hs hwire hfits rfl hconv hall
    | some table => exact strictScan_capture hextra hs hwire hfits rfl hconv hall

/-- One wish is met, and the capture stops behind the second attribute of a name. -/
theorem scan_strict_bytewise :
    let attributes : List (Bytes × Bytes) := [([97], [55]), ([98], [1]), ([98], [2]), ([99], [])]
    let wishes : List Wish := [⟨[97], .ulong 0⟩]
    let r := scan .standard ⟨true, true, false⟩ ⟨wishes, some .empty⟩
      (.bytewise (listText attributes ++ [120]) .closed)
    IsGreatest {k | k ≤ 1 ∧ k ≤ 4 ∧ List.take k [[97]] = (attributes.map Prod.fst).take k} 1 ∧
      StrictScan ⟨true, true, false⟩ wishes (some .empty) attributes [120] 1 r := by
  intro attributes wishes r
  have hconv : Convertible wishes attributes (List.range 1) := by
    rintro (_ | i) place wish pair hwish hplace hpair
    · cases hwish
      cases hplace
      cases hpair
      decide
    · simp at hplace
  exact scan_strict rfl (Stream.steady_bytewise _ _) (Stream.unread_bytewise _ _) (by decide) hconv

end

end AttributeWire
