/-
**Lenient matching is the greedy subsequence match.**

When unrequested attributes are skipped, each wish takes the first attribute of its name after the
attribute that the wish before it took.  This picks the wish names out of the names of the list as a
subsequence, wish by wish, and as many of them as any choice of attributes could.  Everything that
scanning a written list gives is said here in terms of the places of the attributes that are taken.

Main definitions:

* `places`, `after` — the places of the attributes that are taken, and the first place after them;
* `FirstPlaces` — each place is the first one after the places before it that has the wanted name;
* `LenientScan` — what scanning a written list gives.

Main results:

* `firstPlaces_places` — `places` are such places;
* `isGreatest_length_places` — **no more wishes form a subsequence of the list**;
* `lenientScan_places`, `LenientScan.reads_list` — the attributes that a lenient scan takes, and how
  far it reads;
* `scan_lenient` — **a lenient scan takes these attributes**.
-/

import AttributeWire.Proofs.Listing
import Mathlib.Order.Bounds.Defs

set_option relaxedAutoImplicit false
set_option autoImplicit false

namespace AttributeWire

open LogEntry

/-! ### Places -/

/-- The places of the attributes that are taken for names in order, as far as there are such. -/
def places : List Bytes → List (Bytes × Bytes) → List Nat
  | [], _ => []
  | _ :: _, [] => []
  | name :: names, pair :: attributes =>
      if name = pair.1 then 0 :: (places names attributes).map (· + 1)
      else (places (name :: names) attributes).map (· + 1)

/-- The first place after all of some increasing places. -/
def after (taken : List Nat) : Nat :=
  match taken.getLast? with
  | some place => place + 1
  | none => 0

/-- Increasing places such that each is the first after those before it with the name wanted there,
and after the last of them the next name does not occur. -/
structure FirstPlaces (names : List Bytes) (attributes : List (Bytes × Bytes)) (taken : List Nat) :
    Prop where
  /-- Each place is after those before it. -/
  increasing : taken.Pairwise (· < ·)
  /-- Each place has the name wanted there. -/
  found : ∀ i place : Nat, taken[i]? = some place →
    ∃ pair : Bytes × Bytes, attributes[place]? = some pair ∧ names[i]? = some pair.1
  /-- No place before it, but after those before it, has that name. -/
  first : ∀ i place : Nat, taken[i]? = some place → ∀ (q : Nat) (pair : Bytes × Bytes),
    (∀ earlier ∈ taken.take i, earlier < q) → q < place → attributes[q]? = some pair →
      names[i]? ≠ some pair.1
  /-- No place after the last has the next name. -/
  exhausted : ∀ (q : Nat) (pair : Bytes × Bytes), (∀ place ∈ taken, place < q) →
    attributes[q]? = some pair → names[taken.length]? ≠ some pair.1

section

variable {names : List Bytes} {attributes : List (Bytes × Bytes)}

@[simp] theorem places_nil_left (attributes : List (Bytes × Bytes)) :
    places [] attributes = [] := by
  cases attributes <;> rfl

@[simp] theorem places_nil_right (names : List Bytes) : places names [] = [] := by
  cases names <;> rfl

theorem places_cons_self (name value : Bytes) (names : List Bytes)
    (attributes : List (Bytes × Bytes)) :
    places (name :: names) ((name, value) :: attributes) =
      0 :: (places names attributes).map (· + 1) := by
  simp [places]

theorem places_cons_of_ne {name : Bytes} {pair : Bytes × Bytes} (h : name ≠ pair.1)
    (names : List Bytes) (attributes : List (Bytes × Bytes)) :
    places (name :: names) (pair :: attributes) =
      (places (name :: names) attributes).map (· + 1) := by
  simp [places, h]

theorem length_places_le (names : List Bytes) (attributes : List (Bytes × Bytes)) :
    (places names attributes).length ≤ names.length := by
  fun_induction places names attributes with
  | case1 => simp
  | case2 => simp
  | case3 names pair attributes ih => simpa using ih
  | case4 name names pair attributes hne ih => simpa using ih

theorem getElem?_map_succ {taken : List Nat} {i place : Nat}
    (h : (taken.map (· + 1))[i]? = some place) : ∃ before, taken[i]? = some before ∧
      place = before + 1 := by
  rw [List.getElem?_map, Option.map_eq_some_iff] at h
  obtain ⟨before, hbefore, rfl⟩ := h
  exact ⟨before, hbefore, rfl⟩

/-- An attribute that is taken stands in front of those that the other names are taken from. -/
theorem FirstPlaces.cons {taken : List Nat} (h : FirstPlaces names attributes taken)
    (pair : Bytes × Bytes) :
    FirstPlaces (pair.1 :: names) (pair :: attributes) (0 :: taken.map (· + 1)) where
  increasing := by
    refine List.pairwise_cons.2 ⟨by simp, ?_⟩
    rw [List.pairwise_map]
    exact h.increasing.imp fun hlt => Nat.succ_lt_succ hlt
  found i place hplace := by
    cases i with
    | zero =>
        obtain rfl : 0 = place := by simpa using hplace
        exact ⟨pair, rfl, rfl⟩
    | succ i =>
        obtain ⟨before, hbefore, rfl⟩ := getElem?_map_succ hplace
        exact h.found i before hbefore
  first i place hplace q other hearlier hlt hother := by
    cases i with
    | zero =>
        obtain rfl : 0 = place := by simpa using hplace
        simp at hlt
    | succ i =>
        obtain ⟨before, hbefore, rfl⟩ := getElem?_map_succ hplace
        rw [List.take_succ_cons, List.forall_mem_cons, ← List.map_take, List.forall_mem_map]
          at hearlier
        obtain ⟨q, rfl⟩ := Nat.exists_eq_add_of_lt hearlier.1
        refine h.first i before hbefore (0 + q) other ?_ (Nat.lt_of_succ_lt_succ hlt) hother
        exact fun earlier hmem => Nat.lt_of_succ_lt_succ (hearlier.2 earlier hmem)
  exhausted q other hearlier hother := by
    rw [List.forall_mem_cons, List.forall_mem_map] at hearlier
    obtain ⟨q, rfl⟩ := Nat.exists_eq_add_of_lt hearlier.1
    rw [List.length_cons, List.length_map]
    refine h.exhausted (0 + q) other ?_ hother
    exact fun earlier hmem => Nat.lt_of_succ_lt_succ (hearlier.2 earlier hmem)

/-- An attribute that is skipped stands in front of those that the names are taken from. -/
theorem FirstPlaces.skip {taken : List Nat} {name : Bytes} {pair : Bytes × Bytes}
    (h : FirstPlaces (name :: names) attributes taken) (hne : name ≠ pair.1) :
    FirstPlaces (name :: names) (pair :: attributes) (taken.map (· + 1)) where
  increasing := by
    rw [List.pairwise_map]
    exact h.increasing.imp fun hlt => Nat.succ_lt_succ hlt
  found i place hplace := by
    obtain ⟨before, hbefore, rfl⟩ := getElem?_map_succ hplace
    exact h.found i before hbefore
  first i place hplace q other hearlier hlt hother := by
    obtain ⟨before, hbefore, rfl⟩ := getElem?_map_succ hplace
    rw [← List.map_take, List.forall_mem_map] at hearlier
    cases q with
    | zero =>
        -- nothing is before place zero, so this is the first name
        cases i with
        | zero =>
            obtain rfl : pair = other := by simpa using hother
            simpa using hne
        | succ i =>
            cases taken with
            | nil => simp at hbefore
            | cons earliest taken => exact absurd (hearlier earliest (by simp)) (by simp)
    | succ q =>
        refine h.first i before hbefore q other ?_ (Nat.lt_of_succ_lt_succ hlt) hother
        exact fun earlier hmem => Nat.lt_of_succ_lt_succ (hearlier earlier hmem)
  exhausted q other hearlier hother := by
    rw [List.forall_mem_map] at hearlier
    rw [List.length_map]
    cases q with
    | zero =>
        cases taken with
        | nil =>
            obtain rfl : pair = other := by simpa using hother
            simpa using hne
        | cons earliest taken => exact absurd (hearlier earliest (by simp)) (by simp)
    | succ q =>
        refine h.exhausted q other ?_ hother
        exact fun earlier hmem => Nat.lt_of_succ_lt_succ (hearlier earlier hmem)

/-- **Names are taken greedily**, each from its first place after the one before. -/
theorem firstPlaces_places (names : List Bytes) (attributes : List (Bytes × Bytes)) :
    FirstPlaces names attributes (places names attributes) := by
  fun_induction places names attributes with
  | case1 attributes => refine ⟨.nil, ?_, ?_, ?_⟩ <;> simp
  | case2 name names => refine ⟨.nil, ?_, ?_, ?_⟩ <;> simp
  | case3 names pair attributes ih => exact ih.cons pair
  | case4 name names pair attributes hne ih => exact ih.skip hne

example : places [[97], [98]] [([98], []), ([97], []), ([97], []), ([98], [])] = [1, 3] := by decide

/-- **No more names form a subsequence of the list** than places are found. -/
theorem isGreatest_length_places (names : List Bytes) (attributes : List (Bytes × Bytes)) :
    IsGreatest {k | k ≤ names.length ∧ (names.take k).Sublist (attributes.map Prod.fst)}
      (places names attributes).length := by
  refine ⟨⟨length_places_le names attributes, ?_⟩, ?_⟩
  · fun_induction places names attributes with
    | case1 => simp
    | case2 => simp
    | case3 names pair attributes ih => simpa using ih
    | case4 name names pair attributes hne ih =>
        simp only [List.length_map, List.map_cons]
        exact ih.cons _
  · fun_induction places names attributes with
    | case1 => rintro k ⟨hk, -⟩; simpa using hk
    | case2 name names =>
        rintro k ⟨hk, hsub⟩
        cases k with
        | zero => simp
        | succ k => simp at hsub
    | case3 names pair attributes ih =>
        rintro k ⟨hk, hsub⟩
        cases k with
        | zero => simp
        | succ k =>
            have hrest : k ≤ names.length ∧ (names.take k).Sublist (attributes.map Prod.fst) := by
              simpa using And.intro hk hsub
            simpa using ih hrest
    | case4 name names pair attributes hne ih =>
        rintro k ⟨hk, hsub⟩
        cases k with
        | zero => simp
        | succ k =>
            rw [List.length_map]
            refine ih ⟨hk, ?_⟩
            -- the first attribute has another name, so the subsequence lies behind it
            cases hsub with
            | cons _ hrest => exact hrest
            | cons_cons _ hrest => exact absurd rfl hne

/-! ### What lies after the places -/

theorem lt_after {taken : List Nat} (h : taken.Pairwise (· < ·)) :
    ∀ place ∈ taken, place < after taken := by
  intro place hmem
  cases hlast : taken.getLast? with
  | none =>
      rw [List.getLast?_eq_none_iff] at hlast
      simp [hlast] at hmem
  | some last =>
      obtain ⟨front, rfl⟩ := List.getLast?_eq_some_iff.1 hlast
      rw [after, hlast]
      rcases List.mem_append.1 hmem with hfront | hend
      · have hlt := (List.pairwise_append.1 h).2.2 place hfront last (by simp)
        exact Nat.lt_succ_of_lt hlt
      · rw [List.mem_singleton.1 hend]
        exact Nat.lt_succ_self last

theorem after_map_succ {taken : List Nat} (h : taken ≠ []) :
    after (taken.map (· + 1)) = after taken + 1 := by
  obtain ⟨front, last, rfl⟩ := List.eq_nil_or_concat taken |>.resolve_left h
  simp [after]

theorem after_zero_cons_map_succ (taken : List Nat) :
    after (0 :: taken.map (· + 1)) = after taken + 1 := by
  cases taken with
  | nil => rfl
  | cons place taken =>
      rw [← after_map_succ (List.cons_ne_nil place taken), List.map_cons, after, after,
        List.getLast?_cons_cons]

/-- After the places there is no attribute of the next name. -/
theorem FirstPlaces.ne_of_mem_drop {taken : List Nat} (h : FirstPlaces names attributes taken)
    {name : Bytes} (hname : names[taken.length]? = some name) :
    ∀ pair ∈ attributes.drop (after taken), name ≠ pair.1 := by
  rintro pair hmem rfl
  obtain ⟨q, hq⟩ := List.mem_iff_getElem?.1 hmem
  rw [List.getElem?_drop] at hq
  refine h.exhausted (after taken + q) pair (fun place hplace => ?_) hq hname
  exact Nat.lt_of_lt_of_le (lt_after h.increasing place hplace) (Nat.le_add_right _ _)

/-! ### The wishes that are met -/

/-- **The attributes at the places meet the first wishes**, and those between them are no matter. -/
theorem meet_places {wishes : List Wish} {taken : List Nat}
    (htaken : places (wishes.map Wish.name) attributes = taken)
    (hconv : Convertible wishes attributes taken) :
    Wish.Meet false (wishes.take taken.length) (attributes.take (after taken))
      (textsAt attributes taken) := by
  induction attributes generalizing wishes taken with
  | nil =>
      rw [places_nil_right] at htaken
      subst htaken
      exact .nil
  | cons pair attributes ih =>
      cases wishes with
      | nil =>
          rw [List.map_nil, places_nil_left] at htaken
          subst htaken
          exact .nil
      | cons wish wishes =>
          obtain ⟨name, value⟩ := pair
          rw [List.map_cons] at htaken
          by_cases hname : wish.name = name
          · subst hname
            rw [places_cons_self] at htaken
            subst htaken
            have hrest := ih rfl hconv.tail
            rw [after_zero_cons_map_succ, List.take_succ_cons, List.length_cons, List.length_map,
              List.take_succ_cons]
            rw [textsAt_zero_cons_map_succ]
            exact .met ⟨rfl, hconv 0 0 wish _ rfl rfl rfl⟩ hrest
          · rw [places_cons_of_ne hname, ← List.map_cons] at htaken
            subst htaken
            have hrest := ih rfl hconv.skip
            rw [textsAt_map_succ, List.length_map]
            -- if no later attribute is taken, this one is not passed over either
            cases hlater : places ((wish :: wishes).map Wish.name) attributes with
            | nil => exact .nil
            | cons place later =>
                rw [hlater] at hrest
                rw [after_map_succ (List.cons_ne_nil place later), List.take_succ_cons,
                  List.length_cons, List.take_succ_cons]
                exact .skip rfl hname hrest

end

/-! ### Scanning -/

/-- What scanning a written list gives when attributes at these places are taken for the first
wishes and all others are skipped. -/
structure LenientScan (flags : Flags) (wishes : List Wish) (capture : Option Table)
    (attributes : List (Bytes × Bytes)) (following : Bytes) (taken : List Nat) (r : ScanResult) :
    Prop where
  /-- The values that are taken are stored. -/
  stores : Stores wishes attributes taken r.list.wishes
  /-- If a wish is left open, the list is read to its end and nothing is captured. -/
  short : ∀ wish, wishes[taken.length]? = some wish →
    r.Ends taken.length capture (if flags.missing then [.missing wish.name] else []) following
  /-- If all are met and nothing is to be captured, the rest of the list may be left. -/
  met : taken.length = wishes.length → capture = none →
    r.Ends wishes.length none []
      ((if flags.more then listText (attributes.drop (after taken)) else []) ++ following)
  /-- If all are met, a capture takes what is left, the first value of each name. -/
  captured : ∀ table, taken.length = wishes.length → capture = some table →
    ∃ (table' : Table) (count : Nat),
      (∀ name, table'.get? name =
        (table.get? name).or (Table.lookup name (attributes.drop (after taken)))) ∧
      table.size + count = table'.size ∧ r.Ends (wishes.length + count) (some table') [] following
  /-- The stream is still steady. -/
  steady : r.stream.Steady

section

variable {config : Config} {flags : Flags} {wishes : List Wish} {capture : Option Table}
  {attributes : List (Bytes × Bytes)} {following : Bytes} {s : Stream} {taken : List Nat}

/-- A wish that is left open is searched for up to the end of the list. -/
theorem lenientScan_of_lt (hextra : flags.extra = false) (hs : s.Steady)
    (hwire : s.unread = listText attributes ++ following) (hfits : config.FitsAll attributes)
    (htaken : places (wishes.map Wish.name) attributes = taken)
    (hconv : Convertible wishes attributes taken) (hlt : taken.length < wishes.length) :
    LenientScan flags wishes capture attributes following taken
      (scan config flags ⟨wishes, capture⟩ s) := by
  obtain ⟨log, s₁, hrun, hwarn, hadv₁, hahead₁, hfits₁⟩ :=
    satisfy_of_meet (hextra ▸ meet_places htaken hconv) hs.gapless (hs.ahead.trans hwire) hfits
  have hwish : wishes[taken.length]? = some wishes[taken.length] := List.getElem?_eq_getElem hlt
  have hdrop : wishes.drop taken.length =
      wishes[taken.length] :: wishes.drop (taken.length + 1) := List.drop_eq_getElem_cons hlt
  have hfirst : FirstPlaces (wishes.map Wish.name) attributes taken :=
    htaken ▸ firstPlaces_places _ attributes
  have habsent : ∀ pair ∈ attributes.drop (after taken), wishes[taken.length].name ≠ pair.1 :=
    hfirst.ne_of_mem_drop (by simp [hwish])
  obtain ⟨log', s₂, hstop, hwarn', hadv₂⟩ :=
    satisfy_listText _ (wishes.drop (taken.length + 1)) s₁ hextra hadv₁.gapless hfits₁ hahead₁
      habsent
  have hadv := hadv₁.trans hadv₂
  rw [attributeLines_take_append] at hadv
  rw [← hdrop] at hstop
  rw [scan_of_stopped capture (length_textsAt _ _) (Nat.le_of_lt hlt) hrun hstop]
  refine ⟨stores_receiveAll hconv, ?_, fun h => by omega, fun _ h => by omega, hadv.steady hs⟩
  intro wish hopen
  obtain rfl : wishes[taken.length] = wish := Option.some.inj (hwish.symm.trans hopen)
  refine ⟨rfl, rfl, ?_, hadv.unread_eq_of_append hwire⟩
  rw [warnings_append, hwarn, hwarn']
  rfl

/-- Once all wishes are met, the rest of the list is captured, left, or skipped. -/
theorem lenientScan_of_eq (hextra : flags.extra = false) (hs : s.Steady)
    (hwire : s.unread = listText attributes ++ following) (hfits : config.FitsAll attributes)
    (htaken : places (wishes.map Wish.name) attributes = taken)
    (hconv : Convertible wishes attributes taken) (hall : taken.length = wishes.length) :
    LenientScan flags wishes capture attributes following taken
      (scan config flags ⟨wishes, capture⟩ s) := by
  obtain ⟨log, s₁, hrun, hwarn, hadv₁, hahead₁, hfits₁⟩ :=
    satisfy_of_meet (hextra ▸ meet_places htaken hconv) hs.gapless (hs.ahead.trans hwire) hfits
  have hstores := stores_receiveAll hconv
  have hopen : wishes[taken.length]? = none := List.getElem?_eq_none (Nat.le_of_eq hall.symm)
  rw [scan_of_complete capture hall hrun]
  cases capture with
  | some table =>
      obtain ⟨log', count, s₂, hgather, hcount, hwarn', hadv₂⟩ :=
        gather_listText flags table s₁ hadv₁.gapless hfits₁ hahead₁ (by simp [hextra])
      have hadv := hadv₁.trans hadv₂
      rw [attributeLines_take_append] at hadv
      rw [finish_of_gather hgather]
      refine ⟨hstores, by simp [hopen], by simp, fun table' _ htable => ?_, hadv.steady hs⟩
      obtain rfl := Option.some.inj htable
      refine ⟨_, count, table.get?_extend _, hcount, rfl, rfl, ?_, hadv.unread_eq_of_append hwire⟩
      rw [warnings_append, hwarn, hwarn', List.append_nil]
  | none =>
      by_cases hmore : flags.more = true
      · have hleft : s₁.unread = listText (attributes.drop (after taken)) ++ following :=
          (hadv₁.steady hs).ahead.symm.trans hahead₁
        rw [finish_of_more hmore]
        refine ⟨hstores, by simp [hopen], fun _ _ => ⟨rfl, rfl, hwarn, ?_⟩, by simp,
          hadv₁.steady hs⟩
        rw [if_pos hmore, hleft]
      · obtain ⟨log', s₂, hend, hwarn', hadv₂⟩ :=
          seek_listText .terminator s₁ hextra hadv₁.gapless hfits₁ hahead₁
            fun pair _ => Wanted.not_accepts_terminator pair.1
        have hadv := hadv₁.trans hadv₂
        rw [attributeLines_take_append] at hadv
        rw [finish_of_seek hmore hend]
        refine ⟨hstores, by simp [hopen], fun _ _ => ⟨rfl, rfl, ?_, ?_⟩, by simp,
          hadv.steady hs⟩
        · rw [warnings_append, hwarn, hwarn']
          rfl
        · rw [if_neg hmore, List.nil_append]
          exact hadv.unread_eq_of_append hwire

/-- **A lenient scan takes the attributes at the places of the names.** -/
theorem lenientScan_places (hextra : flags.extra = false) (hs : s.Steady)
    (hwire : s.unread = listText attributes ++ following) (hfits : config.FitsAll attributes)
    (hconv : Convertible wishes attributes (places (wishes.map Wish.name) attributes)) :
    LenientScan flags wishes capture attributes following
      (places (wishes.map Wish.name) attributes) (scan config flags ⟨wishes, capture⟩ s) := by
  have hlen : (places (wishes.map Wish.name) attributes).length ≤ wishes.length := by
    simpa using length_places_le (wishes.map Wish.name) attributes
  rcases Nat.lt_or_eq_of_le hlen with hlt | hall
  · exact lenientScan_of_lt hextra hs hwire hfits rfl hconv hlt
  · exact lenientScan_of_eq hextra hs hwire hfits rfl hconv hall

/-- Unless the rest is left to the next scan, the list is read to its end. -/
theorem LenientScan.reads_list {r : ScanResult}
    (h : LenientScan flags wishes capture attributes following taken r)
    (hle : taken.length ≤ wishes.length) (hmore : flags.more = false) :
    ∃ n, r.outcome = .ok n ∧ r.stream.unread = following := by
  rcases Nat.lt_or_eq_of_le hle with hlt | hall
  · obtain ⟨houtcome, -, -, hunread⟩ := h.short _ (List.getElem?_eq_getElem hlt)
    exact ⟨_, houtcome, hunread⟩
  · cases hcapture : capture with
    | some table =>
        obtain ⟨table', count, -, -, houtcome, -, -, hunread⟩ := h.captured table hall hcapture
        exact ⟨_, houtcome, hunread⟩
    | none =>
        obtain ⟨houtcome, -, -, hunread⟩ := h.met hall hcapture
        rw [hmore, if_neg Bool.false_ne_true, List.nil_append] at hunread
        exact ⟨_, houtcome, hunread⟩

/-- **A lenient scan takes attributes greedily**, for as many wishes as any choice of attributes in
order could meet. -/
theorem scan_lenient (hextra : flags.extra = false) (hs : s.Steady)
    (hwire : s.unread = listText attributes ++ following) (hfits : config.FitsAll attributes)
    (hconv : Convertible wishes attributes (places (wishes.map Wish.name) attributes)) :
    let names := wishes.map Wish.name
    let taken := places names attributes
    FirstPlaces names attributes taken ∧
      IsGreatest {k | k ≤ names.length ∧ (names.take k).Sublist (attributes.map Prod.fst)}
        taken.length ∧
      LenientScan flags wishes capture attributes following taken
        (scan config flags ⟨wishes, capture⟩ s) := by
  intro names taken
  have hfirst : FirstPlaces names attributes taken := firstPlaces_places names attributes
  exact ⟨hfirst, isGreatest_length_places names attributes,
    lenientScan_places hextra hs hwire hfits hconv⟩

/-- The number is taken from the second attribute and the text from the fourth; what stands before
and between them is skipped, and the capture takes the last one. -/
theorem scan_lenient_bytewise :
    let attributes : List (Bytes × Bytes) :=
      [([98], [120]), ([97], [55]), ([97], [56]), ([98], [121]), ([99], [])]
    let wishes : List Wish := [⟨[97], .uint 0⟩, ⟨[98], .str []⟩]
    let r := scan .standard ⟨true, false, true⟩ ⟨wishes, some (Table.empty.insert [97] [])⟩
      (.bytewise (listText attributes ++ [120]) .silent)
    FirstPlaces [[97], [98]] attributes [1, 3] ∧
      IsGreatest {k | k ≤ 2 ∧ (List.take k [[97], [98]]).Sublist (attributes.map Prod.fst)} 2 ∧
      LenientScan ⟨true, false, true⟩ wishes (some (Table.empty.insert [97] [])) attributes [120]
        [1, 3] r := by
  intro attributes wishes r
  have hconv : Convertible wishes attributes [1, 3] := by
    rintro (_ | _ | i) place wish pair hwish hplace hpair
    · cases hwish
      cases hplace
      cases hpair
      decide
    · cases hwish
      cases hplace
      cases hpair
      decide
    · simp at hplace
  exact scan_lenient rfl (Stream.steady_bytewise _ _) (Stream.unread_bytewise _ _) (by decide) hconv

end

end AttributeWire
