/-
**Runs of attributes that are wanted.**

As long as the attributes ahead are the ones that the wishes ask for, in order, meeting the wishes
stores one value after the other and logs no warning; and as long as attributes may be captured,
capturing them extends the table.  Both are stated for a run of attributes with anything behind it,
so that what happens at the end of the run can be looked at by itself.

Main definitions:

* `Wish.MetBy`, `Wish.receive`, `Wish.receiveAll` — an attribute that meets a wish, and the wish, or
  the first of some wishes, with its value;
* `Wish.Meet` — some attributes meet some wishes in order;
* `Convertible`, `Stores` — values at some places of a list that can be stored, and wishes that hold
  them;
* `Satisfied.afterAll` — the answer of meeting wishes after others were met;
* `ScanResult.Ends` — how a scan that does not fail ends.

Main results:

* `satisfy_append` — **a run of attributes meets a run of wishes**;
* `seek_listText`, `satisfy_listText` — **a search for what the list does not hold** ends with it;
* `gather_append`, `gather_listText` — **a run of attributes is captured**, also under flags that
  refuse repeated names as long as there are none;
* `satisfy_of_meet`, `scan_of_stopped`, `scan_of_complete` — **a scan from the front of a list on**.
-/

import AttributeWire.Proofs.Attribute
import AttributeWire.Proofs.Table

set_option relaxedAutoImplicit false
set_option autoImplicit false

namespace AttributeWire

open LogEntry

/-! ### Wishes and the attributes that meet them -/

namespace Wish

/-- The attribute meets the wish: it has the name, and its value is text of the kind wanted. -/
def MetBy (wish : Wish) (pair : Bytes × Bytes) : Prop :=
  wish.name = pair.1 ∧ (wish.value.read? pair.2).isSome

/-- The wish after it was met with a text.  Text that is not of the kind wanted changes nothing. -/
def receive (wish : Wish) (text : Bytes) : Wish :=
  ⟨wish.name, (wish.value.read? text).getD wish.value⟩

theorem receive_of_read? {wish : Wish} {text : Bytes} {stored : Value}
    (h : wish.value.read? text = some stored) : wish.receive text = ⟨wish.name, stored⟩ := by
  rw [receive, h, Option.getD_some]

/-- Wishes after the first of them were met with texts, one each. -/
def receiveAll : List Wish → List Bytes → List Wish
  | wish :: wishes, text :: texts => wish.receive text :: receiveAll wishes texts
  | wishes, _ => wishes

@[simp] theorem receiveAll_nil (wishes : List Wish) : receiveAll wishes [] = wishes := by
  cases wishes <;> rfl

@[simp] theorem receiveAll_cons (wish : Wish) (wishes : List Wish) (text : Bytes)
    (texts : List Bytes) :
    receiveAll (wish :: wishes) (text :: texts) = wish.receive text :: receiveAll wishes texts :=
  rfl

theorem getElem?_receiveAll_of_some {wishes : List Wish} {texts : List Bytes} {i : Nat}
    {wish : Wish} {text : Bytes} (hwish : wishes[i]? = some wish) (htext : texts[i]? = some text) :
    (receiveAll wishes texts)[i]? = some (wish.receive text) := by
  induction wishes generalizing texts i with
  | nil => simp at hwish
  | cons first wishes ih =>
      cases texts with
      | nil => simp at htext
      | cons given texts =>
          cases i with
          | zero =>
              simp only [List.getElem?_cons_zero, Option.some.injEq] at hwish htext
              simp [hwish, htext]
          | succ i => simpa using ih hwish htext

theorem getElem?_receiveAll_of_le (wishes : List Wish) {texts : List Bytes} {i : Nat}
    (h : texts.length ≤ i) : (receiveAll wishes texts)[i]? = wishes[i]? := by
  induction wishes generalizing texts i with
  | nil => cases texts <;> rfl
  | cons first wishes ih =>
      cases texts with
      | nil => rfl
      | cons given texts =>
          cases i with
          | zero => simp at h
          | succ i => simpa using ih (by simpa using h)

@[simp] theorem length_receiveAll (wishes : List Wish) (texts : List Bytes) :
    (receiveAll wishes texts).length = wishes.length := by
  induction wishes generalizing texts with
  | nil => cases texts <;> rfl
  | cons first wishes ih =>
      cases texts with
      | nil => rfl
      | cons given texts => simp [ih]

/-- Only as many wishes change as there are texts. -/
theorem receiveAll_take_append_drop (wishes : List Wish) {texts : List Bytes} {k : Nat}
    (h : texts.length = k) :
    receiveAll (wishes.take k) texts ++ wishes.drop k = receiveAll wishes texts := by
  induction wishes generalizing texts k with
  | nil => cases texts <;> simp [receiveAll]
  | cons first wishes ih =>
      cases texts with
      | nil =>
          subst h
          rfl
      | cons given texts =>
          subst h
          simp [ih rfl]

/-- The attributes meet the wishes in order, with these texts: each wish by one attribute, and no
attribute between two of them has the name that is wanted then.  With `extra` there is none between
them. -/
inductive Meet (extra : Bool) : List Wish → List (Bytes × Bytes) → List Bytes → Prop
  | nil : Meet extra [] [] []
  | met {wish : Wish} {pair : Bytes × Bytes} {wishes : List Wish}
      {attributes : List (Bytes × Bytes)} {texts : List Bytes} (h : wish.MetBy pair)
      (rest : Meet extra wishes attributes texts) :
      Meet extra (wish :: wishes) (pair :: attributes) (pair.2 :: texts)
  | skip {wish : Wish} {pair : Bytes × Bytes} {wishes : List Wish}
      {attributes : List (Bytes × Bytes)} {texts : List Bytes} (hextra : extra = false)
      (hne : wish.name ≠ pair.1) (rest : Meet extra (wish :: wishes) attributes texts) :
      Meet extra (wish :: wishes) (pair :: attributes) texts

end Wish

/-! ### Values at places of the list -/

section

variable {attributes : List (Bytes × Bytes)} {wishes : List Wish} {taken : List Nat}

/-- The values at some places. -/
def textsAt (attributes : List (Bytes × Bytes)) (taken : List Nat) : List Bytes :=
  taken.map fun place => ((attributes[place]?).map Prod.snd).getD []

/-- Each value that is taken is text of the kind its wish is for. -/
def Convertible (wishes : List Wish) (attributes : List (Bytes × Bytes)) (taken : List Nat) :
    Prop :=
  ∀ (i place : Nat) (wish : Wish) (pair : Bytes × Bytes), wishes[i]? = some wish →
    taken[i]? = some place → attributes[place]? = some pair → (wish.value.read? pair.2).isSome

theorem Convertible.tail {wish : Wish} {wishes : List Wish} {pair : Bytes × Bytes}
    {taken : List Nat} (h : Convertible (wish :: wishes) (pair :: attributes)
      (0 :: taken.map (· + 1))) : Convertible wishes attributes taken := by
  intro i place wish' pair' hwish hplace hpair
  exact h (i + 1) (place + 1) wish' pair' hwish (by simp [hplace]) hpair

theorem Convertible.skip {wishes : List Wish} {pair : Bytes × Bytes} {taken : List Nat}
    (h : Convertible wishes (pair :: attributes) (taken.map (· + 1))) :
    Convertible wishes attributes taken := by
  intro i place wish pair' hwish hplace hpair
  exact h i (place + 1) wish pair' hwish (by simp [hplace]) hpair

theorem textsAt_map_succ (pair : Bytes × Bytes) (attributes : List (Bytes × Bytes))
    (taken : List Nat) :
    textsAt (pair :: attributes) (taken.map (· + 1)) = textsAt attributes taken := by
  simp [textsAt]

theorem textsAt_zero_cons_map_succ (pair : Bytes × Bytes) (attributes : List (Bytes × Bytes))
    (taken : List Nat) :
    textsAt (pair :: attributes) (0 :: taken.map (· + 1)) = pair.2 :: textsAt attributes taken := by
  rw [← textsAt_map_succ pair attributes taken]
  rfl

theorem length_textsAt (attributes : List (Bytes × Bytes)) (taken : List Nat) :
    (textsAt attributes taken).length = taken.length := List.length_map _

theorem getElem?_textsAt {taken : List Nat} {i place : Nat} {pair : Bytes × Bytes}
    (hplace : taken[i]? = some place) (hpair : attributes[place]? = some pair) :
    (textsAt attributes taken)[i]? = some pair.2 := by
  simp [textsAt, hplace, hpair]

/-- What wishes hold after attributes at some places are taken for the first of them. -/
structure Stores (wishes : List Wish) (attributes : List (Bytes × Bytes)) (taken : List Nat)
    (result : List Wish) : Prop where
  /-- A wish whose attribute is taken holds its value. -/
  stored : ∀ (i place : Nat) (wish : Wish) (pair : Bytes × Bytes), wishes[i]? = some wish →
    taken[i]? = some place → attributes[place]? = some pair →
      ∃ value, wish.value.read? pair.2 = some value ∧ result[i]? = some ⟨wish.name, value⟩
  /-- Every other wish holds what it held. -/
  kept : ∀ i : Nat, taken.length ≤ i → result[i]? = wishes[i]?

theorem stores_receiveAll (hconv : Convertible wishes attributes taken) :
    Stores wishes attributes taken (Wish.receiveAll wishes (textsAt attributes taken)) where
  stored i place wish pair hwish hplace hpair := by
    obtain ⟨value, hvalue⟩ :=
      Option.isSome_iff_exists.1 (hconv i place wish pair hwish hplace hpair)
    refine ⟨value, hvalue, ?_⟩
    rw [Wish.getElem?_receiveAll_of_some hwish (getElem?_textsAt hplace hpair),
      Wish.receive_of_read? hvalue]
  kept i hi := by
    refine Wish.getElem?_receiveAll_of_le wishes ?_
    rwa [length_textsAt]

end

/-! ### Runs of attributes -/

/-- The same after other wishes were met before and something else was logged. -/
def Satisfied.afterAll (met : List Wish) (log : List LogEntry) (r : Satisfied) : Satisfied :=
  ⟨met ++ r.wishes, r.count + met.length, r.progress, log ++ r.log, r.stream⟩

section

variable {config : Config} {flags : Flags} {attributes : List (Bytes × Bytes)} {rest : Bytes}

/-- **A run of attributes meets a run of wishes.** -/
theorem satisfy_append {wishes : List Wish} {texts : List Bytes}
    (hmeet : Wish.Meet flags.extra wishes attributes texts) (more : List Wish) (s : Stream)
    (hs : s.Gapless) (hfits : config.FitsAll attributes)
    (hahead : s.ahead = attributeLines attributes ++ rest) :
    ∃ log s', satisfy config flags (wishes ++ more) s =
        (satisfy config flags more s').afterAll (Wish.receiveAll wishes texts) log ∧
      warnings log = [] ∧ s.Advances (attributeLines attributes) s' := by
  induction hmeet generalizing s with
  | nil => exact ⟨[], s, rfl, rfl, .refl hs⟩
  | @met wish pair wishes attributes texts hfirst _ ih =>
      obtain ⟨name, value⟩ := pair
      obtain ⟨rfl, hread⟩ := hfirst
      obtain ⟨stored, hstored⟩ := Option.isSome_iff_exists.1 hread
      obtain ⟨⟨hname, hvalue⟩, hfits⟩ := Config.fitsAll_cons.1 hfits
      rw [attributeLines_cons, List.append_assoc] at hahead
      obtain ⟨s₁, hstep, hadv₁⟩ :=
        satisfy_of_met flags (wishes ++ more) hs hname hvalue hahead hstored
      obtain ⟨log, s', hrun, hwarn, hadv⟩ := ih s₁ hadv₁.gapless hfits (hadv₁.ahead_eq hahead)
      refine ⟨[.wanted (.named wish.name), .nameRead wish.name, .valueRead value] ++ log, s', ?_,
        ?_, ?_⟩
      · rw [List.cons_append, hstep, hrun]
        simp [Satisfied.after, Satisfied.afterAll, Wish.receive_of_read? hstored, Nat.add_assoc]
      · simpa using hwarn
      · rw [attributeLines_cons]
        exact hadv₁.trans hadv
  | @skip wish pair wishes attributes texts hextra hne _ ih =>
      obtain ⟨name, value⟩ := pair
      obtain ⟨⟨hname, -⟩, hfits⟩ := Config.fitsAll_cons.1 hfits
      rw [attributeLines_cons, List.append_assoc] at hahead
      obtain ⟨s₁, hstep, hadv₁⟩ := satisfy_of_skipped (wishes ++ more) hextra hs hname hahead hne
      obtain ⟨log, s', hrun, hwarn, hadv⟩ := ih s₁ hadv₁.gapless hfits (hadv₁.ahead_eq hahead)
      refine ⟨[.wanted (.named wish.name), .nameRead name] ++ log, s', ?_, ?_, ?_⟩
      · rw [List.cons_append] at hrun ⊢
        rw [hstep, hrun]
        simp [Satisfied.logged, Satisfied.afterAll]
      · simpa using hwarn
      · rw [attributeLines_cons]
        exact hadv₁.trans hadv

/-- **A search for what the list does not hold** ends with the list, past everything in it. -/
theorem seek_listText (target : Wanted) (s : Stream) (hextra : flags.extra = false)
    (hs : s.Gapless) (hfits : config.FitsAll attributes)
    (hahead : s.ahead = listText attributes ++ rest)
    (habsent : ∀ pair ∈ attributes, ¬ target.Accepts pair.1) :
    ∃ log s', seek config flags target s = ⟨.ok .stopped, log, s'⟩ ∧
      warnings log = target.missingWarning flags ∧ s.Advances (listText attributes) s' := by
  induction attributes generalizing s with
  | nil =>
      obtain ⟨s', hseek, hadv⟩ := seek_of_terminator config flags target hs hahead
      exact ⟨_, s', hseek, by simp, hadv⟩
  | cons pair attributes ih =>
      obtain ⟨name, value⟩ := pair
      obtain ⟨⟨hname, -⟩, hfits⟩ := Config.fitsAll_cons.1 hfits
      obtain ⟨hfirst, hothers⟩ := List.forall_mem_cons.1 habsent
      rw [listText_cons, List.append_assoc] at hahead
      obtain ⟨s₁, hstep, hadv₁⟩ := seek_of_skipped target hextra hs hname hahead hfirst
      obtain ⟨log, s', hrun, hwarn, hadv⟩ :=
        ih s₁ hadv₁.gapless hfits (hadv₁.ahead_eq hahead) hothers
      refine ⟨[.wanted target, .nameRead name] ++ log, s', ?_, ?_, ?_⟩
      · rw [hstep, hrun, Attempt.after]
      · simpa using hwarn
      · rw [listText_cons]
        exact hadv₁.trans hadv

/-- A wish for an attribute that the list does not hold is left open at its end. -/
theorem satisfy_listText (wish : Wish) (wishes : List Wish) (s : Stream)
    (hextra : flags.extra = false) (hs : s.Gapless) (hfits : config.FitsAll attributes)
    (hahead : s.ahead = listText attributes ++ rest)
    (habsent : ∀ pair ∈ attributes, wish.name ≠ pair.1) :
    ∃ log s', satisfy config flags (wish :: wishes) s =
        ⟨wish :: wishes, 0, .stopped, log, s'⟩ ∧
      warnings log = (Wanted.named wish.name).missingWarning flags ∧
      s.Advances (listText attributes) s' := by
  obtain ⟨log, s', hseek, hwarn, hadv⟩ :=
    seek_listText (.named wish.name) s hextra hs hfits hahead habsent
  refine ⟨log, s', ?_, hwarn, hadv⟩
  rw [satisfy, hseek]

/-- **A run of attributes is captured.**  Flags that refuse repeated names allow it as long as no
name is repeated. -/
theorem gather_append (flags : Flags) (table : Table) (s : Stream) (hs : s.Gapless)
    (hfits : config.FitsAll attributes) (hahead : s.ahead = attributeLines attributes ++ rest)
    (hfresh : flags.extra = true → table.Fresh attributes) :
    ∃ log count s', gather config flags table s =
        (gather config flags (table.extend attributes) s').after count log ∧
      table.size + count = (table.extend attributes).size ∧
      warnings log = [] ∧ s.Advances (attributeLines attributes) s' := by
  induction attributes generalizing table s with
  | nil => exact ⟨[], 0, s, rfl, rfl, rfl, .refl hs⟩
  | cons pair attributes ih =>
      obtain ⟨name, value⟩ := pair
      obtain ⟨⟨hname, hvalue⟩, hfits⟩ := Config.fitsAll_cons.1 hfits
      rw [attributeLines_cons, List.append_assoc] at hahead
      obtain ⟨s₁, hstep, hadv₁⟩ := gather_of_ahead flags table hs hname hvalue hahead
      have hahead₁ := hadv₁.ahead_eq hahead
      cases hbound : table.get? name with
      | some old =>
          have hextra : flags.extra = false := by
            cases hextra : flags.extra with
            | false => rfl
            | true =>
                obtain ⟨hnone, -⟩ := Table.fresh_cons_iff.1 (hfresh hextra)
                simp [hbound] at hnone
          obtain ⟨log, count, s', hrun, hcount, hwarn, hadv⟩ :=
            ih table s₁ hadv₁.gapless hfits hahead₁ (by simp [hextra])
          refine ⟨[.wanted .any, .nameRead name, .valueRead value] ++ log, count, s', ?_, ?_, ?_,
            ?_⟩
          · rw [hstep, hbound, hrun, Table.extend_cons, Table.insertNew_of_some hbound]
            simp [hextra, Gathered.after]
          · rwa [Table.extend_cons, Table.insertNew_of_some hbound]
          · simpa using hwarn
          · rw [attributeLines_cons]
            exact hadv₁.trans hadv
      | none =>
          obtain ⟨log, count, s', hrun, hcount, hwarn, hadv⟩ :=
            ih (table.insert name value) s₁ hadv₁.gapless hfits hahead₁
              fun hextra => (Table.fresh_cons_iff.1 (hfresh hextra)).2
          refine ⟨[.wanted .any, .nameRead name, .valueRead value] ++ log, count + 1, s', ?_, ?_,
            ?_, ?_⟩
          · rw [hstep, hbound, hrun, Table.extend_cons, Table.insertNew_of_none hbound]
            simp [Gathered.after, Nat.add_assoc]
          · rw [Table.extend_cons, Table.insertNew_of_none hbound, ← hcount,
              Table.size_insert hbound]
            omega
          · simpa using hwarn
          · rw [attributeLines_cons]
            exact hadv₁.trans hadv

/-- **A whole list is captured**, its end included. -/
theorem gather_listText (flags : Flags) (table : Table) (s : Stream) (hs : s.Gapless)
    (hfits : config.FitsAll attributes) (hahead : s.ahead = listText attributes ++ rest)
    (hfresh : flags.extra = true → table.Fresh attributes) :
    ∃ log count s', gather config flags table s =
        ⟨table.extend attributes, count, .ok (), log, s'⟩ ∧
      table.size + count = (table.extend attributes).size ∧
      warnings log = [] ∧ s.Advances (listText attributes) s' := by
  rw [listText_eq, List.append_assoc] at hahead
  obtain ⟨log, count, s₁, hrun, hcount, hwarn, hadv₁⟩ :=
    gather_append flags table s hs hfits hahead hfresh
  obtain ⟨s', hend, hadv⟩ :=
    gather_of_terminator flags (table.extend attributes) hadv₁.gapless (hadv₁.ahead_eq hahead)
  refine ⟨log ++ [.wanted .any, .nameRead []], count, s', ?_, hcount, ?_, ?_⟩
  · rw [hrun, hend]
    simp [Gathered.after]
  · simpa using hwarn
  · rw [listText_eq]
    exact hadv₁.trans hadv

/-! ### The whole scan -/

/-- How a scan that does not fail ends: the count, the capture, the warnings, and what is left
unread. -/
structure ScanResult.Ends (r : ScanResult) (count : Nat) (capture : Option Table)
    (warned : List LogEntry) (unread : Bytes) : Prop where
  outcome : r.outcome = .ok count
  capture : r.list.capture = capture
  warned : warnings r.log = warned
  unread : r.stream.unread = unread

variable {wishes : List Wish} {texts : List Bytes} {k n : Nat} {s s₁ s₂ : Stream}
  {log log' : List LogEntry}

/-- As long as attributes of the list meet wishes, their values are stored, and the rest of the list
is ahead. -/
theorem satisfy_of_meet
    (hmeet : Wish.Meet flags.extra (wishes.take k) (attributes.take n) texts) (hs : s.Gapless)
    (hahead : s.ahead = listText attributes ++ rest) (hfits : config.FitsAll attributes) :
    ∃ log s₁, satisfy config flags wishes s =
        (satisfy config flags (wishes.drop k) s₁).afterAll
          (Wish.receiveAll (wishes.take k) texts) log ∧
      warnings log = [] ∧ s.Advances (attributeLines (attributes.take n)) s₁ ∧
      s₁.ahead = listText (attributes.drop n) ++ rest ∧
      config.FitsAll (attributes.drop n) := by
  have hsplit : s.ahead =
      attributeLines (attributes.take n) ++ (listText (attributes.drop n) ++ rest) := by
    rw [hahead, ← List.append_assoc, attributeLines_take_append]
  have hfits₀ : config.FitsAll (attributes.take n) :=
    fun pair hmem => hfits pair (List.mem_of_mem_take hmem)
  have hfits₁ : config.FitsAll (attributes.drop n) :=
    fun pair hmem => hfits pair (List.mem_of_mem_drop hmem)
  obtain ⟨log, s₁, hrun, hwarn, hadv⟩ :=
    satisfy_append hmeet (wishes.drop k) s hs hfits₀ hsplit
  rw [List.take_append_drop] at hrun
  exact ⟨log, s₁, hrun, hwarn, hadv, hadv.ahead_eq hsplit, hfits₁⟩

/-- The scan is over if the next wish cannot be met. -/
theorem scan_of_stopped (capture : Option Table) (hlen : texts.length = k) (hle : k ≤ wishes.length)
    (hrun : satisfy config flags wishes s =
      (satisfy config flags (wishes.drop k) s₁).afterAll
        (Wish.receiveAll (wishes.take k) texts) log)
    (hstop : satisfy config flags (wishes.drop k) s₁ = ⟨wishes.drop k, 0, .stopped, log', s₂⟩) :
    scan config flags ⟨wishes, capture⟩ s =
      ⟨.ok k, ⟨Wish.receiveAll wishes texts, capture⟩, log ++ log', s₂⟩ := by
  rw [hstop, Satisfied.afterAll, Wish.receiveAll_take_append_drop wishes hlen,
    Wish.length_receiveAll, List.length_take, Nat.min_eq_left hle, Nat.zero_add] at hrun
  rw [scan]
  simp only [hrun]

/-- The scan goes on with the capture, or the end of the list, once all wishes are met. -/
theorem scan_of_complete (capture : Option Table) (hall : k = wishes.length)
    (hrun : satisfy config flags wishes s =
      (satisfy config flags (wishes.drop k) s₁).afterAll
        (Wish.receiveAll (wishes.take k) texts) log) :
    scan config flags ⟨wishes, capture⟩ s = finish config flags capture
      ⟨Wish.receiveAll wishes texts, wishes.length, .complete, log, s₁⟩ := by
  rw [hall, List.drop_length, List.take_length, satisfy, Satisfied.afterAll, List.append_nil,
    List.append_nil, Wish.length_receiveAll, Nat.zero_add] at hrun
  rw [scan]
  simp only [hrun]

theorem finish_of_more (hmore : flags.more = true) (named : Satisfied) :
    finish config flags none named =
      ⟨.ok named.count, ⟨named.wishes, none⟩, named.log, named.stream⟩ := by
  simp only [finish, if_pos hmore]

theorem finish_of_seek {named : Satisfied} {sighting : Sighting} (hmore : ¬ flags.more = true)
    (hseek : seek config flags .terminator named.stream = ⟨.ok sighting, log, s₁⟩) :
    finish config flags none named =
      ⟨.ok named.count, ⟨named.wishes, none⟩, named.log ++ log, s₁⟩ := by
  simp only [finish, if_neg hmore, hseek, Except.map]

theorem finish_of_gather {named : Satisfied} {table table' : Table} {count : Nat}
    (hgather : gather config flags table named.stream = ⟨table', count, .ok (), log, s₁⟩) :
    finish config flags (some table) named =
      ⟨.ok (named.count + count), ⟨named.wishes, some table'⟩, named.log ++ log, s₁⟩ := by
  simp only [finish, hgather, Except.map]

end

end AttributeWire
