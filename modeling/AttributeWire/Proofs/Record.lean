/-
**What is printed for one list.**

The command looks for three attributes in each list it reads, and captures the others.  If one of
the three is missing, only the number of those found is printed, and none of their values; otherwise
there is a line for each of the three and for each captured name.  What is to be printed is told
here from the attributes of the list, without the scan.

Main definitions:

* `expectedNames` — the names of the three attributes;
* `Reports` — what is to be printed for a list;
* `Printable` — a list that can be printed: within the limit, with numbers where they are wanted.

Main results:

* `FirstPlaces.unique`, `Reports.unique` — **there is one report for a list**;
* `text_of_short`, `text_of_full` — what the command prints, by how many attributes were found;
* `reports_of_lenient` — **what a lenient scan finds prints as it should**;
* `exists_exact_expected` — **the text of a list is all that its record depends on**.
-/

import AttributeWire.Command.Run
import AttributeWire.Proofs.Exact
import AttributeWire.Proofs.Subsequence
import AttributeWire.Proofs.Text
import Mathlib.Data.List.Basic
import Mathlib.Order.Bounds.Basic

set_option relaxedAutoImplicit false
set_option autoImplicit false

namespace AttributeWire

/-! ### What is to be printed -/

/-- The names of the attributes that are looked for. -/
def expectedNames : List Bytes := expectedList.wishes.map Wish.name

/-- What is to be printed for a list. -/
inductive Reports (attributes : List (Bytes × Bytes)) : String → Prop
  /-- The names are not a subsequence of those of the list: how many of them are. -/
  | short {count : Nat}
      (hcount : IsGreatest {k | k ≤ expectedNames.length ∧
        (expectedNames.take k).Sublist (attributes.map Prod.fst)} count) (hlt : count < 3) :
      Reports attributes s!"return: {count}\n"
  /-- Each of the three is taken from the first place after the one before: their values, and the
  first value of each name behind them, in the order of the names. -/
  | full {p q r : Nat} {number longNumber text : Bytes} {n : UInt32} {m : UInt64}
      {entries : List (Bytes × Bytes)} (hfirst : FirstPlaces expectedNames attributes [p, q, r])
      (hp : attributes[p]? = some (Bytes.ofText "number", number))
      (hq : attributes[q]? = some (Bytes.ofText "long_number", longNumber))
      (hr : attributes[r]? = some (Bytes.ofText "string", text))
      (hn : Decimal.uint32? number = some n) (hm : Decimal.uint64? longNumber = some m)
      (hsorted : entries.Pairwise fun a b => a.1 < b.1)
      (hentries : ∀ name,
        Table.lookup name entries = Table.lookup name (attributes.drop (r + 1))) :
      Reports attributes (s!"number {n.toNat}\n" ++ s!"long_number {m.toNat}\n" ++
        s!"string {Utf8.lossy text}\n" ++ String.join (entries.map Record.otherLine))

/-- A list that can be printed: its fields are within the limit, and what is taken for a number is
one. -/
structure Printable (config : Config) (attributes : List (Bytes × Bytes)) : Prop where
  fits : config.FitsAll attributes
  converts : Convertible expectedList.wishes attributes (places expectedNames attributes)

/-! ### There is one report -/

section

variable {names : List Bytes} {attributes : List (Bytes × Bytes)} {taken taken' : List Nat}

/-- A place is before every place that comes later. -/
theorem lt_of_mem_take {i place : Nat} (h : taken.Pairwise (· < ·))
    (hplace : taken[i]? = some place) : ∀ earlier ∈ taken.take i, earlier < place := by
  obtain ⟨hi, rfl⟩ := List.getElem?_eq_some_iff.1 hplace
  intro earlier hmem
  obtain ⟨j, hj, rfl⟩ := List.mem_take_iff_getElem.1 hmem
  exact List.pairwise_iff_getElem.1 h j i _ hi (by omega)

/-- Where two choices of first places part, neither has an earlier place than the other. -/
theorem FirstPlaces.exists_le (h : FirstPlaces names attributes taken)
    (h' : FirstPlaces names attributes taken') {i place : Nat}
    (hbefore : taken.take i = taken'.take i) (hplace : taken[i]? = some place) :
    ∃ place', taken'[i]? = some place' ∧ place' ≤ place := by
  obtain ⟨pair, hpair, hname⟩ := h.found i place hplace
  have hearlier := lt_of_mem_take h.increasing hplace
  rw [hbefore] at hearlier
  cases hplace' : taken'[i]? with
  | some place' =>
      refine ⟨place', rfl, Nat.le_of_not_lt fun hlt => ?_⟩
      exact h'.first i place' hplace' place pair hearlier hlt hpair hname
  | none =>
      have hle := List.getElem?_eq_none_iff.1 hplace'
      have hlen : (taken.take i).length = i :=
        List.length_take_of_le (Nat.le_of_lt (List.getElem?_eq_some_iff.1 hplace).1)
      rw [hbefore, List.take_of_length_le hle] at hlen
      rw [List.take_of_length_le hle] at hearlier
      rw [← hlen] at hname
      exact absurd hname (h'.exhausted place pair hearlier hpair)

/-- **First places are determined.** -/
theorem FirstPlaces.unique (h : FirstPlaces names attributes taken)
    (h' : FirstPlaces names attributes taken') : taken = taken' := by
  refine List.ext_getElem? fun i => ?_
  induction i using Nat.strongRecOn with
  | ind i ih =>
      have hbefore : taken.take i = taken'.take i := by
        refine List.ext_getElem? fun j => ?_
        by_cases hj : j < i
        · rw [List.getElem?_take_of_lt hj, List.getElem?_take_of_lt hj, ih j hj]
        · rw [List.getElem?_take_eq_none (Nat.le_of_not_lt hj),
            List.getElem?_take_eq_none (Nat.le_of_not_lt hj)]
      cases hplace : taken[i]? with
      | some place =>
          obtain ⟨place', hplace', hle⟩ := h.exists_le h' hbefore hplace
          obtain ⟨again, hagain, hge⟩ := h'.exists_le h hbefore.symm hplace'
          obtain rfl := Option.some.inj (hplace.symm.trans hagain)
          rw [hplace', Nat.le_antisymm hle hge]
      | none =>
          cases hplace' : taken'[i]? with
          | none => rfl
          | some place' =>
              obtain ⟨again, hagain, -⟩ := h'.exists_le h hbefore.symm hplace'
              simp [hplace] at hagain

/-- **A list has only one report.** -/
theorem Reports.unique {text text' : String} (h : Reports attributes text)
    (h' : Reports attributes text') : text = text' := by
  have hgreatest := isGreatest_length_places expectedNames attributes
  have hplaces := firstPlaces_places expectedNames attributes
  cases h with
  | short hcount hlt =>
      cases h' with
      | short hcount' hlt' => rw [hcount.unique hcount']
      | full hfirst =>
          rw [hplaces.unique hfirst] at hgreatest
          rw [hcount.unique hgreatest] at hlt
          exact absurd hlt (Nat.lt_irrefl 3)
  | full hfirst hp hq hr hn hm hsorted hentries =>
      cases h' with
      | short hcount' hlt' =>
          rw [hplaces.unique hfirst] at hgreatest
          rw [hcount'.unique hgreatest] at hlt'
          exact absurd hlt' (Nat.lt_irrefl 3)
      | full hfirst' hp' hq' hr' hn' hm' hsorted' hentries' =>
          have hsame := hfirst.unique hfirst'
          simp only [List.cons.injEq, and_true] at hsame
          obtain ⟨rfl, rfl, rfl⟩ := hsame
          rw [hp, Option.some.injEq, Prod.mk.injEq] at hp'
          rw [hq, Option.some.injEq, Prod.mk.injEq] at hq'
          rw [hr, Option.some.injEq, Prod.mk.injEq] at hr'
          obtain ⟨-, rfl⟩ := hp'
          obtain ⟨-, rfl⟩ := hq'
          obtain ⟨-, rfl⟩ := hr'
          obtain rfl := Option.some.inj (hn.symm.trans hn')
          obtain rfl := Option.some.inj (hm.symm.trans hm')
          rw [Table.eq_of_lookup_eq hsorted hsorted' fun name =>
            (hentries name).trans (hentries' name).symm]

end

/-! ### What the command prints -/

namespace Record

theorem wishLine_ofText (name : String) (value : Value) :
    wishLine ⟨Bytes.ofText name, value⟩ = name ++ " " ++ Utf8.lossy value.text ++ "\n" := by
  rw [wishLine, Utf8.lossy_ofText]

theorem text_of_short {count : Nat} {wishes : List Wish} (h : count < 3)
    (hlen : wishes.length = 3) (others : Table) :
    text ⟨count, wishes, others⟩ = s!"return: {count}\n" := by
  rw [text, hlen, if_pos h]

theorem text_of_full (extra : Nat) (n : UInt32) (m : UInt64) (bytes : Bytes) (others : Table) :
    text ⟨3 + extra, [⟨Bytes.ofText "number", .uint n⟩, ⟨Bytes.ofText "long_number", .ulong m⟩,
        ⟨Bytes.ofText "string", .str bytes⟩], others⟩ =
      s!"number {n.toNat}\n" ++ s!"long_number {m.toNat}\n" ++ s!"string {Utf8.lossy bytes}\n" ++
        String.join (others.entries.map otherLine) := by
  have hcount : ¬ 3 + extra < 3 := by omega
  simp only [text, List.length_cons, List.length_nil, Nat.zero_add, Nat.reduceAdd, if_neg hcount,
    List.map_cons, List.map_nil, List.cons_append, List.nil_append, String.join_cons,
    wishLine_ofText, Value.text, Decimal.lossy_encode, String.append_assoc]
  rfl

end Record

/-! ### What a lenient scan finds -/

section

variable {config : Config} {flags : Flags} {attributes : List (Bytes × Bytes)} {following : Bytes}
  {r : ScanResult}

theorem exists_uint_of_read? {held : UInt32} {bytes : Bytes} {value : Value}
    (h : (Value.uint held).read? bytes = some value) :
    ∃ n, Decimal.uint32? bytes = some n ∧ value = .uint n := by
  unfold Value.read? at h
  cases hn : Decimal.uint32? bytes with
  | none => simp [hn] at h
  | some n => exact ⟨n, rfl, by simpa [hn] using h.symm⟩

theorem exists_ulong_of_read? {held : UInt64} {bytes : Bytes} {value : Value}
    (h : (Value.ulong held).read? bytes = some value) :
    ∃ n, Decimal.uint64? bytes = some n ∧ value = .ulong n := by
  unfold Value.read? at h
  cases hn : Decimal.uint64? bytes with
  | none => simp [hn] at h
  | some n => exact ⟨n, rfl, by simpa [hn] using h.symm⟩

/-- Wishes that are left open still count. -/
theorem length_of_stores {wishes result : List Wish} {taken : List Nat}
    (h : Stores wishes attributes taken result) (hlt : taken.length < wishes.length) :
    result.length = wishes.length := by
  have hnone : result[wishes.length]? = none := by
    rw [h.kept _ (Nat.le_of_lt hlt), List.getElem?_eq_none (Nat.le_refl _)]
  have hsome : result[wishes.length - 1]? ≠ none := by
    rw [h.kept _ (by omega), ne_eq, List.getElem?_eq_none_iff]
    omega
  have hle := List.getElem?_eq_none_iff.1 hnone
  have hge := mt List.getElem?_eq_none_iff.2 hsome
  omega

/-- The attributes that are taken for all three wishes, and the values that are stored. -/
theorem exists_of_stores {taken : List Nat} {result : List Wish}
    (h : Stores expectedList.wishes attributes taken result)
    (hfirst : FirstPlaces expectedNames attributes taken) (hall : taken.length = 3) :
    ∃ p q r number longNumber text n m, taken = [p, q, r] ∧
      attributes[p]? = some (Bytes.ofText "number", number) ∧
      attributes[q]? = some (Bytes.ofText "long_number", longNumber) ∧
      attributes[r]? = some (Bytes.ofText "string", text) ∧
      Decimal.uint32? number = some n ∧ Decimal.uint64? longNumber = some m ∧
      result = [⟨Bytes.ofText "number", .uint n⟩, ⟨Bytes.ofText "long_number", .ulong m⟩,
        ⟨Bytes.ofText "string", .str text⟩] := by
  obtain ⟨p, q, r, rfl⟩ := List.length_eq_three.1 hall
  obtain ⟨⟨name₁, number⟩, hp, hname₁⟩ := hfirst.found 0 p rfl
  obtain ⟨⟨name₂, longNumber⟩, hq, hname₂⟩ := hfirst.found 1 q rfl
  obtain ⟨⟨name₃, text⟩, hr, hname₃⟩ := hfirst.found 2 r rfl
  obtain rfl := Option.some.inj hname₁
  obtain rfl := Option.some.inj hname₂
  obtain rfl := Option.some.inj hname₃
  obtain ⟨value₁, hvalue₁, hresult₁⟩ := h.stored 0 p _ _ rfl rfl hp
  obtain ⟨value₂, hvalue₂, hresult₂⟩ := h.stored 1 q _ _ rfl rfl hq
  obtain ⟨value₃, hvalue₃, hresult₃⟩ := h.stored 2 r _ _ rfl rfl hr
  obtain ⟨n, hn, rfl⟩ := exists_uint_of_read? hvalue₁
  obtain ⟨m, hm, rfl⟩ := exists_ulong_of_read? hvalue₂
  obtain rfl : .str text = value₃ := Option.some.inj hvalue₃
  refine ⟨p, q, r, number, longNumber, text, n, m, rfl, hp, hq, hr, hn, hm, ?_⟩
  refine List.ext_getElem? fun i => ?_
  match i with
  | 0 => exact hresult₁
  | 1 => exact hresult₂
  | 2 => exact hresult₃
  | i + 3 => exact h.kept (i + 3) (Nat.le_add_left 3 i)

/-- **What a lenient scan finds prints as it should.** -/
theorem reports_of_lenient
    (h : LenientScan flags expectedList.wishes expectedList.capture attributes following
      (places expectedNames attributes) r) :
    ∃ found, r.outcome = .ok found ∧ Reports attributes (Record.ofScan found r.list).text ∧
      r.stream.unread = following := by
  have hfirst := firstPlaces_places expectedNames attributes
  have hgreatest := isGreatest_length_places expectedNames attributes
  have hle : (places expectedNames attributes).length ≤ 3 :=
    length_places_le expectedNames attributes
  generalize places expectedNames attributes = taken at *
  rcases Nat.lt_or_eq_of_le hle with hlt | hall
  · have hopen : taken.length < expectedList.wishes.length := hlt
    obtain ⟨houtcome, -, -, hunread⟩ := h.short _ (List.getElem?_eq_getElem hopen)
    refine ⟨taken.length, houtcome, ?_, hunread⟩
    rw [Record.ofScan, Record.text_of_short hlt (length_of_stores h.stores hopen)]
    exact .short hgreatest hlt
  · obtain ⟨p, q, r', number, longNumber, text, n, m, rfl, hp, hq, hr, hn, hm, hresult⟩ :=
      exists_of_stores h.stores hfirst hall
    obtain ⟨table, count, hget, -, houtcome, hcapture, -, hunread⟩ := h.captured .empty rfl rfl
    refine ⟨_, houtcome, ?_, hunread⟩
    rw [Record.ofScan, hcapture, hresult]
    rw [show expectedList.wishes.length = 3 from rfl, Option.getD_some, Record.text_of_full]
    refine .full hfirst hp hq hr hn hm table.sorted fun name => ?_
    exact (hget name).trans (Option.none_or)

/-- **The text of a list is all that its record depends on**: on every stream that begins with it
the scan gives the same and reads past it, and on one that ends before it the scan fails. -/
theorem exists_exact_expected (hextra : flags.extra = false) (h : Printable config attributes) :
    ∃ found list log, Reports attributes (Record.ofScan found list).text ∧
      Exact (scan config flags expectedList) (fun r => Starved r.outcome) (listText attributes)
        fun u => ⟨.ok found, list, log, u⟩ := by
  let s := Stream.bytewise (listText attributes) .closed
  have hs : s.Steady := Stream.steady_bytewise _ _
  have hwire : s.unread = listText attributes ++ [] := by
    rw [Stream.unread_bytewise, List.append_nil]
  obtain ⟨found, houtcome, hreports, hunread⟩ :=
    reports_of_lenient (lenientScan_places hextra hs hwire h.fits h.converts)
  have hexact := exact_scan_of_drained hs.gapless houtcome hunread
  have hanswer : (scan config flags expectedList s).leaving = fun u =>
      ⟨.ok found, (scan config flags expectedList s).list, (scan config flags expectedList s).log,
        u⟩ := by
    funext u
    rw [ScanResult.leaving, houtcome]
  rw [hwire, List.append_nil, hanswer] at hexact
  exact ⟨found, _, _, hreports, hexact⟩

end

end AttributeWire
