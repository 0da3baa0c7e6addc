/-
**Durations in words are read back.**

A duration is written as a sequence of parts, each of them a number with the name of a unit, without
those that are zero.  Reading goes through a part without looking at its position, and adds up what
the parts stand for.  On the way no number and no sum is beyond what a duration holds, since no part
is longer than the whole; and the parts are the remainders of one division after the other, so that
they add up to the duration, to the nanosecond.

Main definitions:

* `Part`, `Part.span`, `Part.Readable` — so many of a unit, how long that is, and what is asked of
  it;
* `addAll` — a duration and some parts added up;
* `Reading.Leads` — characters that lead a reader from one place to another;
* `amounts` — the parts of a duration, also those that are zero.

Main results:

* `addAll_of_readable` — **parts within the bounds are added up**;
* `leads_part`, `run_parts` — **reading parts adds them up**;
* `sum_span_amounts` — **the parts of a duration add up to it**;
* `ofWords_words` — **a duration in words is read back**.
-/

import AttributeWire.Duration.Units
import AttributeWire.Proofs.Text
import Mathlib.Algebra.GroupWithZero.Nat
import Mathlib.Data.Bool.AllAny
import Mathlib.Data.List.Forall2

set_option relaxedAutoImplicit false
set_option autoImplicit false

namespace AttributeWire

/-! ### Digits -/

namespace Decimal

theorem toList_toString (n : Nat) : (toString n).toList = (digits n).map Nat.digitChar := by
  show n.repr.toList = (digits n).map Nat.digitChar
  rw [Nat.repr_eq_ofList_toDigits, String.toList_ofList, toDigits_eq]

theorem le_valueFrom (n : Nat) (ds : List Nat) : n ≤ valueFrom n ds := by
  induction ds generalizing n with
  | nil => exact Nat.le_refl n
  | cons d ds ih =>
      have hrest := ih (n * 10 + d)
      rw [valueFrom]
      omega

end Decimal

/-- How many nanoseconds a length is. -/
def Scale.span : Scale → Nat
  | .nanoseconds count => count
  | .seconds count => count * Duration.second

namespace Duration

theorem digit?_digitChar : ∀ d < 10, digit? (Nat.digitChar d) = some d := by decide

/-! ### Names of units -/

/-- What holds of all names in the table holds of a name that was found. -/
theorem of_ofName? {P : String → Prop}
    (hall : ∀ entry ∈ TimeUnit.names, ∀ name ∈ entry.2, P name) {name : String} {unit : TimeUnit}
    (h : TimeUnit.ofName? name = some unit) : P name := by
  rw [TimeUnit.ofName?, Option.map_eq_some_iff] at h
  obtain ⟨entry, hfind, -⟩ := h
  have hname := List.find?_some hfind
  exact hall entry (List.mem_of_find?_eq_some hfind) name (List.contains_iff_mem.1 hname)

/-- A character that goes on with a name, and so is neither a digit nor a blank. -/
def IsNameChar (c : Char) : Prop :=
  isUnitChar c = true ∧ digit? c = none ∧ Blank.isBlank c = false

instance (c : Char) : Decidable (IsNameChar c) :=
  inferInstanceAs (Decidable (isUnitChar c = true ∧ digit? c = none ∧ Blank.isBlank c = false))

theorem chars_of_names : ∀ entry ∈ TimeUnit.names, ∀ name ∈ entry.2, name.toList ≠ [] ∧
    ∀ c ∈ name.toList, IsNameChar c := by
  simp only [← List.all_iff_forall_prop]
  decide

/-! ### Parts -/

/-- So many of a unit, under one of its names. -/
structure Part where
  /-- How many. -/
  count : Nat
  /-- The unit. -/
  unit : TimeUnit
  /-- The name it goes by. -/
  name : String

namespace Part

/-- The part as it is written. -/
def text (part : Part) : String := toString part.count ++ part.name

/-- How long the part is, in nanoseconds. -/
def span (part : Part) : Nat := part.count * part.unit.scale.span

/-- The part can be read: the name is one of the unit, the number has 64 bits, and in the units
below the second it is less than a second. -/
structure Readable (part : Part) : Prop where
  named : TimeUnit.ofName? part.name = some part.unit
  bounded : part.count < UInt64.size
  small : ∀ size, part.unit.scale = .nanoseconds size → part.count * size < second

theorem Readable.of_seconds {count size : Nat} {unit : TimeUnit} {name : String}
    (hname : TimeUnit.ofName? name = some unit) (hscale : unit.scale = .seconds size)
    (h : count < UInt64.size) : Readable ⟨count, unit, name⟩ where
  named := hname
  bounded := h
  small := by
    intro size' hscale'
    exact nomatch hscale.symm.trans hscale'

theorem Readable.of_nanoseconds {count size : Nat} {unit : TimeUnit} {name : String}
    (hname : TimeUnit.ofName? name = some unit) (hscale : unit.scale = .nanoseconds size)
    (hpos : 0 < size) (h : count * size < second) : Readable ⟨count, unit, name⟩ where
  named := hname
  bounded := by
    have hcount : count ≤ count * size := Nat.le_mul_of_pos_right count hpos
    have hsecond : second < UInt64.size := by decide
    exact Nat.lt_of_le_of_lt hcount (Nat.lt_trans h hsecond)
  small := by
    intro size' hscale'
    cases hscale.symm.trans hscale'
    exact h

end Part

theorem nanoseconds_injective : Function.Injective Duration.nanoseconds := by
  rintro ⟨n, _⟩ ⟨m, _⟩ rfl
  rfl

/-- A duration and some parts added up. -/
def addAll (d : Duration) : List Part → Except DurationError Duration
  | [] => .ok d
  | part :: parts =>
      match d.addNamed part.count none part.name.toList with
      | .ok d => d.addAll parts
      | .error e => .error e

section

variable {d : Duration} {part : Part} {parts : List Part}

theorem ofSum_of_lt {n : Nat} (h : n < UInt64.size * second) : ofSum n = .ok ⟨n, h⟩ := by
  rw [ofSum, ofNanoseconds?, dif_pos h]

theorem addScaled_of_lt {count : Nat} {scale : Scale}
    (hsum : d.nanoseconds + count * scale.span < UInt64.size * second)
    (hsmall : ∀ size, scale = .nanoseconds size → count * size < second) :
    d.addScaled count scale = .ok ⟨d.nanoseconds + count * scale.span, hsum⟩ := by
  cases scale with
  | nanoseconds size =>
      have hroom : ¬ UInt64.size ≤ d.subsecond + count * size := by
        have hcount := hsmall size rfl
        have hpart : d.subsecond < second := Nat.mod_lt _ (by decide)
        have htwice : second + second ≤ UInt64.size := by decide
        omega
      rw [addScaled, if_neg hroom]
      exact ofSum_of_lt hsum
  | seconds size =>
      simp only [Scale.span, ← Nat.mul_assoc] at hsum ⊢
      rw [addScaled, ofSum_of_lt hsum]

theorem addNamed_of_readable (h : part.Readable)
    (hsum : d.nanoseconds + part.span < UInt64.size * second) :
    d.addNamed part.count none part.name.toList = .ok ⟨d.nanoseconds + part.span, hsum⟩ := by
  rw [addNamed, if_neg (of_ofName? chars_of_names h.named).1, String.ofList_toList, h.named]
  simp only [addScaled_of_lt hsum h.small]
  rfl

/-- **Parts within the bounds are added up.** -/
theorem addAll_of_readable (h : ∀ part ∈ parts, part.Readable)
    (hsum : d.nanoseconds + (parts.map Part.span).sum < UInt64.size * second) :
    d.addAll parts = .ok ⟨d.nanoseconds + (parts.map Part.span).sum, hsum⟩ := by
  induction parts generalizing d with
  | nil => rfl
  | cons part parts ih =>
      obtain ⟨hpart, hothers⟩ := List.forall_mem_cons.1 h
      simp only [List.map_cons, List.sum_cons, ← Nat.add_assoc] at hsum ⊢
      have hfirst : d.nanoseconds + part.span < UInt64.size * second :=
        Nat.lt_of_le_of_lt (Nat.le_add_right _ _) hsum
      rw [addAll, addNamed_of_readable hpart hfirst]
      exact ih hothers hsum

end

/-! ### Reading parts -/

namespace Reading

/-- Reading some characters leads from one place to another, at whatever position they stand and
whatever follows them. -/
def Leads (r : Reading) (chars : List Char) (r' : Reading) : Prop :=
  ∀ (offset : Nat) (rest : List Char),
    ∃ offset', r.run offset (chars ++ rest) = r'.run offset' rest

section

variable {r r' r'' : Reading} {c : Char} {chars more : List Char}

theorem Leads.refl (r : Reading) : r.Leads [] r := fun offset _ => ⟨offset, rfl⟩

theorem Leads.trans (h : r.Leads chars r') (h' : r'.Leads more r'') :
    r.Leads (chars ++ more) r'' := by
  intro offset rest
  obtain ⟨offset₁, hrun⟩ := h offset (more ++ rest)
  obtain ⟨offset₂, hrun'⟩ := h' offset₁ rest
  exact ⟨offset₂, by rw [List.append_assoc, hrun, hrun']⟩

theorem Leads.cons (hstep : ∀ offset, r.step offset c = .ok r') (h : r'.Leads chars r'') :
    r.Leads (c :: chars) r'' := by
  intro offset rest
  obtain ⟨offset', hrun⟩ := h (offset + c.utf8Size) rest
  refine ⟨offset', ?_⟩
  rw [List.cons_append, run, hstep]
  exact hrun

end

variable {sum : Duration}

/-- More digits of a number. -/
theorem leads_digits {ds : List Nat} (hds : ∀ d ∈ ds, d < 10) {value : Nat}
    (h : Decimal.valueFrom value ds < UInt64.size) :
    Leads ⟨sum, .number value⟩ (ds.map Nat.digitChar)
      ⟨sum, .number (Decimal.valueFrom value ds)⟩ := by
  induction ds generalizing value with
  | nil => exact .refl _
  | cons d ds ih =>
      obtain ⟨hd, hrest⟩ := List.forall_mem_cons.1 hds
      have hvalue : value * 10 + d < UInt64.size :=
        Nat.lt_of_le_of_lt (Decimal.le_valueFrom _ ds) h
      refine Leads.cons (fun offset => ?_) (ih hrest h)
      simp only [step, digit?_digitChar d hd, word?, if_pos hvalue]
      rfl

/-- A whole number. -/
theorem leads_count {n : Nat} (h : n < UInt64.size) (start : Nat) (first : Bool) :
    Leads ⟨sum, .expecting start first⟩ (toString n).toList ⟨sum, .number n⟩ := by
  have hvalue := Decimal.value_digits n
  have hds := fun d (hmem : d ∈ Decimal.digits n) => Decimal.lt_ten_of_mem_digits hmem
  obtain ⟨d, ds, hcons⟩ := List.exists_cons_of_ne_nil (Decimal.digits_ne_nil n)
  rw [hcons] at hvalue hds
  obtain ⟨hd, hrest⟩ := List.forall_mem_cons.1 hds
  rw [Decimal.value, Decimal.valueFrom, Nat.zero_mul, Nat.zero_add] at hvalue
  rw [Decimal.toList_toString, hcons, List.map_cons, ← hvalue]
  refine Leads.cons (fun offset => ?_) (leads_digits hrest (hvalue ▸ h))
  simp only [step, digit?_digitChar d hd]

/-- More characters of a name. -/
theorem leads_unit {chars : List Char} (h : ∀ c ∈ chars, IsNameChar c) (value : Nat)
    (fraction : Option Fraction) (name : List Char) :
    Leads ⟨sum, .unit value fraction name⟩ chars ⟨sum, .unit value fraction (name ++ chars)⟩ := by
  induction chars generalizing name with
  | nil =>
      rw [List.append_nil]
      exact .refl _
  | cons c chars ih =>
      obtain ⟨⟨hunit, hdigit, hblank⟩, hrest⟩ := List.forall_mem_cons.1 h
      have hlater := ih hrest (name ++ [c])
      rw [List.append_assoc, List.singleton_append] at hlater
      refine Leads.cons (fun offset => ?_) hlater
      simp [step, hdigit, hblank, hunit]

/-- **A part** is read up to the end of its name. -/
theorem leads_part {part : Part} (h : part.Readable) (sum : Duration) (start : Nat) (first : Bool) :
    Leads ⟨sum, .expecting start first⟩ part.text.toList
      ⟨sum, .unit part.count none part.name.toList⟩ := by
  obtain ⟨hne, hchars⟩ := of_ofName? chars_of_names h.named
  obtain ⟨c, chars, hname⟩ := List.exists_cons_of_ne_nil hne
  rw [hname] at hchars
  obtain ⟨⟨hunit, hdigit, hblank⟩, hrest⟩ := List.forall_mem_cons.1 hchars
  rw [Part.text, String.toList_append, hname]
  refine (leads_count h.bounded start first).trans ?_
  refine Leads.cons (fun offset => ?_) (leads_unit hrest part.count none [c])
  simp [step, hdigit, hblank, hunit]

/-- **Reading parts adds them up.** -/
theorem run_parts {parts : List Part} (hne : parts ≠ []) (h : ∀ part ∈ parts, part.Readable)
    (sum : Duration) (start : Nat) (first : Bool) (offset : Nat) :
    run ⟨sum, .expecting start first⟩ offset (" ".intercalate (parts.map Part.text)).toList =
      sum.addAll parts := by
  induction parts generalizing sum start first offset with
  | nil => exact absurd rfl hne
  | cons part parts ih =>
      obtain ⟨hpart, hothers⟩ := List.forall_mem_cons.1 h
      cases parts with
      | nil =>
          obtain ⟨offset', hrun⟩ := leads_part hpart sum start first offset []
          rw [List.append_nil] at hrun
          have hfinish : run ⟨sum, .unit part.count none part.name.toList⟩ offset' [] =
              sum.addNamed part.count none part.name.toList := rfl
          rw [List.map_singleton, String.intercalate_singleton, hrun, hfinish, addAll]
          cases sum.addNamed part.count none part.name.toList <;> rfl
      | cons next parts =>
          have htext : (" ".intercalate ((part :: next :: parts).map Part.text)).toList =
              part.text.toList ++
                ' ' :: (" ".intercalate ((next :: parts).map Part.text)).toList := by
            simp [String.intercalate_cons_cons]
          obtain ⟨offset', hrun⟩ := leads_part hpart sum start first offset
            (' ' :: (" ".intercalate ((next :: parts).map Part.text)).toList)
          have hblank : digit? ' ' = none ∧ Blank.isBlank ' ' = true := by decide
          rw [htext, hrun, run, addAll]
          simp only [step, hblank.1, hblank.2]
          cases sum.addNamed part.count none part.name.toList with
          | error e => rfl
          | ok sum => exact ih (List.cons_ne_nil next parts) hothers sum _ _ _

end Reading

/-! ### The parts of a duration -/

/-- The name of a unit in the plural, unless there is one. -/
def pluralName (count : Nat) (name : String) : String := name ++ if count = 1 then "" else "s"

/-- The parts of a duration, the largest unit first, also those that are zero. -/
def amounts (d : Duration) : List Part :=
  let inYear := d.seconds % 31557600
  let inMonth := inYear % 2630016
  let inDay := inMonth % 86400
  [⟨d.seconds / 31557600, .year, pluralName (d.seconds / 31557600) "year"⟩,
    ⟨inYear / 2630016, .month, pluralName (inYear / 2630016) "month"⟩,
    ⟨inMonth / 86400, .day, pluralName (inMonth / 86400) "day"⟩,
    ⟨inDay / 3600, .hour, "h"⟩, ⟨inDay % 3600 / 60, .minute, "m"⟩, ⟨inDay % 60, .second, "s"⟩,
    ⟨d.subsecond / 1000000, .millisecond, "ms"⟩, ⟨d.subsecond / 1000 % 1000, .microsecond, "us"⟩,
    ⟨d.subsecond % 1000, .nanosecond, "ns"⟩]

/-- What is picked from two lists is the same if the lists agree place by place. -/
theorem map_filter_eq_of_forall₂ {α β γ : Type} {p : α → Bool} {q : β → Bool} {f : α → γ}
    {g : β → γ} {as : List α} {bs : List β}
    (h : List.Forall₂ (fun a b => p a = q b ∧ f a = g b) as bs) :
    (as.filter p).map f = (bs.filter q).map g := by
  induction h with
  | nil => rfl
  | @cons a b as bs hab _ ih =>
      obtain ⟨hp, hf⟩ := hab
      rw [List.filter_cons, List.filter_cons, hp]
      split <;> simp [hf, ih]

/-- What is written are the parts that are not zero. -/
theorem parts_eq (d : Duration) :
    d.parts = (d.amounts.filter fun part => part.count ≠ 0).map Part.text := by
  have hplural (count : Nat) (unit : TimeUnit) (name : String) :
      pluralPart count name = Part.text ⟨count, unit, pluralName count name⟩ := by
    rw [pluralPart, Part.text, pluralName, String.append_assoc]
  have hsplit : d.amounts = d.amounts.take 3 ++ d.amounts.drop 3 := (List.take_append_drop ..).symm
  rw [hsplit, List.filter_append, List.map_append, parts]
  congr 1
  · exact map_filter_eq_of_forall₂ (.cons ⟨rfl, hplural _ .year _⟩
      (.cons ⟨rfl, hplural _ .month _⟩ (.cons ⟨rfl, hplural _ .day _⟩ .nil)))
  · exact map_filter_eq_of_forall₂ (.cons ⟨rfl, rfl⟩ (.cons ⟨rfl, rfl⟩ (.cons ⟨rfl, rfl⟩
      (.cons ⟨rfl, rfl⟩ (.cons ⟨rfl, rfl⟩ (.cons ⟨rfl, rfl⟩ .nil))))))

theorem ofName?_pluralName {name : String} {unit : TimeUnit}
    (hone : TimeUnit.ofName? name = some unit) (hmany : TimeUnit.ofName? (name ++ "s") = some unit)
    (count : Nat) : TimeUnit.ofName? (pluralName count name) = some unit := by
  rw [pluralName]
  split
  · rwa [String.append_empty]
  · exact hmany

/-- The numbers of the parts are small, since no part is longer than the whole. -/
theorem readable_amounts (d : Duration) : ∀ part ∈ d.amounts, part.Readable := by
  have hseconds := d.seconds_lt
  have hsubsecond : d.subsecond < second := Nat.mod_lt _ (by decide)
  rw [amounts]
  generalize d.seconds = s at *
  generalize d.subsecond = n at *
  simp only [List.forall_mem_cons]
  refine ⟨.of_seconds (ofName?_pluralName rfl rfl _) rfl ?_,
    .of_seconds (ofName?_pluralName rfl rfl _) rfl ?_,
    .of_seconds (ofName?_pluralName rfl rfl _) rfl ?_, .of_seconds rfl rfl ?_,
    .of_seconds rfl rfl ?_, .of_seconds rfl rfl ?_, .of_nanoseconds rfl rfl (by decide) ?_,
    .of_nanoseconds rfl rfl (by decide) ?_, .of_nanoseconds rfl rfl (by decide) ?_,
    List.forall_mem_nil _⟩
  all_goals omega

/-- How long the parts are together, whatever their numbers are. -/
theorem sum_span (years months days hours minutes secs millis micros nanos : Nat)
    (year month day : String) :
    ([⟨years, .year, year⟩, ⟨months, .month, month⟩, ⟨days, .day, day⟩, ⟨hours, .hour, "h"⟩,
      ⟨minutes, .minute, "m"⟩, ⟨secs, .second, "s"⟩, ⟨millis, .millisecond, "ms"⟩,
      ⟨micros, .microsecond, "us"⟩, ⟨nanos, .nanosecond, "ns"⟩].map Part.span).sum =
        (years * 31557600 + months * 2630016 + days * 86400 + hours * 3600 + minutes * 60 + secs) *
          second + (millis * 1000000 + micros * 1000 + nanos) := by
  -- the numbers stay open: unfolding the divisions behind them would not end
  have hspans : [⟨years, .year, year⟩, ⟨months, .month, month⟩, ⟨days, .day, day⟩,
      ⟨hours, .hour, "h"⟩, ⟨minutes, .minute, "m"⟩, ⟨secs, .second, "s"⟩,
      ⟨millis, .millisecond, "ms"⟩, ⟨micros, .microsecond, "us"⟩,
      ⟨nanos, .nanosecond, "ns"⟩].map Part.span =
        [years * (31557600 * second), months * (2630016 * second), days * (86400 * second),
          hours * (3600 * second), minutes * (60 * second), secs * (1 * second), millis * 1000000,
          micros * 1000, nanos * 1] := rfl
  rw [hspans, List.sum_cons, List.sum_cons, List.sum_cons, List.sum_cons, List.sum_cons,
    List.sum_cons, List.sum_cons, List.sum_cons, List.sum_singleton, second]
  omega

/-- Seconds are divided by one unit after the other, each time what is left by the next one. -/
theorem seconds_split (s : Nat) :
    s / 31557600 * 31557600 + s % 31557600 / 2630016 * 2630016 +
      s % 31557600 % 2630016 / 86400 * 86400 + s % 31557600 % 2630016 % 86400 / 3600 * 3600 +
      s % 31557600 % 2630016 % 86400 % 3600 / 60 * 60 + s % 31557600 % 2630016 % 86400 % 60 =
        s := by
  omega

theorem subsecond_split (n : Nat) :
    n / 1000000 * 1000000 + n / 1000 % 1000 * 1000 + n % 1000 = n := by
  omega

/-- **The parts of a duration add up to it.** -/
theorem sum_span_amounts (d : Duration) : (d.amounts.map Part.span).sum = d.nanoseconds := by
  rw [amounts, sum_span, seconds_split, subsecond_split, seconds_mul_add_subsecond]

/-- Parts that are zero do not count. -/
theorem sum_span_filter (parts : List Part) :
    ((parts.filter fun part => part.count ≠ 0).map Part.span).sum = (parts.map Part.span).sum := by
  induction parts with
  | nil => rfl
  | cons part parts ih =>
      by_cases hzero : part.count = 0
      · rw [List.filter_cons_of_neg (by simp [hzero]), ih, List.map_cons, List.sum_cons, Part.span,
          hzero, Nat.zero_mul, Nat.zero_add]
      · rw [List.filter_cons_of_pos (by simp [hzero]), List.map_cons, List.map_cons, List.sum_cons,
          List.sum_cons, ih]

/-! ### Durations in words -/

/-- **A duration in words is read back.** -/
theorem ofWords_words (d : Duration) : ofWords d.words.toList = .ok d := by
  by_cases hzero : d = zero
  · rw [words, if_pos hzero, hzero]
    rfl
  · let written := d.amounts.filter fun part => part.count ≠ 0
    have hreadable : ∀ part ∈ written, part.Readable :=
      fun part hmem => d.readable_amounts part (List.mem_of_mem_filter hmem)
    have hsum : (written.map Part.span).sum = d.nanoseconds :=
      (sum_span_filter d.amounts).trans d.sum_span_amounts
    have hne : written ≠ [] := by
      intro hnil
      rw [hnil] at hsum
      exact hzero (nanoseconds_injective hsum.symm)
    have hbound : zero.nanoseconds + (written.map Part.span).sum < UInt64.size * second := by
      have hstart : zero.nanoseconds = 0 := rfl
      rw [hsum, hstart, Nat.zero_add]
      exact d.bounded
    have hrun : Reading.run ⟨zero, .expecting 0 true⟩ 0 d.words.toList = .ok d := by
      rw [words, if_neg hzero, parts_eq, Reading.run_parts hne hreadable,
        addAll_of_readable hreadable hbound]
      exact congrArg _ (nanoseconds_injective ((Nat.zero_add _).trans hsum))
    have hlone : d.words.toList ≠ ['0'] := by
      intro heq
      rw [heq] at hrun
      exact nomatch (hrun : Except.error (DurationError.missingUnit 0) = .ok d)
    rw [ofWords, if_neg hlone, hrun]

end Duration

end AttributeWire
