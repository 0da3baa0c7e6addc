/-
**What stands for no time.**

A number of seconds is rounded to nanoseconds, and so is nothing if it is at most half a nanosecond;
a whole number is not rounded to nothing, unless it is zero.  A text in words adds up to nothing
just if it has no digit but zeros: each number counts with a unit that is longer than nothing, and a
fraction that is not zero has to come out even.

Main definitions:

* `Binary64.WithinHalfNanosecond` — a number of seconds that is rounded to no time;
* `Binary64.Nonzero` — an infinity, or a number that is not zero;
* `Duration.Reading.amount` — what counts of the numbers read so far.

Main results:

* `roundHalfEven_eq_zero_iff` — **what is rounded to nothing** is at most a half;
* `Binary64.ofRatio_of_pos` — **a whole number but zero** is not rounded to zero;
* `Duration.ofFloatSeconds_eq_zero_iff` — **which numbers of seconds stand for no time**;
* `Duration.Reading.amount_step`, `Duration.Reading.amount_run` — **one character**, and a whole
  text;
* `Duration.ofWords_eq_zero_iff` — **which words stand for no time**.
-/

import AttributeWire.Duration.Seconds
import AttributeWire.Proofs.Words

set_option relaxedAutoImplicit false
set_option autoImplicit false

namespace AttributeWire

/-! ### Rounding to nothing -/

theorem le_roundHalfEven (num den : Nat) : num / den ≤ roundHalfEven num den := by
  unfold roundHalfEven
  dsimp only
  split
  · exact Nat.le_refl _
  · split
    · exact Nat.le_succ _
    · split
      · exact Nat.le_refl _
      · exact Nat.le_succ _

/-- **What is rounded to nothing** is at most a half. -/
theorem roundHalfEven_eq_zero_iff {num den : Nat} (h : 0 < den) :
    roundHalfEven num den = 0 ↔ 2 * num ≤ den := by
  by_cases hsmall : num < den
  · unfold roundHalfEven
    rw [Nat.div_eq_of_lt hsmall, Nat.mod_eq_of_lt hsmall]
    dsimp only
    split
    · rename_i hbelow
      exact iff_of_true rfl (Nat.le_of_lt hbelow)
    · split
      · rename_i habove
        exact iff_of_false (by decide) (Nat.not_le.2 habove)
      · rename_i habove
        exact iff_of_true rfl (Nat.not_lt.1 habove)
  · have hpos : 0 < num / den := Nat.div_pos (Nat.not_lt.1 hsmall) h
    have hle := le_roundHalfEven num den
    exact iff_of_false (by omega) (by omega)

namespace Binary64

/-- The number of seconds is at most half a nanosecond. -/
def WithinHalfNanosecond : Binary64 → Prop
  | finite _ significand exponent =>
      2 * (significand * Duration.second * numPow 2 exponent) ≤ denPow 2 exponent
  | _ => False

theorem floorLog2_le (num : Nat) : floorLog2 num 1 ≤ Nat.log2 num := by
  have hone : Nat.log2 1 = 0 := by decide
  unfold floorLog2
  dsimp only
  rw [hone]
  split <;> omega

/-- An infinity, or a number that is not zero, of one sign. -/
inductive Nonzero (negative : Bool) : Binary64 → Prop
  | infinity : Nonzero negative (.infinity negative)
  | finite (significand : Nat) (exponent : Int) (h : 0 < significand) :
      Nonzero negative (.finite negative significand exponent)

/-- A significand that is not zero is not lost in keeping the number. -/
theorem ofRounded_of_pos {negative : Bool} {significand : Nat} {exponent : Int}
    (h : 0 < significand) : Nonzero negative (ofRounded negative significand exponent) := by
  unfold ofRounded
  by_cases hfull : significand = 2 * leastNormal
  · rw [if_pos hfull]
    dsimp only
    split
    · exact .infinity
    · exact .finite _ _ (by decide)
  · rw [if_neg hfull]
    dsimp only
    split
    · exact .infinity
    · exact .finite _ _ h

/-- **A whole number but zero** is not rounded to zero. -/
theorem ofRatio_of_pos {negative : Bool} {num : Nat} (h : 0 < num) :
    Nonzero negative (ofRatio negative num 1) := by
  rw [ofRatio, if_neg (Nat.ne_of_gt h)]
  apply ofRounded_of_pos
  generalize hscale : max (floorLog2 num 1 - 52) (-1074) = scale
  have hsmall : scale.toNat ≤ Nat.log2 num := by
    have hfloor := floorLog2_le num
    omega
  -- the power of two that the number is divided by is not larger than the number
  have hle : 1 * numPow 2 scale ≤ num * denPow 2 scale := by
    have hpow : 2 ^ scale.toNat ≤ num :=
      Nat.le_trans (Nat.pow_le_pow_right (by decide) hsmall) (Nat.log2_self_le (Nat.ne_of_gt h))
    have hden : 0 < denPow 2 scale := Nat.pow_pos (by decide)
    rw [Nat.one_mul]
    exact Nat.le_trans hpow (Nat.le_mul_of_pos_right num hden)
  have hpos : 0 < 1 * numPow 2 scale := by
    rw [Nat.one_mul]
    exact Nat.pow_pos (by decide)
  exact Nat.lt_of_lt_of_le (Nat.div_pos hle hpos) (le_roundHalfEven _ _)

end Binary64

namespace Duration

/-! ### Numbers of seconds -/

theorem eq_zero_iff (d : Duration) : d = zero ↔ d.nanoseconds = 0 :=
  (nanoseconds_injective.eq_iff (b := zero)).symm

theorem nanoseconds_ofSeconds (seconds : UInt64) :
    (ofSeconds seconds).nanoseconds = seconds.toNat * second := rfl

theorem nanoseconds_of_ofNanoseconds? {n : Nat} {d : Duration} (h : ofNanoseconds? n = some d) :
    d.nanoseconds = n := by
  unfold ofNanoseconds? at h
  split at h
  · exact congrArg nanoseconds (Option.some.inj h).symm
  · cases h

/-- **Which numbers of seconds stand for no time.** -/
theorem ofFloatSeconds_eq_zero_iff {value : Binary64} {d : Duration}
    (h : ofFloatSeconds value = .ok d) : d = zero ↔ value.WithinHalfNanosecond := by
  cases value with
  | nan => cases h
  | infinity negative => cases h
  | finite negative significand exponent =>
      have hden : 0 < Binary64.denPow 2 exponent := Nat.pow_pos (by decide)
      rw [ofFloatSeconds] at h
      split at h
      · cases h
      · dsimp only at h
        split at h
        · rename_i duration hrounded
          obtain rfl := Except.ok.inj h
          rw [eq_zero_iff, nanoseconds_of_ofNanoseconds? hrounded, roundHalfEven_eq_zero_iff hden]
          rfl
        · cases h

/-! ### Durations in words -/

theorem nanoseconds_of_ofSum {n : Nat} {d : Duration} (h : ofSum n = .ok d) :
    d.nanoseconds = n := by
  unfold ofSum at h
  split at h
  · rename_i sum hsum
    exact Except.ok.inj h ▸ nanoseconds_of_ofNanoseconds? hsum
  · cases h

/-- What is added is so many times the length. -/
theorem nanoseconds_of_addScaled {d d' : Duration} {count : Nat} {scale : Scale}
    (h : d.addScaled count scale = .ok d') :
    d'.nanoseconds = d.nanoseconds + count * scale.span := by
  cases scale with
  | nanoseconds size =>
      rw [addScaled] at h
      split at h
      · cases h
      · exact nanoseconds_of_ofSum h
  | seconds size =>
      rw [addScaled] at h
      rw [nanoseconds_of_ofSum h, Nat.mul_assoc]
      rfl

theorem span_scale_pos (unit : TimeUnit) : 0 < unit.scale.span := by
  cases unit <;> decide

/-- A sum is zero only if all that went into it is. -/
theorem addScaled_eq_zero_iff {d d' : Duration} {count : Nat} {scale : Scale}
    (hpos : 0 < scale.span) (h : d.addScaled count scale = .ok d') :
    d'.nanoseconds = 0 ↔ d.nanoseconds = 0 ∧ count = 0 := by
  rw [nanoseconds_of_addScaled h, Nat.add_eq_zero_iff, Nat.mul_eq_zero]
  simp [Nat.ne_of_gt hpos]

theorem addFraction_eq_zero_iff {d d' : Duration} {fraction : Fraction} {unit : TimeUnit}
    (h : d.addFraction fraction unit = .ok d') :
    d'.nanoseconds = 0 ↔ d.nanoseconds = 0 ∧ fraction.numerator = 0 := by
  -- a fraction that comes out even is zero only if its digits are
  have heven {size : Nat} (hpos : 0 < size)
      (hmod : ¬ fraction.numerator * size % fraction.denominator ≠ 0) :
      fraction.numerator * size / fraction.denominator = 0 ↔ fraction.numerator = 0 := by
    have hsplit := Nat.div_add_mod (fraction.numerator * size) fraction.denominator
    rw [not_not.1 hmod, Nat.add_zero] at hsplit
    constructor
    · intro hzero
      rw [hzero, Nat.mul_zero] at hsplit
      exact (Nat.mul_eq_zero.1 hsplit.symm).resolve_right (Nat.ne_of_gt hpos)
    · intro hzero
      rw [hzero, Nat.zero_mul, Nat.zero_div]
  have hscale : ∀ scale, unit.fractionScale = some scale → 0 < scale.span := by
    cases unit <;> rintro scale ⟨⟩ <;> decide
  unfold addFraction at h
  split at h
  · cases h
  · rename_i size hsize
    split_ifs at h with hlarge hmod
    have hpos : 0 < size := hscale _ hsize
    rw [addScaled_eq_zero_iff (by decide) h, heven hpos hmod]
  · rename_i size hsize
    have hpos : 0 < size := Nat.pos_of_mul_pos_right (hscale _ hsize)
    split_ifs at h with hlarge hmod
    rw [addScaled_eq_zero_iff (by decide) h, heven hpos hmod]

/-- The digits of a fraction as a number; without a fraction, zero. -/
def digitsOf (fraction : Option Fraction) : Nat := (fraction.map Fraction.numerator).getD 0

theorem addNamed_eq_zero_iff {d d' : Duration} {number : Nat} {fraction : Option Fraction}
    {name : List Char} (h : d.addNamed number fraction name = .ok d') :
    d'.nanoseconds = 0 ↔ d.nanoseconds + number + digitsOf fraction = 0 := by
  unfold addNamed at h
  split at h
  · cases h
  · split at h
    · cases h
    · rename_i unit hunit
      split at h
      · cases h
      · rename_i sum hsum
        obtain rfl := Except.ok.inj h
        rw [addScaled_eq_zero_iff (span_scale_pos unit) hsum]
        simp [digitsOf]
      · rename_i sum fraction hsum
        rw [addFraction_eq_zero_iff h, addScaled_eq_zero_iff (span_scale_pos unit) hsum]
        simp [digitsOf]

/-- What counts of the numbers read so far, in a phase. -/
def Phase.amount : Phase → Nat
  | .expecting _ _ => 0
  | .number value => value
  | .fraction value digits _ => value + digitsOf (some digits)
  | .unit value digits _ => value + digitsOf digits

/-- What counts of the numbers read so far: it is zero just if all of them are. -/
def Reading.amount (r : Reading) : Nat := r.sum.nanoseconds + r.phase.amount

theorem eq_of_word? {n m : Nat} (h : word? n = .ok m) : m = n := by
  unfold word? at h
  split at h
  · exact (Except.ok.inj h).symm
  · cases h

theorem numerator_of_push {f f' : Fraction} {digit : Nat} (h : f.push digit = .ok f') :
    f'.numerator = f.numerator * 10 + digit := by
  unfold Fraction.push at h
  split at h
  · rename_i denominator numerator hden hnum
    obtain rfl := Except.ok.inj h
    exact eq_of_word? hnum
  · cases h

/-- A digit is zero just if it is the character for zero. -/
theorem digit?_eq_some {c : Char} {digit : Nat} (h : digit? c = some digit) :
    c.isDigit = true ∧ (digit = 0 ↔ c = '0') := by
  unfold digit? at h
  split at h
  · rename_i hdigit
    refine ⟨hdigit, ?_⟩
    obtain rfl := Option.some.inj h
    constructor
    · intro hzero
      have hle : '0'.toNat ≤ c.toNat := by
        simp only [Char.isDigit, Bool.and_eq_true, decide_eq_true_eq] at hdigit
        exact UInt32.le_iff_toNat_le.1 hdigit.1
      have heq : c.toNat = '0'.toNat := Nat.le_antisymm (Nat.sub_eq_zero_iff_le.1 hzero) hle
      exact Char.toNat_inj.1 heq
    · rintro rfl
      rfl
  · cases h

theorem isDigit_of_digit?_eq_none {c : Char} (h : digit? c = none) : c.isDigit = false := by
  unfold digit? at h
  split at h
  · cases h
  · rename_i hdigit
    simpa using hdigit

namespace Reading

variable {r r' : Reading} {d : Duration} {offset : Nat} {c : Char}

/-- A digit counts in the number or the fraction that it belongs to. -/
theorem amount_digit {digit : Nat} (hdigit : digit? c = some digit)
    (h : r.step offset c = .ok r') : r'.amount = 0 ↔ r.amount = 0 ∧ digit = 0 := by
  obtain ⟨sum, phase⟩ := r
  cases phase with
  | expecting start first =>
      simp only [step, hdigit, Except.ok.injEq] at h
      subst h
      exact Nat.add_eq_zero_iff
  | number value =>
      simp only [step, hdigit] at h
      cases hword : word? (value * 10 + digit) with
      | error e => simp [hword, Except.map] at h
      | ok next =>
          simp only [hword, Except.map, Except.ok.injEq] at h
          subst h
          obtain rfl := eq_of_word? hword
          simp only [amount, Phase.amount]
          omega
  | fraction value digits noticed =>
      simp only [step, hdigit] at h
      cases hpush : digits.push digit with
      | error e => simp [hpush, Except.map] at h
      | ok next =>
          simp only [hpush, Except.map, Except.ok.injEq] at h
          subst h
          have hnumerator := numerator_of_push hpush
          simp only [amount, Phase.amount, digitsOf, Option.map_some, Option.getD_some]
          omega
  | unit value digits name =>
      simp only [step, hdigit] at h
      cases hadd : sum.addNamed value digits name with
      | error e => simp [hadd, Except.map] at h
      | ok next =>
          simp only [hadd, Except.map, Except.ok.injEq] at h
          subst h
          have hsum := addNamed_eq_zero_iff hadd
          simp only [amount, Phase.amount]
          omega

/-- Any other character leaves the numbers as they are, or adds them up. -/
theorem amount_other (hdigit : digit? c = none) (h : r.step offset c = .ok r') :
    r'.amount = 0 ↔ r.amount = 0 := by
  obtain ⟨sum, phase⟩ := r
  cases phase with
  | expecting start first =>
      simp only [step, hdigit] at h
      split at h
      · rw [← Except.ok.inj h]
      · cases h
  | number value =>
      simp only [step, hdigit] at h
      split_ifs at h
      · rw [← Except.ok.inj h]
      · rw [← Except.ok.inj h]
        rfl
      · rw [← Except.ok.inj h]
        rfl
  | fraction value digits noticed =>
      simp only [step, hdigit] at h
      split_ifs at h
      · rw [← Except.ok.inj h]
        rfl
      · rw [← Except.ok.inj h]
        rfl
  | unit value digits name =>
      simp only [step, hdigit] at h
      split_ifs at h
      · cases hadd : sum.addNamed value digits name with
        | error e => simp [hadd, Except.map] at h
        | ok next =>
            simp only [hadd, Except.map, Except.ok.injEq] at h
            subst h
            have hsum := addNamed_eq_zero_iff hadd
            rwa [Nat.add_assoc] at hsum
      · rw [← Except.ok.inj h]
        rfl

/-- **One character** leaves nothing to count just if nothing counted before, and it is no digit but
zero. -/
theorem amount_step (h : r.step offset c = .ok r') :
    r'.amount = 0 ↔ r.amount = 0 ∧ (c.isDigit = true → c = '0') := by
  cases hdigit : digit? c with
  | some digit =>
      obtain ⟨hisDigit, hzero⟩ := digit?_eq_some hdigit
      rw [amount_digit hdigit h, hzero]
      simp [hisDigit]
  | none =>
      have hother := isDigit_of_digit?_eq_none hdigit
      rw [amount_other hdigit h]
      simp [hother]

/-- At the end of the text the sum is zero just if nothing counted. -/
theorem amount_finish (h : r.finish = .ok d) : d.nanoseconds = 0 ↔ r.amount = 0 := by
  obtain ⟨sum, phase⟩ := r
  cases phase with
  | expecting start first =>
      simp only [finish] at h
      split at h
      · cases h
      · rw [← Except.ok.inj h]
        rfl
  | number value => cases h
  | fraction value digits noticed =>
      simp only [finish] at h
      split at h <;> cases h
  | unit value digits name =>
      rw [addNamed_eq_zero_iff h, Nat.add_assoc]
      rfl

/-- **A whole text** adds up to nothing just if it has no digit but zeros. -/
theorem amount_run {text : List Char} (h : r.run offset text = .ok d) :
    d.nanoseconds = 0 ↔ r.amount = 0 ∧ ∀ c ∈ text, c.isDigit = true → c = '0' := by
  induction text generalizing r offset with
  | nil => simpa using amount_finish h
  | cons c text ih =>
      rw [run] at h
      split at h
      · rename_i next hstep
        rw [ih h, amount_step hstep, List.forall_mem_cons, and_assoc]
      · cases h

end Reading

/-- **Which words stand for no time**: those that have no digit but zeros. -/
theorem ofWords_eq_zero_iff {text : List Char} {d : Duration} (h : ofWords text = .ok d) :
    d = zero ↔ ∀ c ∈ text, c.isDigit = true → c = '0' := by
  unfold ofWords at h
  split at h
  · rename_i hlone
    subst hlone
    exact iff_of_true (Except.ok.inj h).symm (by simp)
  · rw [eq_zero_iff, Reading.amount_run h]
    exact and_iff_right rfl

end Duration

end AttributeWire
