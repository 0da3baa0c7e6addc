/-
**What becomes of the destinations.**

However a scan ends, it has stored values for the first of its named wishes, in their order, each
from a later line than the one before; every other destination holds what it held.  A table changes
only once all named wishes are met.  Then it keeps what it held, and each name that is new to it is
bound to its first value among the attributes behind those of the wishes.

This is said of the lines that a scan passes, which are all that it consumes but for the last line.
They are whole lines of the input, unless one is cut: where the input ends within a line that is
skipped, and the end is lifted, the scan goes on in the middle of that line.

Main definitions:

* `Account` — what some lines did to the destinations of a wish list;
* `WishList.bindings` — how many bindings the table holds;
* `Passage` — what the lines that a scan passed did, and what they added to its result;
* `Stream.lifted` — a stream whose input ends for a moment.

Main results:

* `Passage.skip`, `Passage.met`, `Passage.of_capture` — **one line changes one destination** at
  most, and captured lines the table;
* `passage_of_reaches` — what all lines that are passed did;
* `scan_account` — **what a scan did to the destinations**, however it ended;
* `pass_of_lifted`, `not_account_of_lines` — the lines need not be lines of the input.
-/

import AttributeWire.Proofs.Course
import AttributeWire.Proofs.Grammar
import AttributeWire.Proofs.Subsequence
import AttributeWire.Proofs.Whole

set_option relaxedAutoImplicit false
set_option autoImplicit false

namespace AttributeWire

/-! ### Accounts -/

/-- What some lines did to the destinations of a wish list, given the places of those that the named
wishes were met by. -/
structure Account (config : Config) (list : WishList) (texts : List Bytes) (taken : List Nat)
    (final : WishList) : Prop where
  /-- Each place is after those before it. -/
  increasing : taken.Pairwise (· < ·)
  /-- Only named wishes are met. -/
  length_le : taken.length ≤ list.wishes.length
  /-- A wish that was met holds the converted value of an attribute of its name. -/
  stored : ∀ (i place : Nat) (wish : Wish), list.wishes[i]? = some wish → taken[i]? = some place →
    ∃ text value stored, texts[place]? = some text ∧
      AttributeText config (wish.name, value) text ∧ wish.value.read? value = some stored ∧
      final.wishes[i]? = some ⟨wish.name, stored⟩
  /-- Every other wish holds what it held. -/
  kept : ∀ i : Nat, taken.length ≤ i → final.wishes[i]? = list.wishes[i]?
  /-- Nothing is captured before all named wishes are met. -/
  unreached : taken.length < list.wishes.length → final.capture = list.capture
  /-- Then every later line is that of an attribute, and the first value of a new name counts. -/
  captured : taken.length = list.wishes.length → ∀ table, list.capture = some table →
    ∃ pairs table', List.Forall₂ (AttributeText config) pairs (texts.drop (after taken)) ∧
      final.capture = some table' ∧
      ∀ name, table'.get? name = (table.get? name).or (Table.lookup name pairs)
  /-- A list without a table has none in the end. -/
  uncaptured : list.capture = none → final.capture = none

/-- How many bindings the table of a list holds. -/
def WishList.bindings (list : WishList) : Nat := list.capture.elim 0 Table.size

section

variable {config : Config} {flags : Flags} {list list' final : WishList} {s s' : Stream}
  {texts : List Bytes} {taken : List Nat} {gain : Gain} {text value : Bytes} {wish : Wish}
  {wishes : List Wish} {capture : Option Table}

namespace Account

/-- No line changes nothing. -/
theorem refl (config : Config) (list : WishList) : Account config list [] [] list where
  increasing := .nil
  length_le := Nat.zero_le _
  stored i place wish hwish hplace := by simp at hplace
  kept i hi := rfl
  unreached hopen := rfl
  captured hall table htable := ⟨[], table, .nil, htable, fun name => by simp [Table.lookup]⟩
  uncaptured hnone := hnone

/-- A line that is skipped moves the others by one place. -/
theorem skip (h : Account config list texts taken final) (text : Bytes)
    (hnamed : list.wishes = [] → list.capture = none) :
    Account config list (text :: texts) (taken.map (· + 1)) final where
  increasing := by
    rw [List.pairwise_map]
    exact h.increasing.imp fun hlt => Nat.succ_lt_succ hlt
  length_le := by simpa using h.length_le
  stored i place wish hwish hplace := by
    obtain ⟨before, hbefore, rfl⟩ := getElem?_map_succ hplace
    exact h.stored i before wish hwish hbefore
  kept i hi := h.kept i (by simpa using hi)
  unreached hopen := h.unreached (by simpa using hopen)
  captured hall table htable := by
    rw [List.length_map] at hall
    have hne : taken ≠ [] := by
      rintro rfl
      have hnone := hnamed (List.eq_nil_of_length_eq_zero hall.symm)
      rw [hnone] at htable
      simp at htable
    rw [after_map_succ hne, List.drop_succ_cons]
    exact h.captured hall table htable
  uncaptured := h.uncaptured

/-- A line that meets the next wish stands in front of those that the others are met by. -/
theorem met (h : Account config ⟨wishes, capture⟩ texts taken final) {stored : Value}
    (htext : AttributeText config (wish.name, value) text)
    (hstored : wish.value.read? value = some stored) :
    Account config ⟨wish :: wishes, capture⟩ (text :: texts) (0 :: taken.map (· + 1))
      ⟨⟨wish.name, stored⟩ :: final.wishes, final.capture⟩ where
  increasing := by
    refine List.pairwise_cons.2 ⟨by simp, ?_⟩
    rw [List.pairwise_map]
    exact h.increasing.imp fun hlt => Nat.succ_lt_succ hlt
  length_le := by simpa using h.length_le
  stored i place other hother hplace := by
    cases i with
    | zero =>
        obtain rfl : wish = other := by simpa using hother
        obtain rfl : 0 = place := by simpa using hplace
        exact ⟨text, value, stored, rfl, htext, hstored, rfl⟩
    | succ i =>
        rw [List.getElem?_cons_succ] at hplace hother
        obtain ⟨before, hbefore, rfl⟩ := getElem?_map_succ hplace
        exact h.stored i before other hother hbefore
  kept i hi := by
    cases i with
    | zero => simp at hi
    | succ i =>
        rw [List.getElem?_cons_succ, List.getElem?_cons_succ]
        exact h.kept i (by simpa using hi)
  unreached hopen := h.unreached (by simpa using hopen)
  captured hall table htable := by
    have hrest : taken.length = wishes.length := by simpa using hall
    rw [after_zero_cons_map_succ, List.drop_succ_cons]
    exact h.captured hrest table htable
  uncaptured := h.uncaptured

/-- Lines that are captured. -/
theorem gathered {table : Table} {pairs : List (Bytes × Bytes)}
    (h : List.Forall₂ (AttributeText config) pairs texts) :
    Account config ⟨[], some table⟩ texts [] ⟨[], some (table.extend pairs)⟩ where
  increasing := .nil
  length_le := Nat.le_refl _
  stored i place wish hwish hplace := by simp at hplace
  kept i hi := rfl
  unreached hopen := by simp at hopen
  captured hall other hother := by
    obtain rfl := Option.some.inj hother
    exact ⟨pairs, _, h, rfl, Table.get?_extend _ pairs⟩
  uncaptured hnone := by simp at hnone

end Account

/-! ### What the lines did -/

/-- If everything is wanted, nothing is refused. -/
theorem Refuses.capture_eq_none {target : Wanted} {name : Field} {s₁ : Stream}
    (h : Refuses config flags list s target name s₁) (hnil : list.wishes = []) :
    list.capture = none := by
  obtain ⟨wishes, capture⟩ := list
  obtain rfl : wishes = [] := hnil
  cases capture with
  | none => rfl
  | some table =>
      obtain rfl := Option.some.inj h.wanted
      exact absurd (Wanted.accepts_any _) h.refused

/-- What the lines that a scan passed did to the destinations. -/
structure Passage (config : Config) (flags : Flags) (list : WishList) (s : Stream)
    (texts : List Bytes) (taken : List Nat) (gain : Gain) (list' : WishList) (s' : Stream) :
    Prop where
  account : Account config list texts taken ⟨gain.wishes ++ list'.wishes, list'.capture⟩
  consumed : s.unread = texts.flatten ++ s'.unread
  lines : PassedLines config flags list s texts
  counted : gain.count + list.bindings = taken.length + list'.bindings

/-- What is consumed behind a line is consumed with it. -/
theorem unread_flatten_cons (hunread : s.unread = text ++ s'.unread) {s'' : Stream}
    (hrest : s'.unread = texts.flatten ++ s''.unread) :
    s.unread = (text :: texts).flatten ++ s''.unread := by
  rw [hunread, hrest, List.flatten_cons, List.append_assoc]

/-- A line that is skipped changes nothing. -/
theorem Passage.skip {gain' : Gain} {s₁ : Stream} {log : List LogEntry}
    (hpass : Pass config flags list s (.logged log) list s₁)
    (hnamed : list.wishes = [] → list.capture = none)
    (h : Passage config flags list s₁ texts taken gain' list' s') :
    ∃ text, Passage config flags list s (text :: texts) (taken.map (· + 1))
      ((Gain.logged log).append gain') list' s' := by
  obtain ⟨text, htext, hunread⟩ := hpass.unread
  refine ⟨text, h.account.skip text hnamed, unread_flatten_cons hunread h.consumed,
    .cons hpass htext hunread h.lines, ?_⟩
  have hcounted := h.counted
  simp only [Gain.append, Gain.logged, List.length_map]
  omega

/-- A line that meets a wish changes its destination. -/
theorem Passage.met {gain' : Gain} {s₁ : Stream} {log : List LogEntry} {stored : Value}
    {target : Wanted} {name : Field}
    (htakes : Takes config flags ⟨wish :: wishes, capture⟩ s target name value s₁)
    (hstored : wish.value.read? value = some stored)
    (h : Passage config flags ⟨wishes, capture⟩ s₁ texts taken gain' list' s') :
    ∃ text, Passage config flags ⟨wish :: wishes, capture⟩ s (text :: texts)
      (0 :: taken.map (· + 1)) (Gain.append ⟨[⟨wish.name, stored⟩], 1, log⟩ gain') list' s' := by
  obtain ⟨text, htext, hunread⟩ := htakes.unread
  rw [← htakes.name_eq] at htext
  refine ⟨text, h.account.met htext hstored, unread_flatten_cons hunread h.consumed,
    .cons (.met htakes hstored) (.inl htext.isLine) hunread h.lines, ?_⟩
  have hcounted := h.counted
  simp only [WishList.bindings] at hcounted
  simp only [Gain.append, WishList.bindings, List.length_cons, List.length_map]
  omega

/-- A capture changes nothing but its table. -/
theorem Passage.of_capture {table : Table}
    (h : Reaches config flags ⟨[], some table⟩ s gain list' s') :
    ∃ texts, Passage config flags ⟨[], some table⟩ s texts [] gain list' s' := by
  obtain ⟨pairs, texts, htexts, hlines, hunread, rfl, hwishes, hsize, -⟩ := captured_of_reaches h
  refine ⟨texts, ?_, hunread, hlines, ?_⟩
  · rw [hwishes]
    exact .gathered htexts
  · simp only [WishList.bindings, Option.elim_some, List.length_nil]
    omega

/-- **What all lines that are passed did.** -/
theorem passage_of_reaches (h : Reaches config flags list s gain list' s') :
    ∃ texts taken, Passage config flags list s texts taken gain list' s' := by
  induction h with
  | @here list s =>
      exact ⟨[], [], .refl config list, rfl, .nil, by simp [Gain.logged]⟩
  | @pass list list₁ list' s s₁ s' gain gain' hpass hrest ih =>
      obtain ⟨texts, taken, hpassage⟩ := ih
      cases hpass with
      | bare h hextra hend =>
          obtain ⟨text, hskip⟩ := hpassage.skip (.bare h hextra hend) h.capture_eq_none
          exact ⟨_, _, hskip⟩
      | skipped h hextra hend hskip =>
          obtain ⟨text, hskip⟩ := hpassage.skip (.skipped h hextra hend hskip) h.capture_eq_none
          exact ⟨_, _, hskip⟩
      | cut h hextra hend hskip hlifted =>
          obtain ⟨text, hskip⟩ :=
            hpassage.skip (.cut h hextra hend hskip hlifted) h.capture_eq_none
          exact ⟨_, _, hskip⟩
      | met h hstored =>
          obtain ⟨text, hmet⟩ := hpassage.met h hstored
          exact ⟨_, _, hmet⟩
      | captured h hnew =>
          obtain ⟨texts, hcapture⟩ := Passage.of_capture (.pass (.captured h hnew) hrest)
          exact ⟨_, _, hcapture⟩
      | repeated h hextra hold =>
          obtain ⟨texts, hcapture⟩ := Passage.of_capture (.pass (.repeated h hextra hold) hrest)
          exact ⟨_, _, hcapture⟩

/-! ### However the scan ends -/

theorem Sees.withinLine {target : Wanted} {name : Field} {s₁ : Stream}
    (h : Sees config flags list s target name s₁) : WithinLine s s₁ := by
  obtain ⟨raw, hraw, hunread⟩ := h.unread
  exact .of_append hraw.undelimited.newline_not_mem hunread

/-- A step behind the colon of a name stays within the line. -/
theorem Sees.withinLine_colon {target : Wanted} {name : Field} {s₁ u : Stream}
    (h : Sees config flags list s target name s₁) (hend : name.delimiter = .colon)
    (hrest : WithinLine s₁ u) : WithinLine s u := by
  obtain ⟨raw, hraw, hunread⟩ := h.unread
  have hfront : Bytes.newline ∉ raw ++ [Bytes.colon] := by
    have hcolon : Bytes.newline ≠ Bytes.colon := by decide
    simp [hraw.undelimited.newline_not_mem, hcolon]
  refine .after hfront ?_ hrest
  rw [hunread, hend, List.append_assoc]
  rfl

theorem Takes.withinLine {target : Wanted} {name : Field} {s₁ : Stream}
    (h : Takes config flags list s target name value s₁) : WithinLine s s₁ := by
  obtain ⟨text, htext, hunread⟩ := h.unread
  obtain ⟨line, -, hline, rfl⟩ := htext.isLine
  rw [List.append_assoc] at hunread
  exact .of_append hline hunread

/-- A step that fails stays within the line, too. -/
theorem Breakdown.withinLine {e : ScanError} {log : List LogEntry} {u : Stream}
    (h : Breakdown config flags list s e log u) : WithinLine s u := by
  cases h with
  | name hwanted hread => exact withinLine_of_readName hread
  | skip h hextra hend hskip =>
      exact h.toSees.withinLine_colon hend (withinLine_of_skipLine hskip)
  | @cutOff _ _ _ s₂ _ _ _ h hextra hend hskip hover =>
      obtain ⟨front, hfront, hlast⟩ :=
        h.toSees.withinLine_colon hend (withinLine_of_skipLine hskip)
      exact ⟨front, by rw [hfront, Stream.unread_of_access hover], hlast⟩
  | @value _ _ s₁ _ _ name _ _ h hunended haccepts hvalue =>
      cases hend : name.delimiter with
      | newline =>
          -- there is no value to read
          rw [readValue, if_pos hend] at hvalue
          obtain ⟨-, -, rfl⟩ := Attempt.mk.inj hvalue
          exact h.withinLine
      | colon => exact h.withinLine_colon hend (withinLine_of_readValue hvalue)
  | number h hstored => exact h.withinLine

/-- Where it stops, a scan changes no destination, and stays within a line. -/
theorem Stop.keeps {r : ScanResult} (h : Stop config flags list s r) :
    r.list = list ∧ (∀ n, r.outcome = .ok n → n = 0) ∧ WithinLine s r.stream := by
  cases h with
  | left h => exact ⟨rfl, by simp, .of_unread rfl⟩
  | terminator h hterm => exact ⟨rfl, by simp, h.withinLine⟩
  | spurious h hextra => exact ⟨rfl, by simp, h.toSees.withinLine⟩
  | duplicate h hextra hold => exact ⟨rfl, by simp, h.withinLine⟩
  | failed h => exact ⟨rfl, by simp, h.withinLine⟩

/-- **What a scan did to the destinations**, however it ended: some lines were passed, and at most
one line was consumed behind them; and the destinations are as the lines left them.  The lines are
whole unless the scan cut them just there, which it does not do if no piece of data is empty.  The
count is that of the wishes that were met and of the bindings that are new. -/
theorem scan_account (config : Config) (flags : Flags) (list : WishList) (s : Stream) :
    let r := scan config flags list s
    ∃ texts part taken, s.unread = texts.flatten ++ (part ++ r.stream.unread) ∧
      PassedLines config flags list s texts ∧ (s.Gapless → ∀ text ∈ texts, IsLine text) ∧
      Bytes.newline ∉ part.dropLast ∧ Account config list texts taken r.list ∧
      ∀ n, r.outcome = .ok n → n + list.bindings = taken.length + r.list.bindings := by
  intro r
  obtain ⟨gain, list', s', stopped, hreach, hstop, hscan⟩ := exists_course config flags list s
  obtain ⟨texts, taken, hpassage⟩ := passage_of_reaches hreach
  obtain ⟨hlist, hzero, part, hpart, hlast⟩ := hstop.keeps
  have hfinal : r.list = ⟨gain.wishes ++ list'.wishes, list'.capture⟩ := by
    simp only [r, hscan, ScanResult.passed, hlist]
  refine ⟨texts, part, taken, ?_, hpassage.lines, fun hs => hpassage.lines.isLine hs.uncut, hlast,
    ?_, fun n hok => ?_⟩
  · rw [hpassage.consumed, hpart]
    simp only [r, hscan, ScanResult.passed]
  · rw [hfinal]
    exact hpassage.account
  · have hcount : n = gain.count := by
      simp only [r, hscan] at hok
      obtain ⟨m, hm, rfl⟩ := ScanResult.exists_of_passed_ok hok
      rw [hzero m hm, Nat.add_zero]
    have hbindings : r.list.bindings = list'.bindings := by
      rw [hfinal, WishList.bindings, WishList.bindings]
    rw [hcount, hbindings]
    exact hpassage.counted

/-! ### Lines that are cut -/

/-- A stream whose input ends for a moment: two empty pieces, the first of which an access passes
over. -/
def Stream.lifted (front rest : Bytes) (ending : Ending) : Stream :=
  .ofEvents [.data front, .data [], .data [], .data rest] ending

/-- Where the input ends for a moment, so does a line that is skipped. -/
theorem skipLine_of_lifted {part : Bytes} (events : List Event) (ending : Ending)
    (hpart : Bytes.newline ∉ part) :
    skipLine ⟨part, .data [] :: .data [] :: events, ending⟩ =
      (.ok false, .ofEvents events ending) := by
  cases part with
  | nil => exact skipLine_of_end rfl
  | cons b part =>
      have haccess : Stream.access ⟨b :: part, .data [] :: .data [] :: events, ending⟩ =
          (.ok (b :: part), ⟨b :: part, .data [] :: .data [] :: events, ending⟩) := rfl
      have hconsume : Stream.consume (part.length + 1)
          ⟨b :: part, .data [] :: .data [] :: events, ending⟩ =
            ⟨[], .data [] :: .data [] :: events, ending⟩ := by
        simp [Stream.consume]
      rw [skipLine_of_access haccess, breakLine_of_not_mem hpart]
      simp only [hconsume]
      exact skipLine_of_end rfl

/-- **Where the input ends for a moment** within a line that is skipped, the scan goes on in the
middle of the line. -/
theorem pass_of_lifted {target : Wanted} {raw plain part rest : Bytes} (ending : Ending)
    (hwanted : list.wanted? flags = some target) (hraw : WrittenForm config raw plain)
    (hrefused : ¬ target.Accepts plain) (hextra : flags.extra = false)
    (hpart : Bytes.newline ∉ part) (hrest : rest ≠ []) :
    Pass config flags list (.lifted (raw ++ Bytes.colon :: part) rest ending)
      (.logged [.wanted target, .nameRead plain]) list (.ofEvents [.data rest] ending) := by
  have haccess : (Stream.lifted (raw ++ Bytes.colon :: part) rest ending).access =
      Stream.access ⟨raw ++ Bytes.colon :: part, [.data [], .data [], .data rest], ending⟩ := by
    cases raw <;> rfl
  have hread : readName config (.lifted (raw ++ Bytes.colon :: part) rest ending) =
      ⟨.ok ⟨plain, .colon⟩, [.nameRead plain],
        ⟨part, [.data [], .data [], .data rest], ending⟩⟩ := by
    rw [readName_of_access_eq haccess]
    exact readName_front .colon part _ ending hraw
  have hskip := skipLine_of_lifted [.data rest] ending hpart
  have hlifted : ∀ t, (Stream.ofEvents [.data rest] ending).access ≠ (.ok [], t) := by
    obtain ⟨b, bs, rfl⟩ := List.exists_cons_of_ne_nil hrest
    intro t hover
    exact List.cons_ne_nil b bs (Except.ok.inj (Prod.mk.inj hover).1)
  exact .cut ⟨⟨hwanted, hread⟩, not_isTerminator_colon plain, hrefused⟩ hextra rfl hskip hlifted

/-- What stands behind the moment is taken for a line of its own. -/
theorem wishes_of_lifted {flags : Flags} (hextra : flags.extra = false) :
    (scan .standard flags ⟨[⟨[97], .str []⟩], none⟩
      (.lifted (Base64.encode [120] ++ Bytes.colon :: [65, 66]) (listText [([97], [49])])
        .closed)).list.wishes = [⟨[97], .str [49]⟩] := by
  have hraw : WrittenForm .standard (Base64.encode [120]) [120] := ⟨by decide, by decide⟩
  have hname : WrittenForm .standard (Base64.encode [97]) [97] := ⟨by decide, by decide⟩
  have hvalue : WrittenForm .standard (Base64.encode [49]) [49] := ⟨by decide, by decide⟩
  have hwanted : WishList.wanted? flags ⟨[⟨[97], .str []⟩], none⟩ = some (.named [97]) := rfl
  have hcut := pass_of_lifted .closed hwanted hraw (by decide) hextra
    (by decide : Bytes.newline ∉ [65, 66]) (by decide : listText [([97], [49])] ≠ [])
  have hsteady : (Stream.ofEvents [.data (listText [([97], [49])])] .closed).Steady :=
    Stream.steady_ofEvents (by decide : ∀ piece ∈ [listText [([97], [49])]], piece ≠ []) .closed
  have hahead : (Stream.ofEvents [.data (listText [([97], [49])])] .closed).ahead =
      Base64.encode [97] ++ Bytes.colon :: (Base64.encode [49] ++ [Bytes.newline]) ++
        [Bytes.newline] := by
    decide
  obtain ⟨s', htakes, -⟩ := takes_of_ahead hwanted (Wanted.accepts_named.2 rfl) hsteady.gapless
    hname hvalue hahead
  have hmet := Pass.met htakes (rfl : Value.read? (.str []) [49] = some (.str [49]))
  have hnil : (scan .standard flags ⟨[], none⟩ s').list = ⟨[], none⟩ := by
    rw [scan_nil_none]
    simp only [finish]
    split <;> rfl
  rw [Stream.lifted] at hcut
  rw [Stream.lifted, scan_of_pass hcut, scan_of_pass hmet]
  simp only [ScanResult.passed, hnil]
  rfl

/-- The lines need not be lines of the input: the value that was stored stands behind the name of
another attribute. -/
theorem not_account_of_lines :
    ¬ ∀ (config : Config) (flags : Flags) (list : WishList) (s : Stream),
      let r := scan config flags list s
      ∃ texts part taken, s.unread = texts.flatten ++ (part ++ r.stream.unread) ∧
        (∀ text ∈ texts, IsLine text) ∧ Account config list texts taken r.list := by
  intro h
  obtain ⟨texts, part, taken, hconsumed, hlines, haccount⟩ :=
    h .standard ⟨false, false, false⟩ ⟨[⟨[97], .str []⟩], none⟩
      (.lifted (Base64.encode [120] ++ Bytes.colon :: [65, 66]) (listText [([97], [49])]) .closed)
  have hfinal := wishes_of_lifted (rfl : Flags.extra ⟨false, false, false⟩ = false)
  have hwire : (Stream.lifted (Base64.encode [120] ++ Bytes.colon :: [65, 66])
      (listText [([97], [49])]) .closed).unread =
        Base64.encode [120] ++ Bytes.colon ::
          ([65, 66] ++ Base64.encode [97] ++ Bytes.colon :: Base64.encode [49]) ++
            Bytes.newline :: [Bytes.newline] := by
    decide
  have hfront : Bytes.newline ∉ Base64.encode [120] ++ Bytes.colon ::
      ([65, 66] ++ Base64.encode [97] ++ Bytes.colon :: Base64.encode [49]) := by
    decide
  cases taken with
  | nil =>
      have hkept := haccount.kept 0 (Nat.zero_le _)
      rw [hfinal] at hkept
      simp at hkept
  | cons place taken =>
      obtain ⟨text, value, stored, htext, hattribute, -, -⟩ := haccount.stored 0 place _ rfl rfl
      cases texts with
      | nil => simp at htext
      | cons first texts =>
          -- the first line of the input has the name of the other attribute
          obtain ⟨line, -, hline, rfl⟩ := hlines first List.mem_cons_self
          rw [hwire, List.flatten_cons, List.append_assoc (line ++ [Bytes.newline]),
            List.append_assoc line, List.singleton_append] at hconsumed
          obtain ⟨rfl, hrest⟩ := eq_of_line_append hfront hline hconsumed
          cases place with
          | zero =>
              obtain rfl := Option.some.inj htext
              rw [List.append_assoc, List.cons_append] at hattribute
              exact absurd hattribute.name_eq (by decide)
          | succ place =>
              -- behind it only the empty line is left
              obtain ⟨raw, raw', -, -, rfl⟩ := hattribute
              rw [List.getElem?_cons_succ] at htext
              have hlong := (List.sublist_flatten_of_mem (List.mem_of_getElem? htext)).length_le
              have hlen := congrArg List.length hrest
              simp only [List.length_append, List.length_cons, List.length_nil] at hlong hlen
              omega

end

end AttributeWire
