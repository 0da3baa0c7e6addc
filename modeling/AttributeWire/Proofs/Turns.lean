/-
**A scan takes one turn for each name it asks for.**

A scan can be told entry by entry, without asking first whether the entries form a list: in each
turn it asks for one name, and then goes on or is over.  Such a walk has a turn of its own for an
attribute that is taken for the end of the list, and would be stuck there; no turn ends so.  Every
turn but the last consumes a byte at least, so there are not more turns than bytes that are
consumed, and one.

Main definitions:

* `Walk`, `Turn` — a scan between two names, and how one turn ends;
* `Walk.turn`, `Walk.Runs` — one turn, and all of them;
* `asked` — for how many names a log says that they were asked for.

Main results:

* `Walk.turn_proper` — **a turn goes on behind its name, or is over, and is never stuck**;
* `Walk.Runs.bounded` — **there are as many turns as names**, and not many more than bytes;
* `Walk.turn_of_pass`, `Walk.runs_of_stop` — **each line that a scan passes is a turn**;
* `scan_ends` — **every scan ends**, after so many names.
-/

import AttributeWire.Proofs.Destinations
import AttributeWire.Proofs.Drafts

set_option relaxedAutoImplicit false
set_option autoImplicit false

namespace AttributeWire

/-! ### Turns -/

/-- A scan between two names. -/
structure Walk where
  /-- The entries that are met, with the values that were stored. -/
  met : List Entry
  /-- The entries that are left; the first of them is what is looked for. -/
  left : List Entry
  /-- How many attributes were taken. -/
  count : Nat
  /-- What was logged. -/
  log : List LogEntry
  /-- The stream. -/
  stream : Stream

/-- How one turn of a scan ends. -/
inductive Turn where
  /-- The scan goes on. -/
  | on (walk : Walk)
  /-- The scan is over. -/
  | over (outcome : Except ScanError Nat) (walk : Walk)
  /-- An attribute was taken for the end of the list, and there is no place for it. -/
  | stuck

/-- The name is what the entry looks for: any name for a capture, and else the one that is fixed. -/
def Entry.Matches : Entry → Bytes → Prop
  | .capture _, _ => True
  | .named wish, name => (Entry.named wish).wanted.name? = some name
  | .terminator, name => Entry.terminator.wanted.name? = some name

instance : (entry : Entry) → (name : Bytes) → Decidable (entry.Matches name)
  | .capture _, _ => inferInstanceAs (Decidable True)
  | .named wish, name =>
      inferInstanceAs (Decidable ((Entry.named wish).wanted.name? = some name))
  | .terminator, name => inferInstanceAs (Decidable (Entry.terminator.wanted.name? = some name))

namespace Walk

/-- Before the first name. -/
def start (entries : List Entry) (s : Stream) : Walk := ⟨[], entries, 0, [], s⟩

/-- The same after something else was logged and read. -/
def past (walk : Walk) (log : List LogEntry) (s : Stream) : Walk :=
  { walk with log := walk.log ++ log, stream := s }

/-- The rest of a turn behind a name that is taken for what the first entry looks for. -/
def receive (config : Config) (flags : Flags) (walk : Walk) (entry : Entry) (rest : List Entry)
    (name : Field) : Turn :=
  match entry with
  | .named wish =>
      match readValue config wish.value.kindText name walk.stream with
      | ⟨.error e, log, s⟩ => .over (.error e) (walk.past log s)
      | ⟨.ok value, log, s⟩ =>
          match wish.value.read? value with
          | none => .over (.error (.malformedNumber (value.take echoLength))) (walk.past log s)
          | some stored =>
              .on ⟨walk.met ++ [.named ⟨wish.name, stored⟩], rest, walk.count + 1,
                walk.log ++ log, s⟩
  | .capture table =>
      match readValue config "string" name walk.stream with
      | ⟨.error e, log, s⟩ => .over (.error e) (walk.past log s)
      | ⟨.ok value, log, s⟩ =>
          match table.get? name.plain with
          | some _ =>
              if flags.extra then
                .over (.ok walk.count) (walk.past (log ++ [.duplicate name.plain]) s)
              else .on (walk.past log s)
          | none =>
              .on ⟨walk.met, .capture (table.insert name.plain value) :: rest, walk.count + 1,
                walk.log ++ log, s⟩
  | .terminator => .stuck

/-- One turn: asks for a name, and does with it what the first entry says. -/
def turn (config : Config) (flags : Flags) (walk : Walk) : Turn :=
  match walk.left with
  | [] => .over (.ok walk.count) walk
  | entry :: rest =>
      if entry = .terminator ∧ flags.more = true then .over (.ok walk.count) walk
      else
        match readName config walk.stream with
        | ⟨.error e, log, s⟩ => .over (.error e) (walk.past (.wanted entry.wanted :: log) s)
        | ⟨.ok name, log, s⟩ =>
            let log := .wanted entry.wanted :: log
            if name.IsTerminator then
              .over (.ok walk.count) (walk.past (log ++ entry.wanted.missingWarning flags) s)
            else if entry.Matches name.plain then
              receive config flags (walk.past log s) entry rest name
            else if flags.extra then
              .over (.ok walk.count) (walk.past (log ++ [.spurious name.plain]) s)
            else if name.delimiter = .newline then .on (walk.past log s)
            else
              match skipLine s with
              | (.error fault, s) => .over (.error (.ofFault config fault)) (walk.past log s)
              | (.ok _, s) => .on (walk.past log s)

/-- The walk is over after so many turns. -/
inductive Runs (config : Config) (flags : Flags) : Walk → Nat → Except ScanError Nat → Walk → Prop
  | last {walk final : Walk} {outcome : Except ScanError Nat}
      (h : walk.turn config flags = .over outcome final) : Runs config flags walk 1 outcome final
  | next {walk walk' final : Walk} {n : Nat} {outcome : Except ScanError Nat}
      (h : walk.turn config flags = .on walk') (hrest : Runs config flags walk' n outcome final) :
      Runs config flags walk (n + 1) outcome final

end Walk

/-! ### Names that are asked for -/

/-- The entry says that a name was asked for. -/
def LogEntry.isWanted : LogEntry → Bool
  | .wanted _ => true
  | _ => false

/-- For how many names a log says that they were asked for. -/
def asked (log : List LogEntry) : Nat := log.countP LogEntry.isWanted

section

variable {config : Config} {flags : Flags} {log log' : List LogEntry}

@[simp] theorem asked_append : asked (log ++ log') = asked log + asked log' :=
  List.countP_append

@[simp] theorem asked_wanted_cons (target : Wanted) :
    asked (.wanted target :: log) = asked log + 1 := List.countP_cons_of_pos rfl

@[simp] theorem asked_missingWarning (target : Wanted) :
    asked (target.missingWarning flags) = 0 := by
  cases target with
  | named name => rw [Wanted.missingWarning]; split <;> rfl
  | any => rfl
  | terminator => rfl

theorem asked_of_readName {answer : Except ScanError Field} {s s₁ : Stream}
    (h : readName config s = ⟨answer, log, s₁⟩) : asked log = 0 := by
  cases answer with
  | error e => rw [readName_error_log h]; rfl
  | ok name => rw [(unread_of_readName h).1]; rfl

theorem asked_of_readValue {kind : String} {name : Field} {answer : Except ScanError Bytes}
    {s s₁ : Stream} (h : readValue config kind name s = ⟨answer, log, s₁⟩) : asked log = 0 := by
  unfold readValue at h
  split at h
  · rw [← (Attempt.mk.inj h).2.1]; rfl
  · split at h <;> (rw [← (Attempt.mk.inj h).2.1]; rfl)

end

/-! ### What one turn does -/

/-- The turn is not stuck.  If the walk goes on, then one name was asked for and something was
consumed; if it is over, at most one name was asked for. -/
inductive Turn.Proper (walk : Walk) : Turn → Prop
  | on {next : Walk} (hread : next.stream.unread <:+ walk.stream.unread)
      (hless : next.stream.unread.length < walk.stream.unread.length)
      (hasked : asked next.log = asked walk.log + 1) : Proper walk (.on next)
  | over {outcome : Except ScanError Nat} {final : Walk}
      (hread : final.stream.unread <:+ walk.stream.unread)
      (hasked : asked final.log ≤ asked walk.log + 1) : Proper walk (.over outcome final)

namespace Walk

variable {config : Config} {flags : Flags} {walk : Walk} {entry : Entry} {rest : List Entry}
  {name : Field} {s : Stream} {log : List LogEntry}

/-- What a turn does behind the name is proper if the name was asked for and consumed. -/
theorem receive_proper (hmatches : entry.Matches name.plain)
    (hread : s.unread <:+ walk.stream.unread) (hless : s.unread.length < walk.stream.unread.length)
    (hasked : asked log = 1) :
    (receive config flags (walk.past log s) entry rest name).Proper walk := by
  have behind {kind : String} {answer : Except ScanError Bytes} {log' : List LogEntry} {u : Stream}
      (h : readValue config kind name s = ⟨answer, log', u⟩) :
      u.unread <:+ walk.stream.unread ∧ u.unread.length < walk.stream.unread.length ∧
        asked (walk.log ++ log ++ log') = asked walk.log + 1 := by
    have hsuffix := (withinLine_of_readValue h).suffix
    have hnone := asked_of_readValue h
    exact ⟨hsuffix.trans hread, Nat.lt_of_le_of_lt hsuffix.length_le hless, by simp [hasked, hnone]⟩
  cases entry with
  | terminator => exact absurd hmatches (by simp [Entry.Matches, Entry.wanted, Wanted.name?])
  | named wish =>
      rcases hvalue : readValue config wish.value.kindText name s with ⟨e | value, log', u⟩
      · obtain ⟨hread', -, hasked'⟩ := behind hvalue
        simp only [receive, past, hvalue]
        exact .over hread' (Nat.le_of_eq hasked')
      · obtain ⟨hread', hless', hasked'⟩ := behind hvalue
        simp only [receive, past, hvalue]
        cases wish.value.read? value with
        | none => exact .over hread' (Nat.le_of_eq hasked')
        | some stored => exact .on hread' hless' hasked'
  | capture table =>
      rcases hvalue : readValue config "string" name s with ⟨e | value, log', u⟩
      · obtain ⟨hread', -, hasked'⟩ := behind hvalue
        simp only [receive, past, hvalue]
        exact .over hread' (Nat.le_of_eq hasked')
      · obtain ⟨hread', hless', hasked'⟩ := behind hvalue
        have hwarned : asked [.duplicate name.plain] = 0 := rfl
        simp only [receive, past, hvalue]
        cases table.get? name.plain with
        | none => exact .on hread' hless' hasked'
        | some old =>
            simp only
            split
            · refine .over hread' (Nat.le_of_eq ?_)
              rw [← List.append_assoc, asked_append, hasked', hwarned]
            · exact .on hread' hless' hasked'

/-- **A turn goes on behind its name, or is over, and is never stuck.** -/
theorem turn_proper (config : Config) (flags : Flags) (walk : Walk) :
    (walk.turn config flags).Proper walk := by
  obtain ⟨met, left, count, log, s⟩ := walk
  cases left with
  | nil => exact .over List.suffix_rfl (Nat.le_succ _)
  | cons entry rest =>
      simp only [turn]
      split
      · exact .over List.suffix_rfl (Nat.le_succ _)
      · rcases hname : readName config s with ⟨e | name, log', s₁⟩
        · exact .over (withinLine_of_readName hname).suffix
            (by simp [past, asked_of_readName hname])
        · have hread := (withinLine_of_readName hname).suffix
          have hless := length_unread_readName hname
          have hnone := asked_of_readName hname
          have hlast : asked [.spurious name.plain] = 0 := rfl
          simp only
          split
          · exact .over hread (by simp [past, hnone])
          · split
            · rename_i hmatches
              exact receive_proper hmatches hread hless (by simp [hnone])
            · split
              · exact .over hread (by simp [past, hnone, hlast])
              · split
                · exact .on hread hless (by simp [past, hnone])
                · rcases hskip : skipLine s₁ with ⟨fault | whole, s₂⟩
                  · have hsuffix := (withinLine_of_skipLine hskip).suffix
                    exact .over (hsuffix.trans hread) (by simp [past, hnone])
                  · have hsuffix := (withinLine_of_skipLine hskip).suffix
                    exact .on (hsuffix.trans hread) (Nat.lt_of_le_of_lt hsuffix.length_le hless)
                      (by simp [past, hnone])

theorem turn_ne_stuck (config : Config) (flags : Flags) (walk : Walk) :
    walk.turn config flags ≠ .stuck := by
  intro hstuck
  have hproper := turn_proper config flags walk
  rw [hstuck] at hproper
  cases hproper

/-- **There are as many turns as names that are asked for**, but that the last may ask for none, and
at most one more than bytes that are consumed. -/
theorem Runs.bounded {n : Nat} {outcome : Except ScanError Nat} {final : Walk}
    (h : Runs config flags walk n outcome final) :
    ∃ consumed, walk.stream.unread = consumed ++ final.stream.unread ∧ n ≤ consumed.length + 1 ∧
      asked final.log ≤ asked walk.log + n := by
  induction h with
  | @last walk final outcome h =>
      have hproper := turn_proper config flags walk
      rw [h] at hproper
      obtain _ | ⟨⟨consumed, hconsumed⟩, hasked⟩ := hproper
      exact ⟨consumed, hconsumed.symm, Nat.succ_le_succ (Nat.zero_le _), hasked⟩
  | @next walk walk' final n outcome h hrest ih =>
      have hproper := turn_proper config flags walk
      rw [h] at hproper
      obtain ⟨⟨first, hfirst⟩, hless, hasked⟩ | _ := hproper
      obtain ⟨consumed, hconsumed, hbound, hasked'⟩ := ih
      refine ⟨first ++ consumed, ?_, ?_, by omega⟩
      · rw [← hfirst, hconsumed, List.append_assoc]
      · have hpos : 0 < first.length := by
          rw [← hfirst, List.length_append] at hless
          omega
        rw [List.length_append]
        omega

end Walk

/-! ### Turns and lines -/

theorem Entry.matches_iff {entry : Entry} {name : Bytes} :
    entry.Matches name ↔ entry.wanted.Accepts name := by
  cases entry <;> simp [Matches, wanted, Wanted.name?]

/-- While a scan looks for something, the first entry that is left says for what. -/
theorem WishList.exists_entry {flags : Flags} {list : WishList} {target : Wanted}
    (h : list.wanted? flags = some target) :
    ∃ entry rest, list.toEntries = entry :: rest ∧ entry.wanted = target ∧
      ¬ (entry = .terminator ∧ flags.more = true) := by
  obtain ⟨_ | ⟨wish, wishes⟩, capture⟩ := list
  · cases capture with
    | none =>
        by_cases hmore : flags.more = true
        · simp [wanted?, hmore] at h
        · rw [wanted?, if_neg hmore] at h
          exact ⟨.terminator, [], rfl, Option.some.inj h, fun hend => hmore hend.2⟩
    | some table => exact ⟨.capture table, [.terminator], rfl, Option.some.inj h, by simp⟩
  · exact ⟨.named wish, _, rfl, Option.some.inj h, by simp⟩

namespace Walk

variable {config : Config} {flags : Flags} {list list' : WishList} {s s' s₁ : Stream}
  {target : Wanted} {name : Field} {gain : Gain} {r : ScanResult}

/-- The turn of a walk that sees a name. -/
theorem turn_of_sees (met : List Entry) (count : Nat) (log : List LogEntry)
    (h : Sees config flags list s target name s₁) :
    ∃ entry rest, list.toEntries = entry :: rest ∧ entry.wanted = target ∧
      let walk : Walk :=
        ⟨met, list.toEntries, count, log ++ [.wanted target, .nameRead name.plain], s₁⟩
      turn config flags ⟨met, list.toEntries, count, log, s⟩ =
        if name.IsTerminator then .over (.ok count) (walk.past (target.missingWarning flags) s₁)
        else if target.Accepts name.plain then receive config flags walk entry rest name
        else if flags.extra then .over (.ok count) (walk.past [.spurious name.plain] s₁)
        else if name.delimiter = .newline then .on walk
        else
          match skipLine s₁ with
          | (.error fault, s₂) => .over (.error (.ofFault config fault)) (walk.past [] s₂)
          | (.ok _, s₂) => .on (walk.past [] s₂) := by
  obtain ⟨entry, rest, hentries, rfl, hmore⟩ := WishList.exists_entry h.wanted
  refine ⟨entry, rest, hentries, rfl, ?_⟩
  simp only [turn, hentries, if_neg hmore, h.read, Entry.matches_iff, past, List.append_assoc,
    List.append_nil, List.cons_append, List.nil_append]

/-- The rest of the turn of a walk that takes an attribute. -/
theorem turn_of_takes (met : List Entry) (count : Nat) (log : List LogEntry) {value : Bytes}
    (h : Takes config flags list s target name value s') :
    ∃ entry rest s₁, list.toEntries = entry :: rest ∧ entry.wanted = target ∧
      readValue config list.kindText name s₁ = ⟨.ok value, [.valueRead value], s'⟩ ∧
      turn config flags ⟨met, list.toEntries, count, log, s⟩ =
        receive config flags
          ⟨met, list.toEntries, count, log ++ [.wanted target, .nameRead name.plain], s₁⟩
          entry rest name := by
  obtain ⟨s₁, hsees, hvalue⟩ := h.sees
  obtain ⟨entry, rest, hentries, hwanted, hturn⟩ := turn_of_sees met count log hsees
  refine ⟨entry, rest, s₁, hentries, hwanted, hvalue, ?_⟩
  rw [hturn, if_neg (not_isTerminator_of_readValue hvalue), if_pos h.accepts]

/-- The turn of a walk that cannot read a name. -/
theorem turn_of_readName_error (met : List Entry) (count : Nat) (log : List LogEntry)
    {e : ScanError} (hwanted : list.wanted? flags = some target)
    (h : readName config s = ⟨.error e, [], s'⟩) :
    turn config flags ⟨met, list.toEntries, count, log, s⟩ =
      .over (.error e) ⟨met, list.toEntries, count, log ++ [.wanted target], s'⟩ := by
  obtain ⟨entry, rest, hentries, rfl, hmore⟩ := WishList.exists_entry hwanted
  simp only [turn, hentries, if_neg hmore, h, past]

/-- The turn of a walk that looks for nothing any more. -/
theorem turn_of_not_wanted (met : List Entry) (count : Nat) (log : List LogEntry)
    (h : list.wanted? flags = none) :
    turn config flags ⟨met, list.toEntries, count, log, s⟩ =
      .over (.ok count) ⟨met, list.toEntries, count, log, s⟩ := by
  obtain ⟨_ | ⟨wish, wishes⟩, _ | table⟩ := list
  · have hmore : flags.more = true := by
      simpa [WishList.wanted?] using h
    exact if_pos ⟨rfl, hmore⟩
  · cases h
  · cases h
  · cases h

/-- The rest of the turn of a walk that cannot read the value. -/
theorem receive_of_readValue_error {walk : Walk} {entry : Entry} {rest : List Entry} {e : ScanError}
    {log : List LogEntry} (hentries : list.toEntries = entry :: rest)
    (haccepts : entry.wanted.Accepts name.plain)
    (h : readValue config list.kindText name walk.stream = ⟨.error e, log, s'⟩) :
    receive config flags walk entry rest name = .over (.error e) (walk.past log s') := by
  obtain ⟨_ | ⟨wish, wishes⟩, _ | table⟩ := list
  · obtain ⟨rfl, rfl⟩ := List.cons.inj hentries
    exact absurd haccepts (Wanted.not_accepts_terminator _)
  all_goals
    obtain ⟨rfl, rfl⟩ := List.cons.inj hentries
    rw [WishList.kindText] at h
    simp only [receive, h]

/-- **Each line that a scan passes is a turn.** -/
theorem turn_of_pass (met : List Entry) (count : Nat) (log : List LogEntry)
    (h : Pass config flags list s gain list' s') :
    turn config flags ⟨met, list.toEntries, count, log, s⟩ =
      .on ⟨met ++ gain.wishes.map .named, list'.toEntries, count + gain.count, log ++ gain.log,
        s'⟩ := by
  cases h with
  | bare h hextra hend =>
      obtain ⟨entry, rest, -, -, hturn⟩ := turn_of_sees met count log h.toSees
      rw [hturn, if_neg h.unended, if_neg h.refused, hextra, if_neg Bool.false_ne_true, if_pos hend]
      simp [Gain.logged]
  | skipped h hextra hend hskip =>
      obtain ⟨entry, rest, -, -, hturn⟩ := turn_of_sees met count log h.toSees
      rw [hturn, if_neg h.unended, if_neg h.refused, hextra, if_neg Bool.false_ne_true, hend,
        if_neg (by simp), hskip]
      simp [Gain.logged, past]
  | cut h hextra hend hskip hlifted =>
      obtain ⟨entry, rest, -, -, hturn⟩ := turn_of_sees met count log h.toSees
      rw [hturn, if_neg h.unended, if_neg h.refused, hextra, if_neg Bool.false_ne_true, hend,
        if_neg (by simp), hskip]
      simp [Gain.logged, past]
  | @met wish wishes capture _ _ target name value stored h hstored =>
      obtain ⟨entry, rest, s₁, hentries, -, hvalue, hturn⟩ := turn_of_takes met count log h
      obtain ⟨rfl, rfl⟩ := List.cons.inj hentries
      change readValue config wish.value.kindText name s₁ = _ at hvalue
      simp only [hturn, receive, hvalue, hstored]
      simp [WishList.toEntries, WishList.holders]
  | captured h hnew =>
      obtain ⟨entry, rest, s₁, hentries, -, hvalue, hturn⟩ := turn_of_takes met count log h
      obtain ⟨rfl, rfl⟩ := List.cons.inj hentries
      change readValue config "string" _ s₁ = _ at hvalue
      simp only [hturn, receive, hvalue, hnew]
      simp [WishList.toEntries, WishList.holders]
  | repeated h hextra hold =>
      obtain ⟨entry, rest, s₁, hentries, -, hvalue, hturn⟩ := turn_of_takes met count log h
      obtain ⟨old, hold⟩ := Option.isSome_iff_exists.1 hold
      obtain ⟨rfl, rfl⟩ := List.cons.inj hentries
      change readValue config "string" _ s₁ = _ at hvalue
      simp only [hturn, receive, hvalue, hold, hextra, if_neg Bool.false_ne_true]
      simp [Gain.logged, past]

/-- **Where a scan stops**, the walk is over after a turn or two. -/
theorem runs_of_stop (met : List Entry) (count : Nat) (log : List LogEntry)
    (h : Stop config flags list s r) :
    ∃ n, Runs config flags ⟨met, list.toEntries, count, log, s⟩ n (r.outcome.map (count + ·))
      ⟨met, list.toEntries, count, log ++ r.log, r.stream⟩ := by
  cases h with
  | left h =>
      refine ⟨1, .last ?_⟩
      rw [turn_of_not_wanted met count log h]
      simp [Except.map]
  | terminator h hterm =>
      obtain ⟨entry, rest, -, -, hturn⟩ := turn_of_sees met count log h
      refine ⟨1, .last ?_⟩
      rw [hturn, if_pos hterm]
      simp [past, Except.map]
  | spurious h hextra =>
      obtain ⟨entry, rest, -, -, hturn⟩ := turn_of_sees met count log h.toSees
      refine ⟨1, .last ?_⟩
      rw [hturn, if_neg h.unended, if_neg h.refused, if_pos hextra]
      simp [past, Except.map]
  | duplicate h hextra hold =>
      obtain ⟨entry, rest, s₁, hentries, -, hvalue, hturn⟩ := turn_of_takes met count log h
      obtain ⟨old, hold⟩ := Option.isSome_iff_exists.1 hold
      obtain ⟨rfl, rfl⟩ := List.cons.inj hentries
      change readValue config "string" _ s₁ = _ at hvalue
      refine ⟨1, .last ?_⟩
      simp only [hturn, receive, hvalue, hold, if_pos hextra]
      simp [past, Except.map]
  | failed h =>
      cases h with
      | name hwanted hread => exact ⟨1, .last (turn_of_readName_error met count log hwanted hread)⟩
      | skip h hextra hend hskip =>
          obtain ⟨entry, rest, -, -, hturn⟩ := turn_of_sees met count log h.toSees
          refine ⟨1, .last ?_⟩
          rw [hturn, if_neg h.unended, if_neg h.refused, hextra, if_neg Bool.false_ne_true, hend,
            if_neg (by simp), hskip]
          simp [past, Except.map]
      | @cutOff _ _ _ s₂ _ target name h hextra hend hskip hover =>
          obtain ⟨entry, rest, -, -, hturn⟩ := turn_of_sees met count log h.toSees
          have hfirst : turn config flags ⟨met, list.toEntries, count, log, s⟩ =
              .on ⟨met, list.toEntries, count, log ++ [.wanted target, .nameRead name.plain],
                s₂⟩ := by
            rw [hturn, if_neg h.unended, if_neg h.refused, hextra, if_neg Bool.false_ne_true, hend,
              if_neg (by simp), hskip]
            simp [past]
          -- the next turn finds out that the input ended within the line
          have hlast := turn_of_readName_error met count
            (log ++ [.wanted target, .nameRead name.plain]) h.wanted (readName_of_end config hover)
          refine ⟨2, .next hfirst (.last ?_)⟩
          simpa [Except.map] using hlast
      | value h hunended haccepts hvalue =>
          obtain ⟨entry, rest, hentries, hwanted, hturn⟩ := turn_of_sees met count log h
          refine ⟨1, .last ?_⟩
          rw [hturn, if_neg hunended, if_pos haccepts,
            receive_of_readValue_error hentries (hwanted ▸ haccepts) hvalue]
          simp [past, Except.map]
      | @number wish wishes capture _ _ target name value h hstored =>
          obtain ⟨entry, rest, s₁, hentries, -, hvalue, hturn⟩ := turn_of_takes met count log h
          obtain ⟨rfl, rfl⟩ := List.cons.inj hentries
          change readValue config wish.value.kindText name s₁ = _ at hvalue
          refine ⟨1, .last ?_⟩
          simp only [hturn, receive, hvalue, hstored]
          simp [past, Except.map]

/-- A walk goes on behind the lines that the scan passes. -/
theorem runs_of_reaches (met : List Entry) (count : Nat) (log : List LogEntry)
    (h : Reaches config flags list s gain list' s') {n : Nat} {outcome : Except ScanError Nat}
    {final : Walk}
    (hrest : Runs config flags ⟨met ++ gain.wishes.map .named, list'.toEntries, count + gain.count,
      log ++ gain.log, s'⟩ n outcome final) :
    ∃ k, Runs config flags ⟨met, list.toEntries, count, log, s⟩ k outcome final := by
  induction h generalizing met count log with
  | here => exact ⟨n, by simpa [Gain.logged] using hrest⟩
  | @pass _ _ _ _ _ _ gain gain' h _ ih =>
      obtain ⟨k, hruns⟩ := ih (met ++ gain.wishes.map .named) (count + gain.count)
        (log ++ gain.log) (by simpa [Gain.append, Nat.add_assoc] using hrest)
      exact ⟨k + 1, .next (turn_of_pass met count log h) hruns⟩

/-- **The walk of a list does what the scan does.** -/
theorem runs_scan (config : Config) (flags : Flags) (list : WishList) (s : Stream) :
    let r := scan config flags list s
    ∃ n final, Runs config flags (start list.toEntries s) n r.outcome final ∧
      final.met ++ final.left = r.list.toEntries ∧ final.log = r.log ∧ final.stream = r.stream := by
  intro r
  obtain ⟨gain, list', s', stopped, hreach, hstop, hscan⟩ := exists_course config flags list s
  obtain ⟨n, hstopped⟩ := runs_of_stop ([] ++ gain.wishes.map .named) (0 + gain.count)
    ([] ++ gain.log) hstop
  obtain ⟨k, hruns⟩ := runs_of_reaches [] 0 [] hreach hstopped
  have houtcome : stopped.outcome.map (0 + gain.count + ·) = r.outcome := by
    simp [r, hscan, ScanResult.passed]
  refine ⟨k, _, houtcome ▸ hruns, ?_, ?_, ?_⟩
  · simp [r, hscan, ScanResult.passed, hstop.keeps.1, WishList.toEntries, WishList.holders]
  · simp [r, hscan, ScanResult.passed]
  · simp [r, hscan, ScanResult.passed]

end Walk

/-! ### Every scan ends -/

/-- **Every scan ends.**  Whatever the stream brings, the walk of a list that passes the check, or
that is made by adding entries one at a time, is over after some turns, none of which is stuck, and
gives what the scan gives.  It asks for one name in a turn at most, and there is at most one turn
more than bytes that are consumed. -/
theorem scan_ends (config : Config) (flags : Flags) {entries : List Entry}
    (h : (∃ list, WishList.ofEntries entries = .ok list) ∨
      ∃ calls, (WishList.take calls).1.toEntries = entries) (s : Stream) :
    (∀ walk : Walk, walk.turn config flags ≠ .stuck) ∧
      ∃ list n final consumed, WishList.toEntries list = entries ∧
        let r := scan config flags list s
        Walk.Runs config flags (.start entries s) n r.outcome final ∧
          final.met ++ final.left = r.list.toEntries ∧ final.log = r.log ∧ final.stream = r.stream ∧
          s.unread = consumed ++ r.stream.unread ∧ asked r.log ≤ n ∧ n ≤ consumed.length + 1 := by
  refine ⟨Walk.turn_ne_stuck config flags, ?_⟩
  obtain ⟨list, rfl⟩ : ∃ list : WishList, list.toEntries = entries := by
    rcases h with ⟨list, hlist⟩ | ⟨calls, hcalls⟩
    · exact ⟨list, WishList.ofEntries_eq_ok_iff.1 hlist⟩
    · exact ⟨_, hcalls⟩
  obtain ⟨n, final, hruns, hentries, hlog, hstream⟩ := Walk.runs_scan config flags list s
  obtain ⟨consumed, hconsumed, hbound, hasked⟩ := hruns.bounded
  refine ⟨list, n, final, consumed, rfl, hruns, hentries, hlog, hstream, ?_, ?_, hbound⟩
  · rw [← hstream]
    exact hconsumed
  · rw [← hlog]
    simpa [Walk.start, asked] using hasked

/-- A wish that is met behind a line that is skipped, a capture that meets one name twice, and a
stream that ends for a moment within the line that is skipped. -/
theorem scan_ends_of_repeated :
    let entries : List Entry := [.named ⟨[97], .uint 0⟩, .capture .empty, .terminator]
    let s : Stream := .ofEvents [.data ((attributeLine [98] [50]).take 6), .data [], .data [],
      .fault (.ofKind .interrupted), .data (listText [([97], [49]), ([99], [50]), ([99], [51])])]
      .closed
    (∃ list, WishList.ofEntries entries = .ok list) ∧
      (∀ walk : Walk, walk.turn .standard ⟨true, false, false⟩ ≠ .stuck) ∧
      ∃ list n final consumed, WishList.toEntries list = entries ∧
        let r := scan .standard ⟨true, false, false⟩ list s
        Walk.Runs .standard ⟨true, false, false⟩ (.start entries s) n r.outcome final ∧
          final.met ++ final.left = r.list.toEntries ∧ final.log = r.log ∧ final.stream = r.stream ∧
          s.unread = consumed ++ r.stream.unread ∧ asked r.log ≤ n ∧ n ≤ consumed.length + 1 := by
  intro entries s
  have hentries : ∃ list, WishList.ofEntries entries = .ok list :=
    ⟨⟨[⟨[97], .uint 0⟩], some .empty⟩, rfl⟩
  exact ⟨hentries, scan_ends .standard ⟨true, false, false⟩ (.inl hentries) s⟩

end AttributeWire
