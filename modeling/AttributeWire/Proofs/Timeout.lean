/-
**Which configurations connect.**

A configuration that a text is read as is checked for a line limit of zero, but not for a timeout of
zero, which a socket refuses.  So it connects to a service, unless the text gives a timeout that
stands for no time.

Main definitions:

* `Toml.Table.Distinct`, `Toml.Table.Sets` — no key has two values, and one key is given a value;
* `Toml.Node.IsNoTime`, `Config.AsksForNoTime` — a value that stands for no time, and a text with
  such a timeout.

Main results:

* `Toml.distinct_of_parse?` — **no key of a document has two values**;
* `Config.readTimeout_of_mem` — **the timeout is that of the entry**, if there is one;
* `Config.timeoutOfToml_eq_zero_iff` — which values stand for no time;
* `Config.connect_of_ofToml` — **an accepted configuration connects unless it asks for no time**;
* `Config.not_connect_of_ofToml` — so not every accepted configuration connects.
-/

import AttributeWire.Channel
import AttributeWire.Config.Toml
import AttributeWire.Proofs.NoTime
import Mathlib.Data.List.Nodup

set_option relaxedAutoImplicit false
set_option autoImplicit false

namespace AttributeWire

/-! ### Keys of a document -/

namespace Toml

namespace Table

/-- No key has two values. -/
def Distinct (table : Table) : Prop := (table.entries.map Prod.fst).Nodup

/-- The second table is the first one with a value given to some key. -/
def Sets (table table' : Table) : Prop := ∃ key node, table' = table.set key node

variable {table table' : Table}

theorem Distinct.set (h : table.Distinct) (key : Key) (node : Node) :
    (table.set key node).Distinct := by
  have hothers : ((table.entries.filter fun entry => entry.1 != key).map Prod.fst).Nodup :=
    List.Nodup.sublist (List.filter_sublist.map _) h
  simp only [Distinct, Table.set, List.map_append, List.map_cons, List.map_nil]
  refine hothers.append (List.nodup_singleton key) ?_
  simp [List.disjoint_singleton]

theorem Distinct.of_sets (h : table.Distinct) (hsets : table.Sets table') : table'.Distinct := by
  obtain ⟨key, node, rfl⟩ := hsets
  exact h.set key node

theorem sets_of_addLast {dotted : Bool} {key : Key} {node : Node}
    (h : table.addLast dotted key node = some table') : table.Sets table' := by
  unfold addLast at h
  split at h
  · cases h
  · split at h
    · cases h
    · exact ⟨key, node, (Option.some.inj h).symm⟩

/-- A change further in gives a value to the first key of the path. -/
theorem sets_of_alter {change : Table → Option Table} {byKey : ByKey} {path : List KeyPart}
    (hchange : ∀ {t t' : Table}, change t = some t' → t.Sets t')
    (h : alter change byKey path table = some table') : table.Sets table' := by
  cases path with
  | nil => exact hchange h
  | cons part path =>
      unfold alter at h
      split at h
      · obtain ⟨inner, -, rfl⟩ := Option.map_eq_some_iff.1 h
        exact ⟨part.key, _, rfl⟩
      · split at h
        · cases h
        · obtain ⟨inner, -, rfl⟩ := Option.map_eq_some_iff.1 h
          exact ⟨part.key, _, rfl⟩
      · split at h
        · cases h
        · obtain ⟨inner, -, rfl⟩ := Option.map_eq_some_iff.1 h
          exact ⟨part.key, _, rfl⟩
      · cases h

theorem sets_of_addPair {path : List KeyPart} {node : Node}
    (h : table.addPair path node = some table') : table.Sets table' := by
  unfold addPair at h
  split at h
  · cases h
  · exact sets_of_alter sets_of_addLast h

theorem sets_of_addHeaded {key : Key} {s : Section} (h : addHeaded key s table = some table') :
    table.Sets table' := by
  unfold addHeaded at h
  dsimp only at h
  split at h
  · cases h
  · obtain ⟨inner, -, rfl⟩ := Option.map_eq_some_iff.1 h
    exact ⟨key, _, rfl⟩

theorem sets_of_addItem {key : Key} {s : Section} (h : addItem key s table = some table') :
    table.Sets table' := by
  unfold addItem at h
  dsimp only at h
  split at h
  · cases h
  · obtain ⟨inner, -, rfl⟩ := Option.map_eq_some_iff.1 h
    exact ⟨key, _, rfl⟩

theorem sets_of_addSection {s : Section} (h : table.addSection s = some table') :
    table.Sets table' := by
  unfold addSection at h
  split at h
  · cases h
  · refine sets_of_alter ?_ h
    intro t t' hchange
    split at hchange
    · exact sets_of_addItem hchange
    · exact sets_of_addHeaded hchange

theorem Distinct.of_addPairs {pairs : List (List KeyPart × Node)} (h : table.Distinct)
    (hpairs : table.addPairs pairs = some table') : table'.Distinct := by
  induction pairs generalizing table with
  | nil => exact Option.some.inj hpairs ▸ h
  | cons pair pairs ih =>
      rw [addPairs] at hpairs
      split at hpairs
      · rename_i next hpair
        exact ih (h.of_sets (sets_of_addPair hpair)) hpairs
      · cases hpairs

theorem Distinct.of_addSections {sections : List Section} (h : table.Distinct)
    (hsections : table.addSections sections = some table') : table'.Distinct := by
  induction sections generalizing table with
  | nil => exact Option.some.inj hsections ▸ h
  | cons s sections ih =>
      rw [addSections] at hsections
      split at hsections
      · rename_i next hsection
        exact ih (h.of_sets (sets_of_addSection hsection)) hsections
      · cases hsections

theorem distinct_of_assemble {pairs : List (List KeyPart × Node)} {sections : List Section}
    (h : assemble pairs sections = some table) : table.Distinct := by
  have hempty : (Table.empty ⟨0, 0⟩ .header).Distinct := List.nodup_nil
  unfold assemble at h
  split at h
  · rename_i next hpairs
    exact (hempty.of_addPairs hpairs).of_addSections h
  · cases h

end Table

theorem distinct_of_run {r : Reader} {lexemes : List Lexeme} {table : Table}
    (h : r.run lexemes = some table) : table.Distinct := by
  induction lexemes generalizing r with
  | nil =>
      rw [Reader.run, Reader.finish] at h
      split at h
      · cases h
      · split at h
        · exact Table.distinct_of_assemble h
        · exact Table.distinct_of_assemble h
        · cases h
  | cons lexeme lexemes ih =>
      rw [Reader.run] at h
      split at h
      · exact ih h
      · cases h

/-- **No key of a document has two values.** -/
theorem distinct_of_parse? {text : List Char} {table : Table} (h : parse? text = some table) :
    table.Distinct := by
  unfold parse? at h
  split at h
  · exact distinct_of_run h
  · cases h

end Toml

/-! ### The timeout of a document -/

namespace Config

open Toml (Key Node)

theorem perm_placeEntry (entry : Key × Node) (entries : List (Key × Node)) :
    (placeEntry entry entries).Perm (entry :: entries) := by
  induction entries with
  | nil => exact .refl _
  | cons first rest ih =>
      unfold placeEntry
      split
      · exact .refl _
      · exact (ih.cons first).trans (.swap entry first rest)

theorem perm_inOrder (entries : List (Key × Node)) : (inOrder entries).Perm entries := by
  induction entries with
  | nil => exact .refl _
  | cons entry entries ih => exact (perm_placeEntry entry _).trans (ih.cons entry)

/-- The key of the timeout. -/
def timeoutKey : Key := "read_timeout".toList

variable {config config' : Config} {entry : Key × Node} {entries : List (Key × Node)} {node : Node}

theorem readTimeout_of_other (hkey : entry.1 ≠ timeoutKey)
    (h : config.takeEntry entry = .ok config') : config'.readTimeout = config.readTimeout := by
  unfold takeEntry at h
  split at h
  · rcases hlimit : located entry.2 (limitOfToml entry.2) with fault | limit
    · rw [hlimit] at h
      cases h
    · rw [hlimit] at h
      cases h
      rfl
  · split at h
    · rename_i hsame
      exact absurd hsame hkey
    · split at h
      · cases h
      · cases h
        rfl

/-- The entry of the timeout is a value that nothing is wrong with, and that a timeout is read
from. -/
theorem readTimeout_of_own (h : config.takeEntry (timeoutKey, node) = .ok config') :
    nodeFault? false node = none ∧
      ∃ d, timeoutOfToml node = .ok d ∧ config'.readTimeout = some d := by
  have hother : timeoutKey ≠ "line_limit".toList := by decide
  have hown : timeoutKey = "read_timeout".toList := rfl
  simp only [takeEntry, if_neg hother, if_pos hown] at h
  rcases hfault : nodeFault? false node with _ | fault
  · rcases htimeout : timeoutOfToml node with e | d
    · simp [hfault, located, htimeout, Except.map] at h
    · simp only [hfault, located, htimeout, Except.map, Except.ok.injEq] at h
      exact ⟨rfl, d, rfl, h ▸ rfl⟩
  · simp [hfault] at h

/-- Entries without a timeout leave it as it is. -/
theorem readTimeout_of_not_mem (hnone : timeoutKey ∉ entries.map Prod.fst)
    (h : config.takeEntries entries = .ok config') : config'.readTimeout = config.readTimeout := by
  induction entries generalizing config with
  | nil => exact congrArg readTimeout (Except.ok.inj h).symm
  | cons entry entries ih =>
      rw [List.map_cons, List.mem_cons, not_or] at hnone
      rw [takeEntries] at h
      split at h
      · rename_i next hentry
        rw [ih hnone.2 h, readTimeout_of_other (Ne.symm hnone.1) hentry]
      · cases h

/-- **The timeout is that of the entry**, if there is one. -/
theorem readTimeout_of_mem (hdistinct : (entries.map Prod.fst).Nodup)
    (hmem : (timeoutKey, node) ∈ entries) (h : config.takeEntries entries = .ok config') :
    nodeFault? false node = none ∧
      ∃ d, timeoutOfToml node = .ok d ∧ config'.readTimeout = some d := by
  induction entries generalizing config with
  | nil => cases hmem
  | cons entry entries ih =>
      rw [List.map_cons, List.nodup_cons] at hdistinct
      rw [takeEntries] at h
      split at h
      · rename_i next hentry
        rcases List.mem_cons.1 hmem with rfl | hmem
        · rw [readTimeout_of_not_mem hdistinct.1 h]
          exact readTimeout_of_own hentry
        · exact ih hdistinct.2 hmem h
      · cases h

end Config

/-! ### Values that stand for no time -/

/-- The value stands for no time: an integer that is zero, a number of at most half a nanosecond, or
a text without any digit but zeros. -/
def Toml.Node.IsNoTime : Node → Prop
  | .scalar _ (.integer n) => n = 0
  | .scalar _ (.float value) => value.WithinHalfNanosecond
  | .scalar _ (.string chars) => ∀ c ∈ chars, c.isDigit = true → c = '0'
  | _ => False

namespace Config

open Toml (Key Node Scalar)

variable {text : List Char} {config : Config} {table : Toml.Table} {node : Node} {d : Duration}

/-- No whole number of seconds below zero is a timeout. -/
theorem timeoutOfFloat_negative {n : Nat} (hn : 0 < n) :
    timeoutOfFloat (.ofRatio true n 1) = .error (.badSeconds .negative) := by
  have hnonzero : Binary64.Nonzero true (.ofRatio true n 1) := Binary64.ofRatio_of_pos hn
  generalize Binary64.ofRatio true n 1 = value at hnonzero ⊢
  unfold timeoutOfFloat
  cases hnonzero with
  | infinity => rfl
  | finite significand exponent hpos =>
      rw [Duration.ofFloatSeconds, if_pos ⟨rfl, Nat.ne_of_gt hpos⟩]

/-- A number of more than 64 bits is a fault. -/
theorem toNat_lt_of_nodeFault? {span : Span} {n : Int}
    (h : nodeFault? false (.scalar span (.integer n)) = none) : n.toNat < UInt64.size := by
  have hreach : reach 64 = UInt64.size := by decide
  have hpos : 0 < UInt64.size := by decide
  by_contra hlarge
  have hwide : reach 64 ≤ n := by omega
  simp only [nodeFault?, scalarFault?, integerFault?, hwide, Option.map_eq_none_iff] at h
  split at h
  · cases h
  · simp at h

/-- **A timeout is none at all** just if the value stands for no time. -/
theorem timeoutOfToml_eq_zero_iff (hfault : nodeFault? false node = none)
    (h : timeoutOfToml node = .ok d) : d = .zero ↔ node.IsNoTime := by
  unfold timeoutOfToml at h
  split at h
  · rename_i span n
    split at h
    · rename_i hnegative
      rw [timeoutOfFloat_negative (Int.natAbs_pos.2 (Int.ne_of_lt hnegative))] at h
      cases h
    · rename_i hnatural
      obtain rfl := Except.ok.inj h
      rw [Duration.eq_zero_iff, Duration.nanoseconds_ofSeconds, Toml.Node.IsNoTime,
        UInt64.toNat_ofNat_of_lt' (toNat_lt_of_nodeFault? hfault)]
      have hsecond : 0 < Duration.second := by decide
      simp only [Nat.mul_eq_zero, Nat.ne_of_gt hsecond, or_false]
      omega
  · rename_i span value
    unfold timeoutOfFloat at h
    split at h
    · rename_i duration hseconds
      obtain rfl := Except.ok.inj h
      exact Duration.ofFloatSeconds_eq_zero_iff hseconds
    · cases h
  · rename_i span chars
    unfold timeoutOfWords at h
    split at h
    · rename_i duration hwords
      obtain rfl := Except.ok.inj h
      exact Duration.ofWords_eq_zero_iff hwords
    · cases h
  · cases h

/-! ### Connecting -/

/-- The text gives a timeout, and it stands for no time. -/
def AsksForNoTime (text : List Char) : Prop :=
  ∃ table node, Toml.parse? text = some table ∧ (timeoutKey, node) ∈ table.entries ∧ node.IsNoTime

/-- The timeout of an accepted configuration is none at all just if the text asks for that. -/
theorem readTimeout_eq_zero_iff (h : ofToml text = .ok config) :
    config.readTimeout = some .zero ↔ AsksForNoTime text := by
  unfold ofToml at h
  split at h
  · cases h
  · rename_i table hparse
    split at h
    · cases h
    · rename_i taken htaken
      split at h
      · obtain rfl := Except.ok.inj h
        have hperm := perm_inOrder table.entries
        have hdistinct : ((inOrder table.entries).map Prod.fst).Nodup :=
          (hperm.map Prod.fst).nodup_iff.2 (Toml.distinct_of_parse? hparse)
        constructor
        · intro hzero
          by_cases hkey : timeoutKey ∈ (inOrder table.entries).map Prod.fst
          · obtain ⟨⟨key, node⟩, hmem, hsame⟩ := List.mem_map.1 hkey
            obtain rfl : key = timeoutKey := hsame
            obtain ⟨hfault, d, htimeout, hread⟩ := readTimeout_of_mem hdistinct hmem htaken
            rw [hread, Option.some.injEq] at hzero
            exact ⟨table, node, hparse, hperm.mem_iff.1 hmem,
              (timeoutOfToml_eq_zero_iff hfault htimeout).1 hzero⟩
          · rw [readTimeout_of_not_mem hkey htaken] at hzero
            cases hzero
        · rintro ⟨table', node, hparse', hmem, hnone⟩
          obtain rfl := Option.some.inj (hparse.symm.trans hparse')
          obtain ⟨hfault, d, htimeout, hread⟩ :=
            readTimeout_of_mem hdistinct (hperm.mem_iff.2 hmem) htaken
          rw [hread, (timeoutOfToml_eq_zero_iff hfault htimeout).2 hnone]
      · cases h

/-- **An accepted configuration connects unless it asks for no time**, and then the socket refuses
it. -/
theorem connect_of_ofToml (h : ofToml text = .ok config) (path : String) (service : Service) :
    (¬ AsksForNoTime text →
      Channel.connect path (some service) config = .ok ⟨path, config, service.stream⟩) ∧
    (AsksForNoTime text →
      Channel.connect path (some service) config = .error (.ofKind .invalidInput)) := by
  rw [← readTimeout_eq_zero_iff h]
  unfold Channel.connect
  exact ⟨fun htime => if_neg htime, fun hnone => if_pos hnone⟩

/-- The document of a text with a timeout of zero. -/
theorem parse?_zeroTimeout : Toml.parse? "read_timeout = 0".toList =
    some ⟨⟨0, 0⟩, .header, [(timeoutKey, .scalar ⟨15, 16⟩ (.integer 0))]⟩ := by
  have htokens : Toml.tokens? "read_timeout = 0".toList = some
      [⟨.atom timeoutKey, ⟨0, 12⟩⟩, ⟨.blank [' '], ⟨12, 13⟩⟩, ⟨.equals, ⟨13, 14⟩⟩,
        ⟨.blank [' '], ⟨14, 15⟩⟩, ⟨.atom ['0'], ⟨15, 16⟩⟩] := by decide
  rw [Toml.parse?, htokens]
  rfl

/-- The text is accepted. -/
theorem ofToml_zeroTimeout :
    ofToml "read_timeout = 0".toList = .ok { standard with readTimeout := some .zero } := by
  rw [ofToml, parse?_zeroTimeout]
  rfl

/-- A text that is accepted and asks for no time, which the socket refuses, and an empty one, which
connects. -/
theorem connect_of_ofToml_zero :
    let text := "read_timeout = 0".toList
    let config : Config := { standard with readTimeout := some .zero }
    let service : Service := ⟨[10], false⟩
    ofToml text = .ok config ∧ AsksForNoTime text ∧
      Channel.connect "socket" (some service) config = .error (.ofKind .invalidInput) ∧
      ofToml [] = .ok standard ∧ ¬ AsksForNoTime [] ∧
      Channel.connect "socket" (some service) standard =
        .ok ⟨"socket", standard, service.stream⟩ := by
  intro text config service
  have hasks : AsksForNoTime text :=
    ⟨_, _, parse?_zeroTimeout, List.mem_singleton_self _, rfl⟩
  have hempty : ofToml [] = .ok standard := rfl
  have hasksNot : ¬ AsksForNoTime [] := by
    rintro ⟨table, node, hparse, hmem, -⟩
    cases hparse
    cases hmem
  exact ⟨ofToml_zeroTimeout, hasks, (connect_of_ofToml ofToml_zeroTimeout "socket" service).2 hasks,
    hempty, hasksNot, (connect_of_ofToml hempty "socket" service).1 hasksNot⟩

/-- So **not every accepted configuration connects**. -/
theorem not_connect_of_ofToml :
    ¬ ∀ (text : List Char) (config : Config), ofToml text = .ok config →
      ∀ (path : String) (service : Service),
        ∃ channel, Channel.connect path (some service) config = .ok channel := by
  intro h
  obtain ⟨channel, hconnects⟩ := h _ _ ofToml_zeroTimeout "socket" ⟨[], false⟩
  cases hconnects

end Config

end AttributeWire
