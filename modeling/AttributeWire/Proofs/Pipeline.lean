/-
**What is encoded is decoded again.**

Arguments in the form `NAME=VALUE` are cut at the first equals sign, so that a value may hold
anything.  If the three attributes that decoding looks for come first, then decoding the text that
encoding writes finds all of them and captures the others, whatever their names are and however
strictly lists are matched; the others are printed in the order of their names.

Main definitions:

* `assignment`, `textPair` — an attribute given as texts: as an argument, and as bytes;
* `IsAssignment`, `argumentPair` — an argument that gives an attribute, and this attribute.

Main results:

* `encodeAttributes_cons`, `encodeAttributes_of_forall` — **encoding writes the list**, one line for
  each argument;
* `scan_expectedFirst` — **the three attributes are found and the others captured**, under any
  flags;
* `run_encode_scan` — **encoding and then decoding gives back the attributes**.
-/

import AttributeWire.Proofs.Decoding
import AttributeWire.Proofs.RoundTrip
import Mathlib.Data.List.Nodup
import Mathlib.Data.List.Perm.Basic

set_option relaxedAutoImplicit false
set_option autoImplicit false

namespace AttributeWire

open LogEntry

/-! ### Encoding -/

/-- An attribute given as texts, as an argument. -/
def assignment (pair : String × String) : String := pair.1 ++ "=" ++ pair.2

/-- An attribute given as texts, as bytes. -/
def textPair (pair : String × String) : Bytes × Bytes :=
  (Bytes.ofText pair.1, Bytes.ofText pair.2)

/-- The name of an attribute that can be given as an argument. -/
def IsArgumentName (name : String) : Prop := name ≠ "" ∧ '=' ∉ name.toList

instance (name : String) : Decidable (IsArgumentName name) :=
  inferInstanceAs (Decidable (name ≠ "" ∧ '=' ∉ name.toList))

/-- The argument gives an attribute: there is an equals sign, with something in front of the
first. -/
def IsAssignment (text : String) : Prop :=
  '=' ∈ text.toList ∧ text.toList.takeWhile (· ≠ '=') ≠ []

instance (text : String) : Decidable (IsAssignment text) :=
  inferInstanceAs (Decidable ('=' ∈ text.toList ∧ text.toList.takeWhile (· ≠ '=') ≠ []))

/-- The attribute that an argument gives: its name stands in front of the first equals sign, and its
value is all that stands behind. -/
def argumentPair (text : String) : Bytes × Bytes :=
  (Bytes.ofText (String.ofList (text.toList.takeWhile (· ≠ '='))),
    Bytes.ofText (String.ofList (text.toList.dropWhile (· ≠ '=')).tail))

theorem Lines.splitOnce?_eq (mark : Char) (text : List Char) :
    splitOnce? mark text = if mark ∈ text then
      some (text.takeWhile (· ≠ mark), (text.dropWhile (· ≠ mark)).tail) else none := by
  induction text with
  | nil => rfl
  | cons c text ih =>
      by_cases hc : c = mark
      · simp [splitOnce?, hc]
      · by_cases hmem : mark ∈ text <;> simp [splitOnce?, hc, Ne.symm hc, ih, hmem]

theorem Lines.takeWhile_append_mark {mark : Char} {before : List Char} (h : mark ∉ before)
    (behind : List Char) : (before ++ mark :: behind).takeWhile (· ≠ mark) = before := by
  rw [List.takeWhile_append_of_pos fun c hc => decide_eq_true (ne_of_mem_of_not_mem hc h)]
  simp

theorem Lines.dropWhile_append_mark {mark : Char} {before : List Char} (h : mark ∉ before)
    (behind : List Char) :
    (before ++ mark :: behind).dropWhile (· ≠ mark) = mark :: behind := by
  rw [List.dropWhile_append_of_pos fun c hc => decide_eq_true (ne_of_mem_of_not_mem hc h)]
  simp

theorem toList_assignment (pair : String × String) :
    (assignment pair).toList = pair.1.toList ++ '=' :: pair.2.toList := by
  simp [assignment]

theorem isAssignment_assignment {pair : String × String} (h : IsArgumentName pair.1) :
    IsAssignment (assignment pair) := by
  obtain ⟨hne, hmark⟩ := h
  rw [IsAssignment, toList_assignment, Lines.takeWhile_append_mark hmark]
  exact ⟨List.mem_append_right _ List.mem_cons_self, by simpa using hne⟩

theorem argumentPair_assignment {pair : String × String} (h : IsArgumentName pair.1) :
    argumentPair (assignment pair) = textPair pair := by
  rw [argumentPair, toList_assignment, Lines.takeWhile_append_mark h.2,
    Lines.dropWhile_append_mark h.2, List.tail_cons, String.ofList_toList, String.ofList_toList]
  rfl

/-- An argument that gives an attribute puts its line in front. -/
theorem encodeAttributes_cons {text : String} (h : IsAssignment text) (texts : List String) :
    encodeAttributes (text :: texts) = (encodeAttributes texts).after
      (attributeLine (argumentPair text).1 (argumentPair text).2) [] := by
  obtain ⟨hmem, hne⟩ := h
  obtain ⟨c, cs, hname⟩ := List.exists_cons_of_ne_nil hne
  rw [encodeAttributes, Lines.splitOnce?_eq, if_pos hmem, argumentPair, hname]

/-- **Encoding writes the list** of the attributes that the arguments give, if all of them do. -/
theorem encodeAttributes_of_forall {texts : List String} (h : ∀ text ∈ texts, IsAssignment text) :
    encodeAttributes texts = ⟨listText (texts.map argumentPair), [], none⟩ := by
  induction texts with
  | nil => rfl
  | cons text texts ih =>
      obtain ⟨hfirst, hothers⟩ := List.forall_mem_cons.1 h
      rw [encodeAttributes_cons hfirst, ih hothers, List.map_cons, listText_cons]
      rfl

theorem encodeAttributes_assignments {pairs : List (String × String)}
    (h : ∀ pair ∈ pairs, IsArgumentName pair.1) :
    encodeAttributes (pairs.map assignment) = ⟨listText (pairs.map textPair), [], none⟩ := by
  have hall : ∀ text ∈ pairs.map assignment, IsAssignment text :=
    List.forall_mem_map.2 fun pair hmem => isAssignment_assignment (h pair hmem)
  have hpairs : (pairs.map assignment).map argumentPair = pairs.map textPair := by
    rw [List.map_map]
    exact List.map_congr_left fun pair hmem => argumentPair_assignment (h pair hmem)
  rw [encodeAttributes_of_forall hall, hpairs]

/-! ### Decoding what was encoded -/

section

variable {config : Config} {n : UInt32} {m : UInt64} {bytes following : Bytes}
  {others : List (Bytes × Bytes)}

/-- The three attributes that are looked for, with their values. -/
def expectedValues (n : UInt32) (m : UInt64) (bytes : Bytes) : List (Bytes × Value) :=
  [(Bytes.ofText "number", .uint n), (Bytes.ofText "long_number", .ulong m),
    (Bytes.ofText "string", .str bytes)]

/-- The three attributes with the text of their values, and others behind them. -/
def expectedFirst (n : UInt32) (m : UInt64) (bytes : Bytes) (others : List (Bytes × Bytes)) :
    List (Bytes × Bytes) :=
  (expectedValues n m bytes).map (fun pair => (pair.1, pair.2.text)) ++ others

theorem asks_expectedValues (n : UInt32) (m : UInt64) (bytes : Bytes) :
    List.Forall₂ Wish.Asks expectedList.wishes (expectedValues n m bytes) :=
  .cons ⟨rfl, trivial⟩ (.cons ⟨rfl, trivial⟩ (.cons ⟨rfl, trivial⟩ .nil))

/-- **The three attributes are found and the others captured**, under any flags, if they come first
and no other name occurs twice. -/
theorem scan_expectedFirst (flags : Flags) {s : Stream} (hs : s.Steady)
    (hwire : s.unread = listText (expectedFirst n m bytes others) ++ following)
    (hfits : config.FitsAll (expectedFirst n m bytes others)) (hfresh : Table.empty.Fresh others) :
    ∃ count log s', scan config flags expectedList s =
        ⟨.ok (3 + count), ⟨(expectedValues n m bytes).map fun pair => ⟨pair.1, pair.2⟩,
          some (Table.empty.extend others)⟩, log, s'⟩ ∧
      warnings log = [] ∧ s.Advances (listText (expectedFirst n m bytes others)) s' := by
  have hahead := hs.ahead.trans hwire
  rw [expectedFirst, listText_append, List.append_assoc] at hahead
  have hasks := asks_expectedValues n m bytes
  have hfits₁ : config.FitsAll ((expectedValues n m bytes).map fun pair => (pair.1, pair.2.text)) :=
    fun pair hmem => hfits pair (List.mem_append_left _ hmem)
  have hfits₂ : config.FitsAll others := fun pair hmem => hfits pair (List.mem_append_right _ hmem)
  obtain ⟨log, s₁, hnamed, hwarn, hadv₁⟩ :=
    satisfy_append (meet_of_asks hasks flags.extra) [] s hs.gapless hfits₁ hahead
  obtain ⟨log', count, s₂, hgather, -, hwarn', hadv₂⟩ :=
    gather_listText flags .empty s₁ hadv₁.gapless hfits₂ (hadv₁.ahead_eq hahead) fun _ => hfresh
  rw [List.append_nil, receiveAll_of_asks hasks] at hnamed
  refine ⟨count, log ++ log', s₂, ?_, ?_, ?_⟩
  · rw [scan]
    simp only [hnamed, satisfy, Satisfied.afterAll, List.append_nil]
    exact finish_of_gather hgather
  · rw [warnings_append, hwarn, hwarn', List.append_nil]
  · rw [expectedFirst, listText_append]
    exact hadv₁.trans hadv₂

end

/-! ### The attributes as texts -/

/-- A number, a long number and a text under the names that are looked for, and other attributes
behind them. -/
def namedFirst (n : UInt32) (m : UInt64) (text : String) (others : List (String × String)) :
    List (String × String) :=
  ("number", toString n.toNat) :: ("long_number", toString m.toNat) :: ("string", text) :: others

section

variable {n : UInt32} {m : UInt64} {text : String} {others : List (String × String)}

theorem map_textPair_namedFirst :
    (namedFirst n m text others).map textPair =
      expectedFirst n m (Bytes.ofText text) (others.map textPair) := by
  simp only [namedFirst, List.map_cons, textPair, Decimal.ofText_toString]
  rfl

theorem isArgumentName_namedFirst (n : UInt32) (m : UInt64) (text : String)
    (h : ∀ pair ∈ others, IsArgumentName pair.1) :
    ∀ pair ∈ namedFirst n m text others, IsArgumentName pair.1 := by
  have hnumber : IsArgumentName "number" := by decide
  have hlong : IsArgumentName "long_number" := by decide
  have htext : IsArgumentName "string" := by decide
  exact List.forall_mem_cons.2 ⟨hnumber, List.forall_mem_cons.2 ⟨hlong,
    List.forall_mem_cons.2 ⟨htext, h⟩⟩⟩

/-- The digits of numbers are always within the limit. -/
theorem fits_decimal {k : Nat} (h : k < 10 ^ 20) : Config.standard.Fits (Decimal.encode k) := by
  have hdigits := Decimal.length_encode_le (by decide) h
  rw [Config.Fits, Base64.length_encode, Config.fieldLimit_standard]
  omega

theorem fitsAll_namedFirst (htext : Config.standard.Fits (Bytes.ofText text))
    (h : Config.standard.FitsAll (others.map textPair)) :
    Config.standard.FitsAll (expectedFirst n m (Bytes.ofText text) (others.map textPair)) := by
  have hn : n.toNat < 10 ^ 20 := Nat.lt_trans n.toNat_lt (by decide)
  have hm : m.toNat < 10 ^ 20 := Nat.lt_trans m.toNat_lt (by decide)
  have hnumber : Config.standard.Fits (Bytes.ofText "number") := by decide
  have hlong : Config.standard.Fits (Bytes.ofText "long_number") := by decide
  have hstring : Config.standard.Fits (Bytes.ofText "string") := by decide
  exact List.forall_mem_cons.2 ⟨⟨hnumber, fits_decimal hn⟩, List.forall_mem_cons.2
    ⟨⟨hlong, fits_decimal hm⟩, List.forall_mem_cons.2 ⟨⟨hstring, htext⟩, h⟩⟩⟩

theorem fresh_textPairs (h : (others.map Prod.fst).Nodup) :
    Table.empty.Fresh (others.map textPair) := by
  refine ⟨?_, fun pair _ => Table.get?_empty pair.1⟩
  have hnames : (others.map textPair).map Prod.fst = (others.map Prod.fst).map Bytes.ofText := by
    simp [textPair, Function.comp_def]
  rw [hnames]
  exact h.map Bytes.ofText_injective

/-- The attributes that are captured, in the order of their names. -/
theorem exists_sorted (h : (others.map Prod.fst).Nodup) :
    ∃ sorted : List (String × String), sorted.Perm others ∧
      sorted.Pairwise (fun a b => Bytes.ofText a.1 < Bytes.ofText b.1) ∧
      (Table.empty.extend (others.map textPair)).entries = sorted.map textPair := by
  have hentries := Table.perm_entries_extend (fresh_textPairs h)
  -- what is permuted of the images is the image of something permuted
  obtain ⟨sorted, hentries, hperm⟩ :=
    (congrFun₂ (List.eq_map_comp_perm textPair) _ _).mpr hentries
  refine ⟨sorted, hperm, ?_, hentries⟩
  have hsorted := (Table.empty.extend (others.map textPair)).sorted
  rwa [hentries, List.pairwise_map] at hsorted

/-- What is printed for the attributes. -/
theorem text_of_sorted {sorted : List (String × String)} {table : Table}
    (h : table.entries = sorted.map textPair) (count : Nat) :
    (Record.ofScan (3 + count) ⟨(expectedValues n m (Bytes.ofText text)).map fun pair =>
        ⟨pair.1, pair.2⟩, some table⟩).text =
      s!"number {n.toNat}\n" ++ s!"long_number {m.toNat}\n" ++ s!"string {text}\n" ++
        String.join (sorted.map fun pair => s!"(hash) {pair.1} {pair.2}\n") := by
  have hlines : table.entries.map Record.otherLine =
      sorted.map fun pair => s!"(hash) {pair.1} {pair.2}\n" := by
    rw [h, List.map_map]
    refine List.map_congr_left fun pair _ => ?_
    rw [Function.comp_apply, textPair, Record.otherLine, Utf8.lossy_ofText, Utf8.lossy_ofText]
    rfl
  rw [← hlines]
  have hrecord := Record.text_of_full count n m (Bytes.ofText text) table
  rw [Utf8.lossy_ofText] at hrecord
  exact hrecord

end

/-! ### The two commands -/

/-- Behind a lone `--` every argument is an attribute. -/
theorem parse_encode_positional (texts : List String) :
    Invocation.parse ("encode" :: "--" :: texts) = .run ⟨false, .encode texts⟩ := by
  have htexts : (texts.map String.toList).map String.ofList = texts := by
    simp [Function.comp_def]
  have hencode : Invocation.parse ("encode" :: "--" :: texts) =
      .run ⟨false, .encode ([] ++ (texts.map String.toList).map String.ofList)⟩ := rfl
  rw [hencode, htexts, List.nil_append]

/-- A log without warnings stays so as messages. -/
theorem level_ne_warn {log : List LogEntry} (h : warnings log = []) (peer : String) (count : Nat) :
    ∀ message ∈ log.map (Message.ofEntry peer) ++ [.decoded peer count],
      message.level ≠ .warn := by
  intro message hmem
  rcases List.mem_append.1 hmem with hentry | hlast
  · obtain ⟨entry, hlogged, rfl⟩ := List.mem_map.1 hentry
    exact fun heq => List.filter_eq_nil_iff.1 h entry hlogged (decide_eq_true heq)
  · rw [List.mem_singleton.1 hlast]
    exact Level.noConfusion

/-- Input of one such list is decoded, and then it is over. -/
theorem decodeLists_expectedFirst (flags : Flags) (peer : String) {config : Config} {s : Stream}
    {n : UInt32} {m : UInt64} {bytes : Bytes} {others : List (Bytes × Bytes)}
    (hs : s.Brings (listText (expectedFirst n m bytes others)))
    (hfits : config.FitsAll (expectedFirst n m bytes others)) (hfresh : Table.empty.Fresh others) :
    ∃ count log, (∀ message ∈ log, message.level ≠ .warn) ∧
      decodeLists flags none 0 ⟨peer, config, s⟩ =
        ⟨Bytes.ofText (Record.ofScan (3 + count) ⟨(expectedValues n m bytes).map fun pair =>
          ⟨pair.1, pair.2⟩, some (Table.empty.extend others)⟩).text, log, none⟩ := by
  obtain ⟨s₁, hend, hs₁, hending, hunread⟩ := hs.atEnd_ne_nil (listText_ne_nil _) peer config
  have hwire : s₁.unread = listText (expectedFirst n m bytes others) ++ [] := by
    rw [hunread, List.append_nil]
  obtain ⟨count, log, u, hscan, hwarn, hadv⟩ := scan_expectedFirst flags hs₁ hwire hfits hfresh
  have hrest : u.Brings [] :=
    .pieces (hadv.steady hs₁) (hadv.ending.trans hending) (hadv.unread_eq_of_append hwire)
  refine ⟨count, _, level_ne_warn hwarn peer 1, ?_⟩
  rw [decodeLists_of_scan rfl hend hscan, decodeLists_of_end (hrest.atEnd_nil peer config),
    Transcript.after, List.append_nil]

/-- **Encoding and then decoding gives back the attributes**: the three that are looked for, and the
others in the order of their names, with no warning, however strictly lists are matched. -/
theorem run_encode_scan {args : List String} {env : Environment} {verbose : Bool}
    {filter : LogFilter} {n : UInt32} {m : UInt64} {text : String}
    {others : List (String × String)}
    (hparse : Invocation.parse args =
      .run ⟨verbose, .encode ((namedFirst n m text others).map assignment)⟩)
    (hfilter : LogFilter.parse (Command.filterText verbose env.logSetting).toList = .ok filter)
    (hdistinct : (others.map Prod.fst).Nodup) (hnames : ∀ pair ∈ others, IsArgumentName pair.1)
    (htext : Config.standard.Fits (Bytes.ofText text))
    (hothers : Config.standard.FitsAll (others.map textPair)) :
    ∃ out stderr, Command.run args env = .finished 0 out stderr ∧
      ∀ (args' : List String) (env' : Environment) (task : ScanTask) (filter' : LogFilter),
        Command.DecodesInput args' env' task .standard filter' → task.lists = none →
        env'.stdin.Brings out →
          ∃ (sorted : List (String × String)) (log : List Message), sorted.Perm others ∧
            sorted.Pairwise (fun a b => Bytes.ofText a.1 < Bytes.ofText b.1) ∧
            (∀ message ∈ log, message.level ≠ .warn) ∧
            Command.run args' env' = .finished 0
              (Bytes.ofText (s!"number {n.toNat}\n" ++ s!"long_number {m.toNat}\n" ++
                s!"string {text}\n" ++
                String.join (sorted.map fun pair => s!"(hash) {pair.1} {pair.2}\n")))
              (filter'.text log) := by
  have hencode := encodeAttributes_assignments (isArgumentName_namedFirst n m text hnames)
  rw [map_textPair_namedFirst] at hencode
  refine ⟨_, _, by simp only [Command.run, hparse, hfilter, Command.perform, hencode]; rfl, ?_⟩
  intro args' env' task filter' hrun hlists hinput
  obtain ⟨sorted, hperm, hsorted, hentries⟩ := exists_sorted hdistinct
  obtain ⟨count, log, hwarn, hdecode⟩ :=
    decodeLists_expectedFirst (task.flags.getD ⟨true, true, false⟩) "stdin" hinput
      (fitsAll_namedFirst htext hothers) (fresh_textPairs hdistinct)
  refine ⟨sorted, log, hperm, hsorted, hwarn, ?_⟩
  rw [hrun.run_eq, hlists, hdecode, text_of_sorted hentries, Command.Transcript.outcome]
  simp

/-- Extra attributes under a name that is looked for, and with equals signs, delimiters and newlines
in their values. -/
theorem run_encode_scan_of_two :
    let nothing : String → Except Fault Resource := fun _ => .error (.ofKind .notFound)
    let others := [("string", "=1"), ("b", "x:\ny")]
    ∃ out stderr, Command.run ["encode", "--", "number=7", "long_number=18446744073709551615",
          "string=", "string==1", "b=x:\ny"] ⟨.ofEvents [] .closed, nothing, none⟩ =
        .finished 0 out stderr ∧
      ∃ (sorted : List (String × String)) (log : List Message) (filter : LogFilter),
        sorted.Perm others ∧
        sorted.Pairwise (fun a b => Bytes.ofText a.1 < Bytes.ofText b.1) ∧
        (∀ message ∈ log, message.level ≠ .warn) ∧
        Command.run ["scan", "--flags", "strict"] ⟨.ofEvents [.data out] .closed, nothing, none⟩ =
          .finished 0 (Bytes.ofText ("number 7\n" ++ "long_number 18446744073709551615\n" ++
            "string \n" ++
            String.join (sorted.map fun pair => s!"(hash) {pair.1} {pair.2}\n")))
            (filter.text log) := by
  intro nothing others
  obtain ⟨filter, hfilter⟩ :
      ∃ filter, LogFilter.parse (Command.filterText false none).toList = .ok filter := ⟨_, rfl⟩
  have hparse : Invocation.parse ["encode", "--", "number=7", "long_number=18446744073709551615",
      "string=", "string==1", "b=x:\ny"] = .run ⟨false,
        .encode ((namedFirst 7 18446744073709551615 "" others).map assignment)⟩ :=
    parse_encode_positional _
  obtain ⟨out, stderr, hencode, hscan⟩ := @run_encode_scan _ ⟨.ofEvents [] .closed, nothing, none⟩
    _ _ _ _ _ _ hparse hfilter (by decide) (by decide) (by decide) (by decide)
  obtain ⟨sorted, log, hperm, hsorted, hwarn, hrun⟩ := hscan ["scan", "--flags", "strict"]
    ⟨.ofEvents [.data out] .closed, nothing, none⟩
    ⟨none, some ⟨true, true, false⟩, none, none, none⟩ filter ⟨⟨false, rfl, hfilter⟩, rfl, rfl⟩
    rfl (.atOnce rfl)
  exact ⟨out, stderr, hencode, sorted, log, filter, hperm, hsorted, hwarn, hrun⟩

end AttributeWire
