/-
**An encoding that fails leaves no list.**

Encoding writes the line of each argument before it looks at the next one, so that an argument that
gives no attribute leaves the lines of those before it.  The empty line that ends a list is missing
then, and no values can make up for it, since a newline never stands in base64.  Whatever wish list
such lines are scanned with, the scan runs into the end of the input.

Main results:

* `encodeAttributes_of_not_forall` — **the lines up to the first bad argument**;
* `attributeLines_ne_listText` — **lines without an end are no list**;
* `exact_listText` — a lenient scan needs the whole text of a list;
* `starved_of_attributeLines` — **lines without an end starve a scan**;
* `run_encode_unfinished` — **a list is written if and only if every argument gives an attribute**.
-/

import AttributeWire.Proofs.Pipeline

set_option relaxedAutoImplicit false
set_option autoImplicit false

namespace AttributeWire

/-! ### What is written -/

theorem encodeAttributes_of_not_isAssignment {text : String} (h : ¬ IsAssignment text)
    (texts : List String) :
    ∃ failure, encodeAttributes (text :: texts) = ⟨[], [], some failure⟩ := by
  rw [encodeAttributes, Lines.splitOnce?_eq]
  by_cases hmem : '=' ∈ text.toList
  · have hname : text.toList.takeWhile (· ≠ '=') = [] :=
      Classical.not_not.1 fun hne => h ⟨hmem, hne⟩
    rw [if_pos hmem, hname]
    exact ⟨_, rfl⟩
  · rw [if_neg hmem]
    exact ⟨_, rfl⟩

/-- **The lines up to the first bad argument** are written, and then encoding fails. -/
theorem encodeAttributes_of_not_forall {texts : List String}
    (h : ¬ ∀ text ∈ texts, IsAssignment text) :
    ∃ failure, encodeAttributes texts =
      ⟨attributeLines ((texts.takeWhile (IsAssignment ·)).map argumentPair), [], some failure⟩ := by
  induction texts with
  | nil => simp at h
  | cons text texts ih =>
      by_cases hfirst : IsAssignment text
      · have hothers : ¬ ∀ text ∈ texts, IsAssignment text :=
          fun hall => h (List.forall_mem_cons.2 ⟨hfirst, hall⟩)
        obtain ⟨failure, hrest⟩ := ih hothers
        refine ⟨failure, ?_⟩
        rw [encodeAttributes_cons hfirst, hrest, List.takeWhile_cons_of_pos (by simpa using hfirst),
          List.map_cons, attributeLines_cons]
        rfl
      · rw [List.takeWhile_cons_of_neg (by simpa using hfirst)]
        exact encodeAttributes_of_not_isAssignment hfirst texts

/-- **Lines without an end are no list.** -/
theorem attributeLines_ne_listText (attributes others : List (Bytes × Bytes)) :
    attributeLines attributes ≠ listText others := by
  intro heq
  have hlines := (lines_attributeLines attributes).not_endsInEmptyLine_of_front List.prefix_rfl
  rw [heq] at hlines
  exact hlines (isSegment_listText others).1

/-! ### Scanning it -/

section

variable {config : Config} {flags : Flags} {list : WishList} {attributes : List (Bytes × Bytes)}

/-- A scan that skips what was not asked for, and leaves nothing to the next one, needs the whole
text of a list. -/
theorem exact_listText (hextra : flags.extra = false) (hmore : flags.more = false)
    (hfits : config.FitsAll attributes)
    (hconv : Convertible list.wishes attributes (places (list.wishes.map Wish.name) attributes)) :
    ∃ answer, Exact (scan config flags list) (fun r => Starved r.outcome) (listText attributes)
      answer := by
  let s := Stream.bytewise (listText attributes) .closed
  have hs : s.Steady := Stream.steady_bytewise _ _
  have hwire : s.unread = listText attributes := Stream.unread_bytewise _ _
  have hle : (places (list.wishes.map Wish.name) attributes).length ≤ list.wishes.length := by
    simpa using length_places_le (list.wishes.map Wish.name) attributes
  have hlenient : LenientScan flags list.wishes list.capture attributes []
      (places (list.wishes.map Wish.name) attributes) (scan config flags list s) :=
    lenientScan_places hextra hs (hwire.trans (List.append_nil _).symm) hfits hconv
  obtain ⟨n, houtcome, hunread⟩ := hlenient.reads_list hle hmore
  exact ⟨_, hwire ▸ exact_scan_of_drained hs.gapless houtcome hunread⟩

/-- **Lines without an end starve a scan.** -/
theorem starved_of_attributeLines {t : Stream} (hextra : flags.extra = false)
    (hmore : flags.more = false) (hfits : config.FitsAll attributes)
    (hconv : Convertible list.wishes attributes (places (list.wishes.map Wish.name) attributes))
    (ht : t.Steady) (hending : t.ending = .closed)
    (hunread : t.unread = attributeLines attributes) :
    Starved (scan config flags list t).outcome := by
  obtain ⟨answer, hexact⟩ := exact_listText hextra hmore hfits hconv
  refine hexact.short (ht.cutShort hending ?_ ?_)
  · rw [hunread]
    exact List.prefix_append _ _
  · rw [hunread]
    exact attributeLines_ne_listText attributes attributes

end

/-! ### The command -/

/-- **A list is written if and only if every argument gives an attribute.**  Otherwise the lines up
to the first bad argument are written, and every scan of them that skips what was not asked for and
leaves nothing to the next scan fails because the input ended too early. -/
theorem run_encode_unfinished {args : List String} {env : Environment} {verbose : Bool}
    {texts : List String} {filter : LogFilter}
    (hparse : Invocation.parse args = .run ⟨verbose, .encode texts⟩)
    (hfilter : LogFilter.parse (Command.filterText verbose env.logSetting).toList = .ok filter) :
    ∃ exit stdout stderr, Command.run args env = .finished exit stdout stderr ∧
      ((∃ attributes, stdout = listText attributes) ↔ ∀ text ∈ texts, IsAssignment text) ∧
      ((∀ text ∈ texts, IsAssignment text) →
        exit = 0 ∧ stdout = listText (texts.map argumentPair)) ∧
      ((∃ text ∈ texts, ¬ IsAssignment text) →
        let written := (texts.takeWhile (IsAssignment ·)).map argumentPair
        exit = 1 ∧ stdout = attributeLines written ∧
          ∀ (config : Config) (flags : Flags) (list : WishList) (t : Stream),
            flags.more = false → flags.extra = false → config.FitsAll written →
            Convertible list.wishes written (places (list.wishes.map Wish.name) written) →
            t.Steady → t.ending = .closed → t.unread = stdout →
              ∃ part, (scan config flags list t).outcome = .error (.prematureEof part)) := by
  have hrun : Command.run args env =
      Command.Transcript.outcome filter (encodeAttributes texts) := by
    simp only [Command.run, hparse, hfilter, Command.perform]
  rw [hrun]
  by_cases hall : ∀ text ∈ texts, IsAssignment text
  · rw [encodeAttributes_of_forall hall]
    refine ⟨_, _, _, rfl, ⟨fun _ => hall, fun _ => ⟨_, rfl⟩⟩, fun _ => ⟨rfl, rfl⟩, ?_⟩
    rintro ⟨text, hmem, hbad⟩
    exact absurd (hall text hmem) hbad
  · obtain ⟨failure, hencode⟩ := encodeAttributes_of_not_forall hall
    rw [hencode]
    refine ⟨_, _, _, rfl, ⟨?_, fun h => absurd h hall⟩, fun h => absurd h hall, fun _ => ?_⟩
    · rintro ⟨attributes, hlist⟩
      exact absurd hlist (attributeLines_ne_listText _ attributes)
    · refine ⟨rfl, rfl, fun config flags list t hmore hextra hfits hconv ht hending hunread => ?_⟩
      exact starved_of_attributeLines hextra hmore hfits hconv ht hending hunread

/-- The third argument has no name.  The number that is wanted is in the first line, and there is a
newline in the value of the second. -/
theorem run_encode_unfinished_of_third :
    let nothing : String → Except Fault Resource := fun _ => .error (.ofKind .notFound)
    let written : List (Bytes × Bytes) := [([97], [55]), ([98], [120, 10, 121])]
    ∃ stderr, Command.run ["encode", "--", "a=7", "b=x\ny", "=c", "d=1"]
          ⟨.ofEvents [] .closed, nothing, none⟩ = .finished 1 (attributeLines written) stderr ∧
      ∃ part, (scan .standard ⟨true, false, false⟩ ⟨[⟨[97], .uint 0⟩], some .empty⟩
        (.bytewise (attributeLines written) .closed)).outcome = .error (.prematureEof part) := by
  intro nothing written
  obtain ⟨filter, hfilter⟩ :
      ∃ filter, LogFilter.parse (Command.filterText false none).toList = .ok filter := ⟨_, rfl⟩
  obtain ⟨exit, stdout, stderr, hrun, -, -, hbad⟩ :=
    @run_encode_unfinished _ ⟨.ofEvents [] .closed, nothing, none⟩ _ _ _
      (parse_encode_positional ["a=7", "b=x\ny", "=c", "d=1"]) hfilter
  obtain ⟨rfl, rfl, hscan⟩ := hbad ⟨"=c", by simp, by decide⟩
  have hwritten : (["a=7", "b=x\ny", "=c", "d=1"].takeWhile (IsAssignment ·)).map argumentPair =
      written := by decide
  rw [hwritten] at hrun hscan
  have hconv : Convertible [⟨[97], .uint 0⟩] written [0] := by
    rintro (_ | i) place wish pair hwish hplace hpair
    · cases hwish
      cases hplace
      cases hpair
      decide
    · simp at hplace
  exact ⟨stderr, hrun, hscan .standard ⟨true, false, false⟩ ⟨[⟨[97], .uint 0⟩], some .empty⟩ _ rfl
    rfl (by decide) hconv (Stream.steady_bytewise _ _) rfl (Stream.unread_bytewise _ _)⟩

end AttributeWire
