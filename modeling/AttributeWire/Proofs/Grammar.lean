/-
**A capture accepts exactly the lists of the wire grammar.**

On the wire a list is a sequence of lines, each a name, a colon, a value and a newline, and then one
newline more.  Names and values are sequences of blocks, within the limit.  A capture for which no
attribute may stop the scan succeeds if and only if the input begins with such a list, and then
consumes that list and nothing else: a name may be empty, since only a newline directly at the
beginning of a line ends the list.

Main definitions:

* `IsField`, `wireText`, `IsWireText` — a name or value on the wire, and the text of a list;
* `Decodes` — what the fields of a line stand for;
* `Accepted` — what capturing a list gives.

Main results:

* `pass_of_ahead`, `reaches_of_wireText` — **a line that is ahead is captured**, and so are many;
* `exists_wireText_of_scan` — what was accepted was a list;
* `scan_capture_iff` — **exactly the lists of the grammar are accepted**.
-/

import AttributeWire.Proofs.Course

set_option relaxedAutoImplicit false
set_option autoImplicit false

namespace AttributeWire

/-! ### The grammar -/

/-- A name or a value on the wire: a sequence of blocks, within the limit. -/
structure IsField (config : Config) (raw : Bytes) : Prop where
  fits : raw.length ≤ config.fieldLimit
  blocks : Base64.Blocks raw

/-- A line on the wire: a name and a value. -/
def IsFields (config : Config) (line : Bytes × Bytes) : Prop :=
  IsField config line.1 ∧ IsField config line.2

/-- The text of a list on the wire: for each line its name, a colon, its value and a newline, and in
the end one newline more. -/
def wireText (lines : List (Bytes × Bytes)) : Bytes :=
  lines.flatMap (fun line => line.1 ++ Bytes.colon :: (line.2 ++ [Bytes.newline])) ++
    [Bytes.newline]

/-- The text of some list on the wire. -/
def IsWireText (config : Config) (text : Bytes) : Prop :=
  ∃ lines, (∀ line ∈ lines, IsFields config line) ∧ text = wireText lines

/-- The name and the value that a line stands for. -/
def Decodes (line pair : Bytes × Bytes) : Prop :=
  Base64.decode? line.1 = some pair.1 ∧ Base64.decode? line.2 = some pair.2

theorem wireText_cons (line : Bytes × Bytes) (lines : List (Bytes × Bytes)) :
    wireText (line :: lines) =
      line.1 ++ Bytes.colon :: (line.2 ++ [Bytes.newline]) ++ wireText lines := by
  simp [wireText]

/-- What capturing a list gives: the text is consumed, and the table is extended by what its lines
stand for, the first value of a name counting; each new name is one more. -/
structure Accepted (table : Table) (lines : List (Bytes × Bytes)) (s : Stream) (r : ScanResult) :
    Prop where
  consumed : s.unread = wireText lines ++ r.stream.unread
  captured : ∃ pairs table' n, List.Forall₂ Decodes lines pairs ∧ r.outcome = .ok n ∧
    r.list = ⟨[], some table'⟩ ∧
    (∀ name, table'.get? name = (table.get? name).or (Table.lookup name pairs)) ∧
    table'.size = table.size + n

section

variable {config : Config} {flags : Flags} {s s' : Stream} {table : Table} {raw raw' rest : Bytes}
  {name value : Bytes}

theorem WrittenForm.isField {plain : Bytes} (h : WrittenForm config raw plain) :
    IsField config raw :=
  ⟨h.fits, Base64.isSome_decode?_iff.1 (by rw [h.decodes]; rfl)⟩

theorem IsField.exists_writtenForm (h : IsField config raw) :
    ∃ plain, WrittenForm config raw plain := by
  obtain ⟨plain, hplain⟩ := Option.isSome_iff_exists.1 (Base64.isSome_decode?_iff.2 h.blocks)
  exact ⟨plain, h.fits, hplain⟩

/-- The lines of attributes are the text of a list, up to the newline in the end. -/
theorem exists_wireText_of_forall₂ {pairs : List (Bytes × Bytes)} {texts : List Bytes}
    (h : List.Forall₂ (AttributeText config) pairs texts) :
    ∃ lines, (∀ line ∈ lines, IsFields config line) ∧
      wireText lines = texts.flatten ++ [Bytes.newline] := by
  induction h with
  | nil => exact ⟨[], by simp, rfl⟩
  | cons htext _ ih =>
      obtain ⟨raw, raw', hname, hvalue, rfl⟩ := htext
      obtain ⟨lines, hlines, htexts⟩ := ih
      refine ⟨(raw, raw') :: lines, ?_, ?_⟩
      · exact List.forall_mem_cons.2 ⟨⟨hname.isField, hvalue.isField⟩, hlines⟩
      · simp [wireText_cons, htexts]

/-! ### What is ahead is captured -/

/-- The line of an attribute that is wanted is taken if it is ahead. -/
theorem takes_of_ahead {list : WishList} {target : Wanted}
    (hwanted : list.wanted? flags = some target) (haccepts : target.Accepts name) (hs : s.Gapless)
    (hname : WrittenForm config raw name) (hvalue : WrittenForm config raw' value)
    (hahead : s.ahead = raw ++ Bytes.colon :: (raw' ++ [Bytes.newline]) ++ rest) :
    ∃ s', Takes config flags list s target ⟨name, .colon⟩ value s' ∧
      s.Advances (raw ++ Bytes.colon :: (raw' ++ [Bytes.newline])) s' := by
  have hahead₁ : s.ahead = raw ++ Delimiter.colon.byte :: (raw' ++ [Bytes.newline] ++ rest) := by
    rw [hahead]
    simp [Delimiter.byte]
  obtain ⟨s₁, hfield, hadv₁⟩ := readField_of_ahead hs hname.undelimited hahead₁ hname.fits
  have hahead₂ : s₁.ahead = raw' ++ Delimiter.newline.byte :: rest := by
    refine hadv₁.ahead_eq ?_
    rw [hahead₁]
    simp [Delimiter.byte]
  obtain ⟨s', hfield', hadv₂⟩ :=
    readField_of_ahead hadv₁.gapless hvalue.undelimited hahead₂ hvalue.fits
  have hread : readName config s = ⟨.ok ⟨name, .colon⟩, [.nameRead name], s₁⟩ := by
    simp [readName, hfield, Field.ofRaw, hname.decodes]
  have hread' : readValue config list.kindText ⟨name, .colon⟩ s₁ =
      ⟨.ok value, [.valueRead value], s'⟩ := by
    simp [readValue, hfield', Field.ofRaw, hvalue.decodes]
  refine ⟨s', ⟨haccepts, s₁, ⟨hwanted, hread⟩, hread'⟩, ?_⟩
  have htrans := hadv₁.trans hadv₂
  rwa [List.append_assoc] at htrans

/-- **A line that is ahead is captured**, unless its name is bound. -/
theorem pass_of_ahead (hextra : flags.extra = false) (hs : s.Gapless)
    (hname : WrittenForm config raw name) (hvalue : WrittenForm config raw' value)
    (hahead : s.ahead = raw ++ Bytes.colon :: (raw' ++ [Bytes.newline]) ++ rest) :
    ∃ gain s', Pass config flags ⟨[], some table⟩ s gain
        ⟨[], some (table.insertNew name value)⟩ s' ∧
      s.Advances (raw ++ Bytes.colon :: (raw' ++ [Bytes.newline])) s' := by
  have hwanted : WishList.wanted? flags ⟨[], some table⟩ = some .any := rfl
  obtain ⟨s', htakes, hadv⟩ :=
    takes_of_ahead hwanted (Wanted.accepts_any name) hs hname hvalue hahead
  cases hbound : table.get? name with
  | none =>
      rw [Table.insertNew_of_none hbound]
      exact ⟨_, s', .captured htakes hbound, hadv⟩
  | some old =>
      have hold : (table.get? name).isSome := by rw [hbound]; rfl
      rw [Table.insertNew_of_some hbound]
      exact ⟨_, s', .repeated htakes hextra hold, hadv⟩

/-- **Lines that are ahead are captured**, one after the other. -/
theorem reaches_of_wireText (hextra : flags.extra = false) {lines : List (Bytes × Bytes)}
    (hlines : ∀ line ∈ lines, IsFields config line) (hs : s.Steady)
    (hwire : s.unread = wireText lines ++ rest) :
    ∃ pairs gain s', List.Forall₂ Decodes lines pairs ∧
      Reaches config flags ⟨[], some table⟩ s gain ⟨[], some (table.extend pairs)⟩ s' ∧
      s'.Steady ∧ s'.unread = Bytes.newline :: rest := by
  induction lines generalizing s table with
  | nil => exact ⟨[], _, s, .nil, .here, hs, hwire⟩
  | cons line lines ih =>
      obtain ⟨⟨hfield, hfield'⟩, hlines⟩ := List.forall_mem_cons.1 hlines
      obtain ⟨name, hname⟩ := hfield.exists_writtenForm
      obtain ⟨value, hvalue⟩ := hfield'.exists_writtenForm
      rw [wireText_cons, List.append_assoc] at hwire
      have hahead := hwire
      rw [← hs.ahead] at hahead
      obtain ⟨gain, s₁, hpass, hadv⟩ := pass_of_ahead hextra hs.gapless hname hvalue hahead
      obtain ⟨pairs, gain', s', hpairs, hreach, hs', hwire'⟩ :=
        ih hlines (hadv.steady hs) (hadv.unread_eq_of_append hwire)
      exact ⟨(name, value) :: pairs, _, s', .cons ⟨hname.decodes, hvalue.decodes⟩ hpairs,
        .pass hpass hreach, hs', hwire'⟩

/-- A newline that is ahead ends the list. -/
theorem stop_of_newline {list : WishList} {target : Wanted}
    (hwanted : list.wanted? flags = some target) (hs : s.Steady)
    (hwire : s.unread = Bytes.newline :: rest) :
    ∃ u, Stop config flags list s
        ⟨.ok 0, list, [.wanted target, .nameRead []] ++ target.missingWarning flags, u⟩ ∧
      u.unread = rest := by
  have hahead : s.ahead = terminatorLine ++ rest := by
    rw [hs.ahead, hwire]
    rfl
  obtain ⟨u, hread, hadv⟩ := readName_of_terminator config hs.gapless hahead
  exact ⟨u, .terminator ⟨hwanted, hread⟩ rfl, hadv.unread_eq_of_append hwire⟩

/-- **A list that is ahead is accepted.** -/
theorem accepted_of_wireText (hextra : flags.extra = false) (hs : s.Steady)
    {lines : List (Bytes × Bytes)} (hlines : ∀ line ∈ lines, IsFields config line)
    (hwire : wireText lines <+: s.unread) :
    Accepted table lines s (scan config flags ⟨[], some table⟩ s) := by
  obtain ⟨rest, hrest⟩ := hwire
  obtain ⟨pairs, gain, s', hpairs, hreach, hs', hwire'⟩ :=
    reaches_of_wireText hextra hlines hs hrest.symm
  have hwanted : WishList.wanted? flags ⟨[], some (table.extend pairs)⟩ = some .any := rfl
  obtain ⟨u, hstop, hu⟩ := stop_of_newline hwanted hs' hwire'
  obtain ⟨pairs', -, -, -, -, hlist, hwishes, hsize, -⟩ := captured_of_reaches hreach
  have htable : table.extend pairs = table.extend pairs' := by simpa using hlist
  rw [scan_of_reaches hreach, scan_of_stop hstop]
  refine ⟨?_, pairs, table.extend pairs, gain.count, hpairs, rfl, ?_, ?_, ?_⟩
  · rw [← hrest, ← hu]
    rfl
  · rw [ScanResult.passed, hwishes, List.nil_append]
  · exact table.get?_extend pairs
  · rw [htable, hsize]

/-! ### What is captured was ahead -/

/-- Under flags that let no attribute stop it, only the end of the list stops a capture. -/
theorem terminator_of_stop {r : ScanResult} {n : Nat} (hextra : flags.extra = false)
    (h : Stop config flags ⟨[], some table⟩ s r) (hok : r.outcome = .ok n) :
    s.unread = Bytes.newline :: r.stream.unread := by
  cases h with
  | left hwanted => simp [WishList.wanted?] at hwanted
  | terminator h hterm => exact h.unread_terminator hterm
  | spurious h hstrict => simp [hextra] at hstrict
  | duplicate h hstrict hold => simp [hextra] at hstrict
  | failed h => simp at hok

/-- **What was accepted was a list.** -/
theorem exists_wireText_of_scan {n : Nat} (hextra : flags.extra = false)
    (hok : (scan config flags ⟨[], some table⟩ s).outcome = .ok n) :
    ∃ text, IsWireText config text ∧ text <+: s.unread := by
  obtain ⟨gain, list', s', r, hreach, hstop, hscan⟩ :=
    exists_course config flags ⟨[], some table⟩ s
  obtain ⟨pairs, texts, htexts, -, hunread, rfl, -, -, -⟩ := captured_of_reaches hreach
  rw [hscan] at hok
  obtain ⟨m, hm, -⟩ := ScanResult.exists_of_passed_ok hok
  have hend := terminator_of_stop hextra hstop hm
  obtain ⟨lines, hlines, hwire⟩ := exists_wireText_of_forall₂ htexts
  refine ⟨wireText lines, ⟨lines, hlines, rfl⟩, r.stream.unread, ?_⟩
  rw [hwire, hunread, hend, List.append_assoc]
  rfl

/-! ### The grammar -/

/-- **Exactly the lists of the grammar are accepted.**  A capture succeeds if and only if the input
begins with a list; then it begins with one list only, and that list is consumed. -/
theorem scan_capture_iff (config : Config) (table : Table) (hextra : flags.extra = false)
    (hs : s.Steady) :
    let r := scan config flags ⟨[], some table⟩ s
    ((∃ n, r.outcome = .ok n) ↔ ∃ text, IsWireText config text ∧ text <+: s.unread) ∧
      (∀ text other, IsWireText config text → text <+: s.unread → IsWireText config other →
        other <+: s.unread → text = other) ∧
      ∀ lines, (∀ line ∈ lines, IsFields config line) → wireText lines <+: s.unread →
        Accepted table lines s r := by
  intro r
  have haccepted : ∀ lines, (∀ line ∈ lines, IsFields config line) →
      wireText lines <+: s.unread → Accepted table lines s r := by
    intro lines hlines hwire
    exact accepted_of_wireText hextra hs hlines hwire
  refine ⟨⟨?_, ?_⟩, ?_, haccepted⟩
  · rintro ⟨n, hok⟩
    exact exists_wireText_of_scan hextra hok
  · rintro ⟨text, ⟨lines, hlines, rfl⟩, hwire⟩
    obtain ⟨pairs, table', n, -, hok, -⟩ := (haccepted lines hlines hwire).captured
    exact ⟨n, hok⟩
  · rintro text other ⟨lines, hlines, rfl⟩ hwire ⟨others, hothers, rfl⟩ hwire'
    have hconsumed := (haccepted lines hlines hwire).consumed
    have hconsumed' := (haccepted others hothers hwire').consumed
    rw [hconsumed] at hconsumed'
    exact List.append_cancel_right hconsumed'

/-- Neither an empty name nor bits left over in a padded block end the list, and a name that is
bound keeps its value. -/
theorem scan_capture_iff_bytewise :
    let lines : List (Bytes × Bytes) :=
      [([], [77, 81, 61, 61]), ([89, 88, 61, 61], [77, 103, 61, 61]), ([89, 81, 61, 61], []),
        ([89, 103, 61, 61], [77, 119, 61, 61])]
    let table := Table.empty.insert [98] [48]
    let s := Stream.bytewise (wireText lines ++ [33]) .silent
    let r := scan .standard ⟨true, false, true⟩ ⟨[], some table⟩ s
    ((∃ n, r.outcome = .ok n) ↔ ∃ text, IsWireText .standard text ∧ text <+: s.unread) ∧
      (∀ text other, IsWireText .standard text → text <+: s.unread → IsWireText .standard other →
        other <+: s.unread → text = other) ∧
      Accepted table lines s r := by
  intro lines table s r
  have hfield : ∀ raw : Bytes, raw.length ≤ 4096 → (Base64.decode? raw).isSome →
      IsField .standard raw := fun raw hfits hdecode =>
    ⟨hfits, Base64.isSome_decode?_iff.1 hdecode⟩
  have hlines : ∀ line ∈ lines, IsFields .standard line := by
    intro line hmem
    have hboth : line.1.length ≤ 4096 ∧ (Base64.decode? line.1).isSome ∧
        line.2.length ≤ 4096 ∧ (Base64.decode? line.2).isSome := by
      revert line
      decide
    obtain ⟨hfits, hdecode, hfits', hdecode'⟩ := hboth
    exact ⟨hfield _ hfits hdecode, hfield _ hfits' hdecode'⟩
  have hwire : wireText lines <+: s.unread := by
    rw [Stream.unread_bytewise]
    exact List.prefix_append _ _
  obtain ⟨hiff, hunique, haccepted⟩ :=
    scan_capture_iff .standard table (rfl : Flags.extra ⟨true, false, true⟩ = false)
      (Stream.steady_bytewise (wireText lines ++ [33]) .silent)
  exact ⟨hiff, hunique, haccepted lines hlines hwire⟩

end

end AttributeWire
