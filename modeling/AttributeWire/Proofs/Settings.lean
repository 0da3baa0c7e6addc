/-
**Configurations in JSON are read back.**

What is written for a configuration is an object with a number and, if there is a timeout, a string
without escapes.  Its tokens are found again one character at a time: digits make up a numeral
without a leading zero, which ends at the first character that is none of its own, and a plain
character of a string stands for itself.  The numeral has the value that was written, since a line
limit fits into 64 bits, and the string is the timeout in words.

Main definitions:

* `Json.IsPlain` — a character that stands for itself in a string;
* `Json.Numeral.ofNat` — the numeral that is written for a number.

Main results:

* `Json.Numeral.ofChars?_toString`, `Json.Numeral.value?_ofNat` — **a number is read back**;
* `Json.tokensFrom_string`, `Json.tokensFrom_number` — **tokens are found again**;
* `Duration.isPlain_words` — words are plain;
* `Config.ofJson?_toJson` — **a configuration is read back**.
-/

import AttributeWire.Config.Json
import AttributeWire.Proofs.Words

set_option relaxedAutoImplicit false
set_option autoImplicit false

namespace AttributeWire

/-! ### Numerals -/

/-- Only a lone zero begins with a zero. -/
theorem Decimal.digits_ne_zero_cons_cons (n d : Nat) (ds : List Nat) : digits n ≠ 0 :: d :: ds := by
  induction n using Nat.strongRecOn generalizing d ds with
  | ind n ih =>
      by_cases h : n < 10
      · simp [digits_of_lt h]
      · rw [digits_of_le (Nat.le_of_not_lt h)]
        intro heq
        rcases hfront : digits (n / 10) with _ | ⟨e, _ | ⟨e', es⟩⟩
        · exact digits_ne_nil _ hfront
        · -- the number without its last digit would be zero
          have hvalue := value_digits (n / 10)
          rw [hfront, List.cons_append, List.cons.injEq] at heq
          rw [hfront, heq.1, value, valueFrom, valueFrom] at hvalue
          omega
        · rw [hfront, List.cons_append, List.cons.injEq] at heq
          exact ih (n / 10) (by omega) e' es (heq.1 ▸ hfront)

namespace Json

theorem spanDigits_digits {ds : List Nat} (h : ∀ d ∈ ds, d < 10) :
    spanDigits (ds.map Nat.digitChar) = (ds, []) := by
  have hdigit : ∀ d < 10, (Nat.digitChar d).isDigit = true ∧ (Nat.digitChar d).toNat - 48 = d := by
    decide
  induction ds with
  | nil => rfl
  | cons d ds ih =>
      obtain ⟨hd, hrest⟩ := List.forall_mem_cons.1 h
      rw [List.map_cons, spanDigits, if_pos (hdigit d hd).1, ih hrest, (hdigit d hd).2]

/-- Digits that fit into 64 bits are all taken on. -/
theorem absorb_of_lt {ds : List Nat} {significand : Nat}
    (h : Decimal.valueFrom significand ds < UInt64.size) :
    absorb significand ds = (Decimal.valueFrom significand ds, []) := by
  induction ds generalizing significand with
  | nil => rfl
  | cons d ds ih =>
      have hfirst : significand * 10 + d < UInt64.size :=
        Nat.lt_of_le_of_lt (Decimal.le_valueFrom _ ds) h
      rw [absorb, if_pos hfirst, ih h, Decimal.valueFrom]

namespace Numeral

/-- The numeral that is written for a number. -/
def ofNat (n : Nat) : Numeral := ⟨false, Decimal.digits n, [], none⟩

theorem unsigned?_digits {ds : List Nat} (hds : ∀ d ∈ ds, d < 10) (hne : ds ≠ [])
    (hzero : ∀ d es, ds ≠ 0 :: d :: es) (negative : Bool) :
    unsigned? negative (ds.map Nat.digitChar) = some ⟨negative, ds, [], none⟩ := by
  rw [unsigned?, spanDigits_digits hds]
  split
  · rename_i heq
    exact absurd (Prod.mk.inj heq).1 hne
  · rename_i heq
    exact absurd (Prod.mk.inj heq).1 (hzero _ _)
  · rename_i heq
    exact nomatch (Prod.mk.inj heq).2
  · rename_i heq
    obtain ⟨rfl, rfl⟩ := Prod.mk.inj heq
    rfl

/-- **The text of a number is its numeral.** -/
theorem ofChars?_toString (n : Nat) : ofChars? (toString n).toList = some (ofNat n) := by
  have hds := fun d (hmem : d ∈ Decimal.digits n) => Decimal.lt_ten_of_mem_digits hmem
  have hsign : ∀ d < 10, Nat.digitChar d ≠ '-' := by decide
  rw [Decimal.toList_toString, ofChars?]
  · exact unsigned?_digits hds (Decimal.digits_ne_nil n) (Decimal.digits_ne_zero_cons_cons n) false
  · intro rest heq
    obtain ⟨d, ds, hcons, hminus, -⟩ := List.map_eq_cons_iff.1 heq
    exact hsign d (hds d (hcons ▸ List.mem_cons_self)) hminus

/-- **The value of the numeral is the number.** -/
theorem value?_ofNat (n : UInt64) : (ofNat n.toNat).value? = some (.natural n) := by
  have hvalue : Decimal.valueFrom 0 (Decimal.digits n.toNat) = n.toNat :=
    Decimal.value_digits n.toNat
  have hfits : Decimal.valueFrom 0 (Decimal.digits n.toNat) < UInt64.size := by
    rw [hvalue]
    exact n.toNat_lt
  have habsorb := absorb_of_lt hfits
  rw [hvalue] at habsorb
  rw [value?, ofNat]
  simp only [habsorb, integerOf]
  rw [Bool.not_false, if_pos rfl, UInt64.ofNat_toNat]

end Numeral

/-! ### Tokens -/

/-- A character that completes a token and begins the next one. -/
theorem tokensFrom_turn {mode : Mode} {c : Char} {done : List Token}
    (hstep : step mode c = turn mode c) (hdone : complete? mode = some done) (rest : List Char) :
    tokensFrom mode (c :: rest) = (tokensFrom .between (c :: rest)).map (done ++ ·) := by
  have hbetween : step .between c = start c := rfl
  rw [tokensFrom, tokensFrom, hstep, hbetween, turn, hdone]
  cases start c with
  | none => rfl
  | some next => simp [Function.comp_def]

/-- A character that is a token by itself. -/
theorem tokensFrom_symbol {c : Char} {token : Token} (h : start c = some ([token], .between))
    (rest : List Char) :
    tokensFrom .between (c :: rest) = (tokensFrom .between rest).map (token :: ·) := by
  have hbetween : step .between c = start c := rfl
  rw [tokensFrom, hbetween, h]
  rfl

theorem tokensFrom_numeral {cs : List Char} (h : ∀ c ∈ cs, isNumeralChar c = true)
    (chars rest : List Char) :
    tokensFrom (.numeral chars) (cs ++ rest) =
      tokensFrom (.numeral (cs.reverse ++ chars)) rest := by
  induction cs generalizing chars with
  | nil => rfl
  | cons c cs ih =>
      obtain ⟨hc, hcs⟩ := List.forall_mem_cons.1 h
      have hstep : step (.numeral chars) c = some ([], .numeral (c :: chars)) := by
        rw [step, if_pos hc]
      rw [List.cons_append, tokensFrom, hstep, List.reverse_cons, List.append_assoc,
        List.singleton_append, ← ih hcs]
      exact Option.map_id'

/-- **A number** ends at the first character that belongs to no numeral. -/
theorem tokensFrom_number (n : Nat) {c : Char} (hc : isNumeralChar c = false) (rest : List Char) :
    tokensFrom .between ((toString n).toList ++ c :: rest) =
      (tokensFrom .between (c :: rest)).map (.number (.ofNat n) :: ·) := by
  have hdigit : ∀ d < 10, isNumeralChar (Nat.digitChar d) = true ∧
      start (Nat.digitChar d) = some ([], .numeral [Nat.digitChar d]) := by
    decide
  have hchars : ∀ c ∈ (toString n).toList,
      isNumeralChar c = true ∧ start c = some ([], .numeral [c]) := by
    rw [Decimal.toList_toString]
    exact List.forall_mem_map.2 fun d hmem => hdigit d (Decimal.lt_ten_of_mem_digits hmem)
  have hnumeral := Numeral.ofChars?_toString n
  have hne : (toString n).toList ≠ [] := by
    rw [Decimal.toList_toString]
    simpa using Decimal.digits_ne_nil n
  obtain ⟨first, others, hcons⟩ := List.exists_cons_of_ne_nil hne
  rw [hcons] at hchars hnumeral ⊢
  obtain ⟨⟨-, hstart⟩, hothers⟩ := List.forall_mem_cons.1 hchars
  have hopen : tokensFrom .between (first :: others ++ c :: rest) =
      tokensFrom (.numeral [first]) (others ++ c :: rest) := by
    rw [List.cons_append, tokensFrom, step, hstart]
    exact Option.map_id'
  have hdone : complete? (.numeral (others.reverse ++ [first])) = some [.number (.ofNat n)] := by
    rw [complete?, List.reverse_append, List.reverse_reverse, List.reverse_singleton,
      List.singleton_append, hnumeral, Option.map_some]
  have hstep : step (.numeral (others.reverse ++ [first])) c =
      turn (.numeral (others.reverse ++ [first])) c := by
    rw [step, hc, if_neg Bool.false_ne_true]
  rw [hopen, tokensFrom_numeral fun c hmem => (hothers c hmem).1, tokensFrom_turn hstep hdone]
  rfl

/-- A character that stands for itself in a string. -/
def IsPlain (c : Char) : Prop := c ≠ '"' ∧ c ≠ '\\' ∧ 32 ≤ c.toNat

instance (c : Char) : Decidable (IsPlain c) :=
  inferInstanceAs (Decidable (c ≠ '"' ∧ c ≠ '\\' ∧ 32 ≤ c.toNat))

theorem tokensFrom_plain {cs : List Char} (h : ∀ c ∈ cs, IsPlain c) (pieces : List Piece)
    (rest : List Char) :
    tokensFrom (.string pieces) (cs ++ rest) =
      tokensFrom (.string ((cs.map Piece.char).reverse ++ pieces)) rest := by
  induction cs generalizing pieces with
  | nil => rfl
  | cons c cs ih =>
      obtain ⟨⟨hquote, hslash, hcontrol⟩, hcs⟩ := List.forall_mem_cons.1 h
      have hstep : step (.string pieces) c = some ([], .string (.char c :: pieces)) := by
        rw [step, if_neg hquote, if_neg hslash, if_neg (Nat.not_lt.2 hcontrol)]
      rw [List.cons_append, tokensFrom, hstep, List.map_cons, List.reverse_cons, List.append_assoc,
        List.singleton_append, ← ih hcs]
      exact Option.map_id'

/-- **A string** of plain characters. -/
theorem tokensFrom_string {cs : List Char} (h : ∀ c ∈ cs, IsPlain c) (rest : List Char) :
    tokensFrom .between ('"' :: (cs ++ '"' :: rest)) =
      (tokensFrom .between rest).map (.string (cs.map .char) :: ·) := by
  have hopen : tokensFrom .between ('"' :: (cs ++ '"' :: rest)) =
      tokensFrom (.string []) (cs ++ '"' :: rest) := by
    rw [tokensFrom]
    exact Option.map_id'
  have hclose (pieces : List Piece) :
      step (.string pieces) '"' = some ([.string pieces.reverse], .between) := by
    rw [step, if_pos rfl]
  rw [hopen, tokensFrom_plain h, tokensFrom, hclose, List.append_nil, List.reverse_reverse]
  rfl

theorem decodePieces_char (cs : List Char) : decodePieces (cs.map .char) = some cs := by
  induction cs with
  | nil => rfl
  | cons c cs ih => rw [List.map_cons, decodePieces, ih, Option.map_some]

end Json

/-! ### Words are plain -/

namespace Duration

open Json (IsPlain)

theorem isPlain_toString (n : Nat) : ∀ c ∈ (toString n).toList, IsPlain c := by
  have hdigit : ∀ d < 10, IsPlain (Nat.digitChar d) := by decide
  rw [Decimal.toList_toString]
  exact List.forall_mem_map.2 fun d hmem => hdigit d (Decimal.lt_ten_of_mem_digits hmem)

theorem isPlain_names : ∀ entry ∈ TimeUnit.names, ∀ name ∈ entry.2, ∀ c ∈ name.toList,
    IsPlain c := by
  simp only [← List.all_iff_forall_prop]
  decide

theorem isPlain_text {part : Part} (h : part.Readable) : ∀ c ∈ part.text.toList, IsPlain c := by
  rw [Part.text, String.toList_append]
  exact List.forall_mem_append.2
    ⟨isPlain_toString part.count, of_ofName? isPlain_names h.named⟩

theorem isPlain_joined {parts : List Part} (h : ∀ part ∈ parts, part.Readable) :
    ∀ c ∈ (" ".intercalate (parts.map Part.text)).toList, IsPlain c := by
  induction parts with
  | nil => simp
  | cons part parts ih =>
      obtain ⟨hpart, hothers⟩ := List.forall_mem_cons.1 h
      cases parts with
      | nil =>
          rw [List.map_singleton, String.intercalate_singleton]
          exact isPlain_text hpart
      | cons next parts =>
          have hblank : ∀ c ∈ " ".toList, IsPlain c := List.all_iff_forall_prop.1 (by decide)
          rw [List.map_cons, List.map_cons, String.intercalate_cons_cons, String.toList_append,
            String.toList_append]
          exact List.forall_mem_append.2
            ⟨List.forall_mem_append.2 ⟨isPlain_text hpart, hblank⟩, ih hothers⟩

/-- **A duration in words is plain.** -/
theorem isPlain_words (d : Duration) : ∀ c ∈ d.words.toList, IsPlain c := by
  by_cases hzero : d = zero
  · rw [words, if_pos hzero]
    exact List.all_iff_forall_prop.1 (by decide)
  · rw [words, if_neg hzero, parts_eq]
    exact isPlain_joined fun part hmem => d.readable_amounts part (List.mem_of_mem_filter hmem)

end Duration

/-! ### Configurations -/

namespace Config

open Json

/-- The name of a setting as it stands in a string. -/
def settingName (name : String) : List Piece := name.toList.map .char

theorem isPlain_settings : ∀ name ∈ ["line_limit", "read_timeout"], ∀ c ∈ name.toList,
    IsPlain c := by
  simp only [← List.all_iff_forall_prop]
  decide

/-- The tokens of the line limit, which ends at the first character that belongs to no numeral. -/
theorem tokensFrom_limit (limit : UInt64) {c : Char} (hc : isNumeralChar c = false)
    (rest : List Char) :
    tokensFrom .between ('\x7b' :: '"' :: ("line_limit".toList ++ '"' ::
        ':' :: ((toString limit.toNat).toList ++ c :: rest))) =
      (tokensFrom .between (c :: rest)).map
        ([.openBrace, .string (settingName "line_limit"), .colon,
          .number (.ofNat limit.toNat)] ++ ·) := by
  have hname := isPlain_settings "line_limit" (by simp)
  rw [tokensFrom_symbol rfl, tokensFrom_string hname, tokensFrom_symbol rfl, tokensFrom_number _ hc,
    Option.map_map, Option.map_map, Option.map_map]
  rfl

theorem tokens?_toJson_none (limit : UInt64) :
    tokens? (toJson ⟨limit, none⟩).toList =
      some [.openBrace, .string (settingName "line_limit"), .colon,
        .number (.ofNat limit.toNat), .closeBrace] := by
  have hjson : toJson ⟨limit, none⟩ =
      "\x7b\"line_limit\":" ++ toString limit.toNat ++ "" ++ "\x7d" := rfl
  have htext : (toJson ⟨limit, none⟩).toList =
      '\x7b' :: '"' :: ("line_limit".toList ++ '"' ::
        ':' :: ((toString limit.toNat).toList ++ '\x7d' :: [])) := by
    rw [hjson]
    simp only [String.toList_append, List.append_assoc]
    rfl
  have hclose : isNumeralChar '\x7d' = false := by decide
  rw [htext, tokens?, tokensFrom_limit limit hclose, tokensFrom_symbol rfl]
  rfl

theorem tokens?_toJson_some (limit : UInt64) (timeout : Duration) :
    tokens? (toJson ⟨limit, some timeout⟩).toList =
      some [.openBrace, .string (settingName "line_limit"), .colon,
        .number (.ofNat limit.toNat), .comma, .string (settingName "read_timeout"), .colon,
        .string (timeout.words.toList.map .char), .closeBrace] := by
  have hjson : toJson ⟨limit, some timeout⟩ =
      "\x7b\"line_limit\":" ++ toString limit.toNat ++
        (",\"read_timeout\":\"" ++ timeout.words ++ "\"") ++ "\x7d" := rfl
  have htext : (toJson ⟨limit, some timeout⟩).toList =
      '\x7b' :: '"' :: ("line_limit".toList ++ '"' ::
        ':' :: ((toString limit.toNat).toList ++ ',' :: '"' :: ("read_timeout".toList ++ '"' ::
          ':' :: '"' :: (timeout.words.toList ++ '"' :: '\x7d' :: [])))) := by
    rw [hjson]
    simp only [String.toList_append, List.append_assoc]
    rfl
  have hname := isPlain_settings "read_timeout" (by simp)
  have hcomma : isNumeralChar ',' = false := by decide
  rw [htext, tokens?, tokensFrom_limit limit hcomma, tokensFrom_symbol rfl, tokensFrom_string hname,
    tokensFrom_symbol rfl, tokensFrom_string timeout.isPlain_words, tokensFrom_symbol rfl]
  rfl

theorem limitOfJson?_ofNat (limit : UInt64) :
    limitOfJson? (.number (.ofNat limit.toNat)) = some limit := by
  rw [limitOfJson?, Numeral.value?_ofNat]

theorem timeoutOfJson?_words (timeout : Duration) :
    timeoutOfJson? (.string (timeout.words.toList.map .char)) = some (some timeout) := by
  rw [timeoutOfJson?, decodePieces_char]
  simp only [timeout.ofWords_words]
  rfl

/-- The members of the object that is written for a configuration. -/
def members (config : Config) : List (List Piece × Value) :=
  (settingName "line_limit", .number (.ofNat config.lineLimit.toNat)) ::
    match config.readTimeout with
    | none => []
    | some timeout => [(settingName "read_timeout", .string (timeout.words.toList.map .char))]

theorem parse?_toJson (config : Config) :
    parse? config.toJson.toList = some (.object config.members) := by
  obtain ⟨limit, none | timeout⟩ := config
  · rw [parse?, tokens?_toJson_none]
    rfl
  · rw [parse?, tokens?_toJson_some]
    rfl

theorem takeMembers_cons {p p' : Given} {name : String} {value : Value}
    (h : p.takeMember name.toList value = some p') (rest : List (List Piece × Value)) :
    p.takeMembers ((settingName name, value) :: rest) = p'.takeMembers rest := by
  rw [Given.takeMembers, settingName, decodePieces_char]
  simp only [h]

/-- **A configuration is read back** from the text that is written for it. -/
theorem ofJson?_toJson (config : Config) : ofJson? config.toJson.toList = some config := by
  obtain ⟨limit, timeout⟩ := config
  have hlimit : Given.none.takeMember "line_limit".toList (.number (.ofNat limit.toNat)) =
      some ⟨some limit, none⟩ := by
    rw [Given.takeMember, limitOfJson?_ofNat]
    rfl
  have hread : ofJson? (toJson ⟨limit, timeout⟩).toList =
      (Given.none.takeMembers (members ⟨limit, timeout⟩)).map Given.toConfig := by
    rw [ofJson?, parse?_toJson]
    rfl
  rw [hread, members, takeMembers_cons hlimit]
  cases timeout with
  | none => rfl
  | some timeout =>
      have htimeout : (Given.mk (some limit) none).takeMember "read_timeout".toList
          (.string (timeout.words.toList.map .char)) = some ⟨some limit, some (some timeout)⟩ := by
        rw [Given.takeMember, timeoutOfJson?_words]
        rfl
      simp only [takeMembers_cons htimeout]
      rfl

example : toJson ⟨10, some (.ofSeconds 30)⟩ =
    "\x7b\"line_limit\":10,\"read_timeout\":\"30s\"\x7d" := by decide

end Config

end AttributeWire
