/-
**Patterns that can be used.**

Not every well-formed pattern can be used.  It may not be nested too deeply.  Characters are those
of all scripts unless a flag says otherwise, and there is no table of their properties, so that
classes by property, letters for classes and letters of either case are not to be had; without that
flag they are, but then nothing may match a part of a character.  Edges of words need the table too,
which is noticed last.

Main definitions:

* `Pattern.tooDeep?` — the first part that is nested too deeply;
* `Pattern.Scope` — the flags that decide what can be used;
* `Pattern.check` — whether the parts of a pattern can be used;
* `PatternFault`, `Pattern.fault?` — why a text is no pattern that can be used.
-/

import AttributeWire.Pattern.Reader

set_option relaxedAutoImplicit false
set_option autoImplicit false

namespace AttributeWire

namespace Pattern

/-! ### Nesting -/

/-- The first place found, of two. -/
def firstOf (a b : Option Span) : Option Span :=
  match a with
  | some span => some span
  | none => b

mutual

/-- The first part of a class that is nested too deeply, at a depth. -/
def classTooDeep? (depth : Nat) : Class → Option Span
  | .bracketed span _ inner =>
      if nestingLimit ≤ depth then some span else classTooDeep? (depth + 1) inner
  | .union span items =>
      if nestingLimit ≤ depth then some span else classesTooDeep? (depth + 1) items
  | .operation span left right =>
      if nestingLimit ≤ depth then some span
      else firstOf (classTooDeep? (depth + 1) left) (classTooDeep? (depth + 1) right)
  | _ => none

/-- The first of some parts of a class that is nested too deeply. -/
def classesTooDeep? (depth : Nat) : List Class → Option Span
  | [] => none
  | item :: items => firstOf (classTooDeep? depth item) (classesTooDeep? depth items)

end

mutual

/-- The first part that is nested too deeply, at a depth. -/
def tooDeep? (depth : Nat) : Expr → Option Span
  | .bracketed span _ inner =>
      if nestingLimit ≤ depth then some span else classTooDeep? (depth + 1) inner
  | .repetition span inner =>
      if nestingLimit ≤ depth then some span else tooDeep? (depth + 1) inner
  | .group span _ inner =>
      if nestingLimit ≤ depth then some span else tooDeep? (depth + 1) inner
  | .alternatives span branches =>
      if nestingLimit ≤ depth then some span else anyTooDeep? (depth + 1) branches
  | .sequence span parts =>
      if nestingLimit ≤ depth then some span else anyTooDeep? (depth + 1) parts
  | _ => none

/-- The first of some parts that is nested too deeply. -/
def anyTooDeep? (depth : Nat) : List Expr → Option Span
  | [] => none
  | e :: rest => firstOf (tooDeep? depth e) (anyTooDeep? depth rest)

end

/-! ### Flags that matter -/

/-- The flags that decide what can be used, and what was found. -/
structure Scope where
  /-- Letters of either case are the same. -/
  anyCase : Bool
  /-- Characters are those of all scripts. -/
  unicode : Bool
  /-- An edge of a word was found where characters are those of all scripts. -/
  hasWordEdge : Bool
deriving DecidableEq, Repr

/-- The scope after flags. -/
def Scope.apply (s : Scope) (items : List FlagItem) : Scope :=
  { s with
    anyCase := (stateOf? .anyCase items).getD s.anyCase
    unicode := (stateOf? .unicode items).getD s.unicode }

/-- A fault, if a condition holds. -/
def failIf (condition : Bool) (flaw : Flaw) (span : Span) : Reading Unit :=
  if condition then .error ⟨flaw, span, none⟩ else .ok ()

/-! ### Parts that can be used -/

/-- The character is written as a byte, and is no character by itself. -/
def Literal.isHighByte (l : Literal) : Bool := l.isByte && 128 ≤ l.char.toNat

/-- A part without parts can be used. -/
def checkAtom (s : Scope) : Atom → Reading Unit
  | .literal l =>
      if s.unicode then failIf s.anyCase .noCases l.span
      else failIf l.isHighByte .notBytes l.span
  | .point span => failIf (!s.unicode) .notBytes span
  | .shorthand span negated =>
      if s.unicode then .error ⟨.noShorthands, span, none⟩ else failIf negated .notBytes span
  | .property span => .error ⟨if s.unicode then .noProperties else .notUnicode, span, none⟩
  | .edge _ => .ok ()
  | .wordEdge _ => .ok ()

/-- A character of a class can be used, where characters are bytes. -/
def checkByte (l : Literal) : Reading Unit :=
  if l.isHighByte then .error ⟨.notBytes, l.span, none⟩
  else failIf (128 ≤ l.char.toNat) .notUnicode l.span

/-- Both can be used; the answer is whether there is a character in either. -/
def both (a b : Reading Bool) : Reading Bool :=
  match a with
  | .error e => .error e
  | .ok x => b.map fun y => x || y

/-- Characters of which letters of either case are the same.  Without any there is nothing to look
up. -/
def folded (s : Scope) (span : Span) (hasCharacters : Bool) : Reading Unit :=
  failIf (s.unicode && s.anyCase && hasCharacters) .noCases span

/-- Brackets around characters can be used; bytes that are no characters may not come in by
negation.  What is not in an empty class needs no look-up either. -/
def closeBrackets (s : Scope) (span : Span) (negated : Bool) (hasCharacters : Bool) :
    Reading Bool :=
  match folded s span hasCharacters with
  | .error e => .error e
  | .ok () => (failIf (!s.unicode && negated) .notBytes span).map fun _ => hasCharacters

mutual

/-- A class can be used; the answer is whether there is a character in it. -/
def checkClass (s : Scope) : Class → Reading Bool
  | .empty _ => .ok false
  | .literal l => (if s.unicode then .ok () else checkByte l).map fun _ => true
  | .range _ first last =>
      if s.unicode then .ok true
      else
        match checkByte first with
        | .error e => .error e
        | .ok () => (checkByte last).map fun _ => true
  | .named span negated => closeBrackets s span negated true
  | .shorthand span negated => (checkAtom s (.shorthand span negated)).map fun _ => true
  | .property span => (checkAtom s (.property span)).map fun _ => true
  | .bracketed span negated inner =>
      match checkClass s inner with
      | .error e => .error e
      | .ok hasCharacters => closeBrackets s span negated hasCharacters
  | .union _ items => checkClasses s items
  | .operation _ left right =>
      match checkClass s left with
      | .error e => .error e
      | .ok onLeft =>
          match checkClass s right with
          | .error e => .error e
          | .ok onRight =>
              -- the right side is looked up first
              match folded s right.span onRight, folded s left.span onLeft with
              | .error e, _ => .error e
              | .ok _, .error e => .error e
              | .ok _, .ok _ => .ok (onLeft || onRight)

/-- Classes can be used; the answer is whether there is a character in one. -/
def checkClasses (s : Scope) : List Class → Reading Bool
  | [] => .ok false
  | item :: items => both (checkClass s item) (checkClasses s items)

end

mutual

/-- A pattern can be used in a scope; the answer is the scope of what follows it. -/
def check (s : Scope) : Expr → Reading Scope
  | .empty _ => .ok s
  | .flags _ items => .ok (s.apply items)
  | .atom (.wordEdge _) => .ok { s with hasWordEdge := s.hasWordEdge || s.unicode }
  | .atom a => (checkAtom s a).map fun _ => s
  | .bracketed span negated inner =>
      match checkClass s inner with
      | .error e => .error e
      | .ok hasCharacters => (closeBrackets s span negated hasCharacters).map fun _ => s
  | .repetition _ inner => check s inner
  | .group _ items inner =>
      (check (s.apply items) inner).map fun after => { s with hasWordEdge := after.hasWordEdge }
  | .alternatives _ branches => checkAll s branches
  | .sequence _ parts => checkAll s parts

/-- Patterns can be used one after the other. -/
def checkAll (s : Scope) : List Expr → Reading Scope
  | [] => .ok s
  | e :: rest =>
      match check s e with
      | .error e => .error e
      | .ok s => checkAll s rest

end

/-- The scope of a whole pattern. -/
def Scope.initial : Scope := ⟨false, true, false⟩

/-- An expression can be used; the answer is the scope at its end. -/
def usable (e : Expr) : Reading Scope :=
  match tooDeep? 0 e with
  | some span => .error ⟨.nesting, span, none⟩
  | none => check .initial e

end Pattern

/-! ### Texts -/

/-- Why a text is no pattern that can be used. -/
inductive PatternFault where
  /-- It is malformed or asks for what is not to be had, as the report shows. -/
  | unreadable (report : String)
  /-- It asks for the edges of words. -/
  | wordEdge
deriving DecidableEq, Repr

/-- The texts of a fault, the outermost first. -/
def PatternFault.causes : PatternFault → List String
  | unreadable report => ["error building NFA", "error parsing regex", report]
  | wordEdge =>
      ["unsupported regex feature for DFAs: cannot build DFAs for regexes with Unicode word "
        ++ "boundaries; switch to ASCII word boundaries, or heuristically enable Unicode word "
        ++ "boundaries or use a different regex engine"]

/-- Why a text is no pattern that can be used, if it is none. -/
def Pattern.fault? (text : List Char) : Option PatternFault :=
  match (parse text).bind usable with
  | .error e => some (.unreadable (e.report text))
  | .ok s => if s.hasWordEdge then some .wordEdge else none

end AttributeWire
