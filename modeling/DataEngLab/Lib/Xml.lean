/-
XML documents without a document type.

A document is read token by token (`next`): a tag, a piece of character data, a reference, a
comment, a section of raw characters or a processing instruction.  What a tree is made of are
the events of its tokens, so a document here is a sequence of events with one root (`readRest`),
and two documents are equal when their elements, attributes and texts are.

Prefixes of names are kept as they are written, and line ends are line feeds, as in a text
that was read with universal newlines.
-/
import DataEngLab.Lib.Cursor

namespace Lib

namespace Xml

/-! ### Characters -/

def isChar (c : Nat) : Bool :=
  c == 9 || c == 10 || c == 13 || (0x20 ≤ c && c ≤ 0xD7FF) || (0xE000 ≤ c && c ≤ 0xFFFD) ||
    (0x10000 ≤ c && c ≤ 0x10FFFF)

def isSpace (c : Nat) : Bool := c == 32 || c == 9 || c == 10 || c == 13

def isNameStart (c : Nat) : Bool :=
  c == 58 || (65 ≤ c && c ≤ 90) || c == 95 || (97 ≤ c && c ≤ 122) || (0xC0 ≤ c && c ≤ 0xD6) ||
    (0xD8 ≤ c && c ≤ 0xF6) || (0xF8 ≤ c && c ≤ 0x2FF) || (0x370 ≤ c && c ≤ 0x37D) || (0x37F ≤ c && c ≤ 0x1FFF) ||
    (0x200C ≤ c && c ≤ 0x200D) || (0x2070 ≤ c && c ≤ 0x218F) || (0x2C00 ≤ c && c ≤ 0x2FEF) ||
    (0x3001 ≤ c && c ≤ 0xD7FF) || (0xF900 ≤ c && c ≤ 0xFDCF) || (0xFDF0 ≤ c && c ≤ 0xFFFD) ||
    (0x10000 ≤ c && c ≤ 0xEFFFF)

def isNameChar (c : Nat) : Bool :=
  isNameStart c || c == 45 || c == 46 || isDigit c || c == 0xB7 || (0x300 ≤ c && c ≤ 0x36F) ||
    (0x203F ≤ c && c ≤ 0x2040)

/-! ### Splitting at a mark -/

/-- The text up to the first `mark` and what follows the mark. -/
def upTo (mark : Str) : Str → Option (Str × Str)
  | [] => none
  | c :: s =>
      if mark.isPrefixOf (c :: s) then some ([], (c :: s).drop mark.length)
      else (upTo mark s).map fun split => (c :: split.1, split.2)

/-! ### Reading -/

inductive Event where
  | start (name : Str) (attrs : List (Str × Str))
  | stop (name : Str)
  | char (c : Nat)
deriving DecidableEq

/-- The references that need no declaration. -/
def predefined (name : Str) : Option Nat :=
  if name = lit "amp" then some 38
  else if name = lit "apos" then some 39
  else if name = lit "gt" then some 62
  else if name = lit "lt" then some 60
  else if name = lit "quot" then some 34
  else none

def hexDigitValue (c : Nat) : Nat := if c ≤ 57 then c - 48 else if c ≤ 70 then c - 55 else c - 87

def isHexDigit (c : Nat) : Bool := isDigit c || (65 ≤ c && c ≤ 70) || (97 ≤ c && c ≤ 102)

/-- The character of the reference with this body. -/
def referenceValue : Str → Option Nat
  | 35 :: 120 :: ds =>
      let v := ds.foldl (fun v c => 16 * v + hexDigitValue c) 0
      if ds ≠ [] ∧ ds.all isHexDigit ∧ isChar v then some v else none
  | 35 :: ds =>
      let v := digitsValue ds
      if ds ≠ [] ∧ ds.all isDigit ∧ isChar v then some v else none
  | name => predefined name

/-- A name and what follows it, of which there must be something. -/
def readName (s : Str) : Option (Str × Str) :=
  let name := s.takeWhile isNameChar
  let rest := s.dropWhile isNameChar
  if (name.head?.any isNameStart) && !rest.isEmpty then some (name, rest) else none

/-- The value of an attribute, from what stands between its quotes. -/
def readValue : Nat → Str → Option Str
  | _, [] => some []
  | 0, _ :: _ => none
  | fuel + 1, c :: s =>
      if c = 60 then none
      else if c = 38 then
        (upTo [59] s).bind fun split => (referenceValue split.1).bind fun v => (readValue fuel split.2).map (v :: ·)
      else if isChar c then (readValue fuel s).map ((if isSpace c then 32 else c) :: ·)
      else none

/-- What follows this character, white space before it aside. -/
def afterMark (mark : Nat) (s : Str) : Option Str :=
  match s.dropWhile isSpace with
  | [] => none
  | c :: rest => if c = mark then some rest else none

/-- A value between quotes, white space before it aside, and what follows it. -/
def readQuoted (s : Str) : Option (Str × Str) :=
  match s.dropWhile isSpace with
  | [] => none
  | quote :: inner =>
      if quote = 34 ∨ quote = 39 then
        (upTo [quote] inner).bind fun split => (readValue split.1.length split.1).map (·, split.2)
      else none

def readAttribute (s : Str) : Option ((Str × Str) × Str) :=
  (readName s).bind fun named => (afterMark 61 named.2).bind fun s =>
    (readQuoted s).map fun valued => ((named.1, valued.1), valued.2)

/-- The end of a start tag: whether it closes itself, and what follows it. -/
def tagEnd : Str → Option (Bool × Str)
  | [] => none
  | c :: s =>
      if c = 62 then some (false, s)
      else if c = 47 ∧ s.head? = some 62 then some (true, s.tail)
      else none

/-- The attributes of a start tag, whether it closes itself, and what follows it. -/
def readAttributes : Nat → Str → Option (List (Str × Str) × Bool × Str)
  | 0, _ => none
  | fuel + 1, s =>
      match tagEnd (s.dropWhile isSpace) with
      | some (closed, rest) => some ([], closed, rest)
      | none =>
          -- an attribute has white space before it
          if s.dropWhile isSpace = s then none
          else
            (readAttribute (s.dropWhile isSpace)).bind fun first =>
              (readAttributes fuel first.2).map fun others => (first.1 :: others.1, others.2)

/-- What one token is: its events, the number of brackets right before what follows, and what follows. -/
abbrev Reading := List Event × Nat × Str

def readStartTag (s : Str) : Option Reading :=
  (readName s).bind fun named => (readAttributes named.2.length named.2).bind fun tag =>
    if (tag.1.map Prod.fst).Nodup then
      some (.start named.1 tag.1 :: (if tag.2.1 then [.stop named.1] else []), 0, tag.2.2)
    else none

def readEndTag (s : Str) : Option Reading :=
  (readName s).bind fun named => (afterMark 62 named.2).map fun rest => ([.stop named.1], 0, rest)

def readComment (s : Str) : Option Reading :=
  (upTo (lit "--") s).bind fun split => match split.2 with
    | [] => none
    | c :: rest => if c = 62 ∧ split.1.all isChar then some ([], 0, rest) else none

def readCharacters (s : Str) : Option Reading :=
  (upTo (lit "]]>") s).bind fun split =>
    if split.1.all isChar then some (split.1.map .char, 0, split.2) else none

def readInstruction (s : Str) : Option Reading :=
  (readName s).bind fun named =>
    if named.1.map (fun c => if c < 97 then c + 32 else c) = lit "xml" then none
    else
      (upTo (lit "?>") named.2).bind fun split =>
        if (split.1.head?.all isSpace) && split.1.all isChar then some ([], 0, split.2) else none

def readDeclaration (s : Str) : Option Reading :=
  if (lit "--").isPrefixOf s then readComment (s.drop 2)
  else if (lit "[CDATA[").isPrefixOf s then readCharacters (s.drop 7)
  else none

def readReference (s : Str) : Option Reading :=
  (upTo [59] s).bind fun split => (referenceValue split.1).map fun c => ([.char c], 0, split.2)

/-- What begins with `<`, from the character after it on. -/
def readMarkup : Str → Option Reading
  | [] => none
  | c :: s =>
      if c = 47 then readEndTag s
      else if c = 33 then readDeclaration s
      else if c = 63 then readInstruction s
      else readStartTag (c :: s)

/-- The first token of a text, `brackets` being the number of `]` right before it. -/
def next (brackets : Nat) : Str → Option Reading
  | [] => none
  | c :: s =>
      if c = 60 then readMarkup s
      else if c = 38 then readReference s
      -- `]]>` may not stand in character data
      else if isChar c ∧ ¬ (c = 62 ∧ 2 ≤ brackets) then some ([.char c], if c = 93 then brackets + 1 else 0, s)
      else none

/-- The open elements after an event. -/
def openElements (stack : List Str) : Event → Option (List Str)
  | .start name _ => some (name :: stack)
  | .stop name => if stack.head? = some name then some stack.tail else none
  | .char _ => if stack = [] then none else some stack

/-- The events of the rest of a document inside these elements, which ends with the root. -/
def readRest : Nat → List Str → Nat → Str → Option (List Event)
  | 0, _, _, _ => none
  | fuel + 1, stack, brackets, s =>
      match next brackets s with
      | none => none
      | some (events, brackets, rest) =>
          match events.foldlM openElements stack with
          | none => none
          | some [] => if events ≠ [] ∧ rest = [] then some events else none
          | some stack => (readRest fuel stack brackets rest).map (events ++ ·)

/-- The document that is this text; every token has a character. -/
def document (s : Str) : Option (List Event) := readRest s.length [] 0 s

/-! ### What has been read does not depend on what follows -/

section
variable {p : Nat → Bool} {s t x : Str}

theorem isPrefixOf_append {mark : Str} (h : mark.isPrefixOf s = true) (x : Str) : mark.isPrefixOf (s ++ x) = true := by
  rw [List.isPrefixOf_iff_prefix] at h ⊢
  exact h.trans (List.prefix_append s x)

/-- A text that is split is the front, the mark and the rest. -/
theorem upTo_eq {mark before rest : Str} : ∀ {s : Str}, upTo mark s = some (before, rest) → s = before ++ mark ++ rest
  | [], h => by
      rw [upTo] at h
      cases h
  | c :: s, h => by
      rw [upTo] at h
      by_cases hp : mark.isPrefixOf (c :: s) = true
      · rw [if_pos hp, Option.some.injEq, Prod.mk.injEq] at h
        rw [← h.1, ← h.2, List.nil_append]
        exact (List.prefix_iff_eq_append.mp (List.isPrefixOf_iff_prefix.mp hp)).symm
      · rw [if_neg hp, Option.map_eq_some_iff] at h
        obtain ⟨⟨front, tail⟩, hsplit, heq⟩ := h
        obtain ⟨rfl, rfl⟩ := Prod.mk.inj heq
        rw [upTo_eq hsplit]
        rfl

theorem upTo_append {mark before rest : Str} : ∀ {s : Str}, upTo mark s = some (before, rest) → ∀ x,
    upTo mark (s ++ x) = some (before, rest ++ x)
  | [], h, _ => by
      rw [upTo] at h
      cases h
  | c :: s, h, x => by
      rw [upTo] at h
      rw [List.cons_append, upTo, ← List.cons_append]
      by_cases hp : mark.isPrefixOf (c :: s) = true
      · rw [if_pos hp, Option.some.injEq, Prod.mk.injEq] at h
        have hlen : mark.length ≤ (c :: s).length := (List.isPrefixOf_iff_prefix.mp hp).length_le
        rw [if_pos (isPrefixOf_append hp x), ← h.1, ← h.2, List.drop_append_of_le_length hlen]
      · rw [if_neg hp, Option.map_eq_some_iff] at h
        obtain ⟨⟨front, tail⟩, hsplit, heq⟩ := h
        obtain ⟨rfl, rfl⟩ := Prod.mk.inj heq
        have hlen : mark.length ≤ (c :: s).length := by
          rw [upTo_eq hsplit]
          simp only [List.length_cons, List.length_append]
          omega
        have hnot : ¬ mark.isPrefixOf (c :: s ++ x) = true := by
          rw [List.isPrefixOf_iff_prefix] at hp ⊢
          exact fun h => hp (List.prefix_of_prefix_length_le h (List.prefix_append _ _) hlen)
        rw [if_neg hnot, upTo_append hsplit x]
        rfl

end

end Xml

end Lib
