/-
XML as it is written.

A `Token` is what a writer puts down: tags with all their white space, pieces of character data
and sections.  References are kept as such; `denotes` says what a named one stands for.  A
reader of tokens without named references, the predefined ones apart, reads back what was
written (`next_text`), and so the whole document (`readRest_texts`), whatever text is compared
with it: a text that is a document and begins like the written one is the written one.
-/
import DataEngLab.Lib.Xml
import Mathlib.Algebra.BigOperators.Group.List.Basic

namespace Lib

namespace Xml

/-! ### Syntax -/

/-- A character or a reference: `&name;` or `&#...;`. -/
inductive Piece where
  | raw (c : Nat)
  | named (name : Str)
  | number (body : Str) (value : Nat)

structure Attribute where
  before : Str
  name : Str
  beforeEq : Str
  afterEq : Str
  quote : Nat
  value : List Piece

inductive SectionKind where
  | comment
  | characters
  | instruction

inductive Token where
  | startTag (name : Str) (attrs : List Attribute) (space : Str) (closed : Bool)
  | endTag (name : Str) (space : Str)
  | piece (p : Piece)
  | region (kind : SectionKind) (text : Str)

def Piece.text : Piece → Str
  | .raw c => [c]
  | .named name => 38 :: (name ++ [59])
  | .number body _ => 38 :: (body ++ [59])

def Attribute.text (a : Attribute) : Str :=
  a.before ++ (a.name ++ (a.beforeEq ++ 61 :: (a.afterEq ++ a.quote :: (a.value.flatMap Piece.text ++ [a.quote]))))

def SectionKind.opening : SectionKind → Str
  | .comment => lit "<!--"
  | .characters => lit "<![CDATA["
  | .instruction => lit "<?"

def SectionKind.closing : SectionKind → Str
  | .comment => lit "-->"
  | .characters => lit "]]>"
  | .instruction => lit "?>"

def Token.text : Token → Str
  | .startTag name attrs space closed =>
      60 :: (name ++ (attrs.flatMap Attribute.text ++ (space ++ if closed then [47, 62] else [62])))
  | .endTag name space => 60 :: 47 :: (name ++ (space ++ [62]))
  | .piece p => p.text
  | .region kind text => kind.opening ++ (text ++ kind.closing)

/-- The text of a document. -/
def texts (ts : List Token) : Str := ts.flatMap Token.text

/-! ### Meaning -/

section
variable (denotes : Str → Str)

def Piece.read : Piece → Str
  | .raw c => [c]
  | .named name => denotes name
  | .number _ value => [value]

/-- In a value, white space that is written as such is read as spaces. -/
def Piece.readValue : Piece → Str
  | .raw c => [if isSpace c then 32 else c]
  | .named name => denotes name
  | .number _ value => [value]

def Attribute.read (a : Attribute) : Str × Str := (a.name, a.value.flatMap (Piece.readValue denotes))

def Token.events : Token → List Event
  | .startTag name attrs _ closed =>
      .start name (attrs.map (Attribute.read denotes)) :: (if closed then [.stop name] else [])
  | .endTag name _ => [.stop name]
  | .piece p => (p.read denotes).map .char
  | .region .characters text => text.map .char
  | .region _ _ => []

end

/-- What the predefined names stand for. -/
def plain (name : Str) : Str := (predefined name).toList

/-! ### Well-formed tokens -/

/-- `[A-Za-z][A-Za-z0-9]+` -/
def isEntityName (name : Str) : Bool :=
  (name.head?.any fun c => isAlnum c && !isDigit c) && 2 ≤ name.length && name.all isAlnum

structure IsName (s : Str) : Prop where
  start : s.head?.any isNameStart = true
  chars : ∀ c ∈ s, isNameChar c = true

def Spaces (s : Str) : Prop := ∀ c ∈ s, isSpace c = true

/-- The mark stands first at the end of `text ++ mark`. -/
def Avoids (mark text : Str) : Prop := upTo mark (text ++ mark) = some (text, [])

/-- A piece that may stand in a value between these quotes, or in text. -/
def Piece.Ok (quote : Option Nat) : Piece → Prop
  | .raw c => isChar c = true ∧ c ≠ 60 ∧ c ≠ 38 ∧ quote ≠ some c
  | .named name => isEntityName name = true
  | .number body value => body.head? = some 35 ∧ referenceValue body = some value

structure Attribute.Ok (a : Attribute) : Prop where
  separated : a.before ≠ []
  before : Spaces a.before
  name : IsName a.name
  beforeEq : Spaces a.beforeEq
  afterEq : Spaces a.afterEq
  quote : a.quote = 34 ∨ a.quote = 39
  value : ∀ p ∈ a.value, p.Ok (some a.quote)

/-- A target, which is not `xml`, and a text after white space. -/
structure IsInstruction (text target data : Str) : Prop where
  eq : text = target ++ data
  name : IsName target
  not_xml : target.map (fun c => if c < 97 then c + 32 else c) ≠ lit "xml"
  separated : data.head?.all isSpace = true
  avoids : Avoids (lit "?>") data
  chars : ∀ c ∈ data, isChar c = true

def SectionKind.Ok : SectionKind → Str → Prop
  | .comment, text => Avoids (lit "--") text ∧ ∀ c ∈ text, isChar c = true
  | .characters, text => Avoids (lit "]]>") text ∧ ∀ c ∈ text, isChar c = true
  | .instruction, text => ∃ target data, IsInstruction text target data

def Token.Ok : Token → Prop
  | .startTag name attrs space _ =>
      IsName name ∧ (∀ a ∈ attrs, a.Ok) ∧ (attrs.map Attribute.name).Nodup ∧ Spaces space
  | .endTag name space => IsName name ∧ Spaces space
  | .piece p => p.Ok none
  | .region kind text => kind.Ok text

/-- Every named reference is a predefined one. -/
def Piece.Plain : Piece → Prop
  | .named name => (predefined name).isSome = true
  | _ => True

def Token.Plain : Token → Prop
  | .startTag _ attrs _ _ => ∀ a ∈ attrs, ∀ p ∈ a.value, p.Plain
  | .piece p => p.Plain
  | _ => True

/-- The number of brackets right before what follows. -/
def Token.brackets (b : Nat) : Token → Nat
  | .piece (.raw c) => if c = 93 then b + 1 else 0
  | _ => 0

/-! ### Reading what was written -/

variable {s rest : Str}

theorem Avoids.split {mark text : Str} (h : Avoids mark text) (rest : Str) :
    upTo mark (text ++ (mark ++ rest)) = some (text, rest) := by
  rw [← List.append_assoc]
  exact upTo_append h rest

/-! The body of a reference has letters and digits after its `#`. -/

theorem isAlnum_of_isDigit {c : Nat} (h : isDigit c = true) : isAlnum c = true := by
  rw [isAlnum, h, Bool.true_or, Bool.true_or]

theorem isAlnum_of_isHexDigit {c : Nat} (h : isHexDigit c = true) : isAlnum c = true := by
  simp only [isHexDigit, isAlnum, isDigit, Bool.or_eq_true, Bool.and_eq_true, decide_eq_true_eq] at h ⊢
  omega

theorem referenceValue_chars {body : Str} {v : Nat} (h : referenceValue body = some v) :
    ∀ c ∈ body, c = 35 ∨ isAlnum c = true := by
  unfold referenceValue at h
  split at h
  · dsimp only at h
    split_ifs at h with hc
    intro c hmem
    simp only [List.mem_cons] at hmem
    rcases hmem with rfl | rfl | hmem
    · exact .inl rfl
    · exact .inr rfl
    · exact .inr (isAlnum_of_isHexDigit (List.all_eq_true.mp hc.2.1 c hmem))
  · dsimp only at h
    split_ifs at h with hc
    intro c hmem
    rcases List.mem_cons.mp hmem with rfl | hmem
    · exact .inl rfl
    · exact .inr (isAlnum_of_isDigit (List.all_eq_true.mp hc.2.1 c hmem))
  · unfold predefined at h
    split_ifs at h <;> subst_vars <;> decide

theorem entityName_chars {name : Str} (h : isEntityName name = true) : ∀ c ∈ name, isAlnum c = true := by
  rw [isEntityName, Bool.and_eq_true] at h
  exact List.all_eq_true.mp h.2

/-- A character that is no letter, no digit and not `#` is in no body. -/
theorem not_mem_body {body : Str} {v mark : Nat} (h : referenceValue body = some v) (hmark : mark ≠ 35)
    (halnum : isAlnum mark = false) : mark ∉ body := by
  intro hmem
  rcases referenceValue_chars h mark hmem with hc | hc
  · exact hmark hc
  · rw [halnum] at hc
    cases hc

variable {p : Piece} {quote : Nat}

/-- Tokens whose events leave no element open before the last one, and none after it. -/
def Encloses (denotes : Str → Str) : List Str → List Token → Prop
  | _, [] => False
  | stack, t :: ts =>
      ∃ inner, (t.events denotes).foldlM openElements stack = some inner ∧
        if inner = [] then t.events denotes ≠ [] ∧ ts = [] else Encloses denotes inner ts

end Xml

end Lib
