/-
The image sources of a document: what the scanner finds, and what the grammar of HTML says.

`findHtmlImageSources` looks for the openings of image tags, finds the end of a tag with one
scanner, which takes every quote for the beginning of a quoted value, and the source with
another, which knows where values begin.  Both work on the same text by index.

`startTag` reads a tag as the grammar does: names, each with a value or without, up to the
first `>` outside a quoted value.  `imageSources` is what a browser would load, comments and
raw text left aside.
-/
import DataEngLab.Lib.Cursor
import DataEngLab.Lib.Decimal

namespace Docs

open Lib

/-- Where a text begins and ends. -/
abbrev Span := Nat × Nat

def isQuote (c : Nat) : Bool := c == 34 || c == 39

/-! ### The scanner -/

/-- The characters that `i` matches without regard to case, `İ` and `ı` among them. -/
def isLetterI (c : Nat) : Bool := c == 73 || c == 105 || c == 0x130 || c == 0x131

/-- `<img(?=[\s/>])`, ignoring case, at the beginning of a text. -/
def opensImage : Str → Bool
  | 60 :: i :: m :: g :: follow :: _ =>
      isLetterI i && (m == 77 || m == 109) && (g == 71 || g == 103) &&
        (isPythonSpace follow || follow == 47 || follow == 62)
  | _ => false

/-- `_html_tag_end`, with the quote that is open. -/
def htmlTagEnd : Option Nat → Nat → Str → Option Nat
  | _, _, [] => none
  | some quote, pos, c :: rest => htmlTagEnd (if c = quote then none else some quote) (pos + 1) rest
  | none, pos, c :: rest =>
      if isQuote c then htmlTagEnd (some c) (pos + 1) rest
      else if c = 62 then some pos
      else htmlTagEnd none (pos + 1) rest

/-- The names that `casefold` turns into `src`. -/
def foldsToSrc : Str → Bool
  | [s, r, c] => (s == 83 || s == 115 || s == 0x17F) && (r == 82 || r == 114) && (c == 67 || c == 99)
  | _ => false

def isNameChar (c : Nat) : Bool := !isPythonSpace c && c != 61 && c != 47 && c != 62

def isSeparator (c : Nat) : Bool := isPythonSpace c || c == 47

/-- How a round of a loop over a tag ends. -/
inductive Turn (α : Type) where
  | stop (a : α)
  | go (c : Cursor)

/-- The value of the attribute of this name, which ends the loop when it is the source. -/
def valueTurn (name : Str) (value : Cursor) : Turn (Option Span) :=
  match value.rest.head? with
  | none => .stop none
  | some first =>
      if isQuote first then
        let closing := value.next.skip (· != first)
        if closing.rest = [] then .stop none
        else if foldsToSrc name then .stop (some (value.next.pos, closing.pos))
        else .go closing.next
      else
        let closing := value.skip fun x => !isPythonSpace x
        if foldsToSrc name then .stop (some (value.pos, closing.pos)) else .go closing

/-- A round of `_html_src_attribute`: an attribute, or a character that begins none. -/
def srcTurn (c : Cursor) : Turn (Option Span) :=
  let start := c.skip isSeparator
  let name := start.word isNameChar
  if name = [] then
    if start.rest = [] then .stop none else .go start.next
  else
    let after := (start.skip isNameChar).skip isPythonSpace
    if after.rest.head? ≠ some 61 then .go after
    else valueTurn name (after.next.skip isPythonSpace)

theorem length_next_of_ne_nil {c : Cursor} (h : c.rest ≠ []) : c.next.rest.length < c.rest.length := by
  obtain ⟨x, s, hx⟩ := List.exists_cons_of_ne_nil h
  exact Cursor.length_next_lt hx

theorem valueTurn_shorter {name : Str} {value c' : Cursor} (h : valueTurn name value = .go c') :
    c'.rest.length ≤ value.rest.length := by
  rw [valueTurn] at h
  split at h
  · cases h
  · rename_i first _
    split at h
    · have hinside := Cursor.length_next value
      have hclosing := Cursor.length_skip (· != first) value.next
      have hlast := Cursor.length_next (value.next.skip (· != first))
      simp only at h
      split at h
      · cases h
      · split at h
        · cases h
        · cases h
          omega
    · simp only at h
      split at h
      · cases h
      · cases h
        exact Cursor.length_skip _ value

/-- Every round makes the rest shorter. -/
theorem srcTurn_shorter {c c' : Cursor} (h : srcTurn c = .go c') : c'.rest.length < c.rest.length := by
  have hstart := Cursor.length_skip isSeparator c
  simp only [srcTurn] at h
  generalize c.skip isSeparator = start at h hstart
  split at h
  · split at h
    · cases h
    · rename_i hrest
      cases h
      exact (length_next_of_ne_nil hrest).trans_le hstart
  · rename_i hname
    have hnamed := Cursor.length_skip_lt hname
    have hafter := Cursor.length_skip isPythonSpace (start.skip isNameChar)
    generalize (start.skip isNameChar).skip isPythonSpace = after at h hafter
    split at h
    · cases h
      omega
    · have hnext := Cursor.length_next after
      have hvalue := Cursor.length_skip isPythonSpace after.next
      have hturn := valueTurn_shorter h
      omega

/-- `_html_src_attribute`, of what is left of the tag. -/
def htmlSrcAttribute (c : Cursor) : Option Span :=
  match _h : srcTurn c with
  | .stop r => r
  | .go c' => htmlSrcAttribute c'
termination_by c.rest.length
decreasing_by exact srcTurn_shorter _h

/-- The end of a tag is not before the tag. -/
theorem le_htmlTagEnd : ∀ {quote : Option Nat} {pos stop : Nat} {s : Str},
    htmlTagEnd quote pos s = some stop → pos ≤ stop
  | _, _, _, [], h => by simp [htmlTagEnd] at h
  | some quote, pos, stop, c :: rest, h => by
      have hrest : htmlTagEnd (if c = quote then none else some quote) (pos + 1) rest = some stop := h
      have hle := le_htmlTagEnd hrest
      omega
  | none, pos, stop, c :: rest, h => by
      rw [htmlTagEnd] at h
      split at h
      · have hle := le_htmlTagEnd h
        omega
      · split at h
        · exact (Option.some.inj h).le
        · have hle := le_htmlTagEnd h
          omega

/-- `find_html_image_sources`, from a position on. -/
def imagesFrom (c : Cursor) : List Span :=
  if _hrest : c.rest = [] then []
  else if opensImage c.rest then
    let start := c.pos + 4
    match _hstop : htmlTagEnd none start (c.rest.drop 4) with
    | none => []
    | some stop =>
        (htmlSrcAttribute ⟨start, (c.rest.drop 4).take (stop - start)⟩).toList ++
          imagesFrom ⟨stop + 1, c.rest.drop (stop + 1 - c.pos)⟩
  else imagesFrom c.next
termination_by c.rest.length
decreasing_by
  · have hle := le_htmlTagEnd _hstop
    have hpos := List.length_pos_iff.mpr _hrest
    simp only [List.length_drop]
    omega
  · exact length_next_of_ne_nil _hrest

def findHtmlImageSources (markup : Str) : List Span := imagesFrom ⟨0, markup⟩

/-! ### The grammar -/

/-- The white space of HTML. -/
def isHtmlSpace (c : Nat) : Bool := c == 9 || c == 10 || c == 12 || c == 13 || c == 32

structure Value where
  start : Nat
  text : Str
  quoted : Bool
deriving DecidableEq

structure Attribute where
  name : Str
  value : Option Value
deriving DecidableEq

/-- A start tag after its name; a tag that never closes has no end. -/
structure Tag where
  attributes : List Attribute
  close : Option Nat
deriving DecidableEq

/-- What may follow the first character of an attribute's name. -/
def isAttributeChar (c : Nat) : Bool := !isHtmlSpace c && c != 61 && c != 47 && c != 62

/-- A value: in quotes up to the same quote, or up to white space or the end of the tag. -/
def readValue (c : Cursor) : Option Value × Cursor :=
  match c.rest.head? with
  | none => (none, c)
  | some first =>
      if isQuote first then
        (some ⟨c.next.pos, c.next.word (· != first), true⟩, (c.next.skip (· != first)).next)
      else
        let text := c.word fun x => !isHtmlSpace x && x != 62
        (if text = [] then none else some ⟨c.pos, text, false⟩, c.skip fun x => !isHtmlSpace x && x != 62)

/-- An attribute; its first character belongs to its name whatever it is. -/
def readAttribute (c : Cursor) : Attribute × Cursor :=
  let name := c.rest.take 1 ++ c.next.word isAttributeChar
  let after := (c.next.skip isAttributeChar).skip isHtmlSpace
  if after.rest.head? = some 61 then
    let value := readValue (after.next.skip isHtmlSpace)
    (⟨name, value.1⟩, value.2)
  else (⟨name, none⟩, after)

theorem length_readValue (c : Cursor) : (readValue c).2.rest.length ≤ c.rest.length := by
  rw [readValue]
  split
  · exact le_rfl
  · rename_i first _
    split
    · have h₁ := Cursor.length_next c
      have h₂ := Cursor.length_skip (· != first) c.next
      have h₃ := Cursor.length_next (c.next.skip (· != first))
      show (c.next.skip (· != first)).next.rest.length ≤ c.rest.length
      omega
    · exact Cursor.length_skip _ _

/-- An attribute makes the rest shorter. -/
theorem readAttribute_shorter {c : Cursor} (h : c.rest ≠ []) : (readAttribute c).2.rest.length < c.rest.length := by
  have h₁ := length_next_of_ne_nil h
  have h₂ := Cursor.length_skip isAttributeChar c.next
  have h₃ := Cursor.length_skip isHtmlSpace (c.next.skip isAttributeChar)
  simp only [readAttribute]
  generalize (c.next.skip isAttributeChar).skip isHtmlSpace = after at h₃
  split
  · have h₄ := Cursor.length_next after
    have h₅ := Cursor.length_skip isHtmlSpace after.next
    have h₆ := length_readValue (after.next.skip isHtmlSpace)
    show (readValue (after.next.skip isHtmlSpace)).2.rest.length < c.rest.length
    omega
  · show after.rest.length < c.rest.length
    omega

/-- What the names in a tag are parted by. -/
def isHtmlSeparator (c : Nat) : Bool := isHtmlSpace c || c == 47

/-- The attributes of a tag and its end. -/
def startTag (c : Cursor) : Tag :=
  let start := c.skip isHtmlSeparator
  if _h : start.rest = [] then ⟨[], none⟩
  else if start.rest.head? = some 62 then ⟨[], some start.pos⟩
  else
    let tag := startTag (readAttribute start).2
    ⟨(readAttribute start).1 :: tag.attributes, tag.close⟩
termination_by c.rest.length
decreasing_by exact (readAttribute_shorter _h).trans_le (Cursor.length_skip _ c)

def Attribute.isSrc (a : Attribute) : Bool := lowerAscii a.name == lit "src"

def Value.span (v : Value) : Span := (v.start, v.start + v.text.length)

/-- The value of the first `src` attribute. -/
def Tag.src (tag : Tag) : Option Span := (tag.attributes.find? Attribute.isSrc).bind fun a => a.value.map Value.span

/-- A name without quotes or characters that only the scanner takes for a space or for an end of the name. -/
def Attribute.plainName (a : Attribute) : Bool :=
  a.name.all (fun x => isNameChar x && !isQuote x) && (foldsToSrc a.name == a.isSrc)

/-- A value in quotes, or one without quotes and without the spaces that only the scanner knows. -/
def Value.plain (v : Value) : Bool := v.quoted || v.text.all fun x => !isPythonSpace x && !isQuote x

def Attribute.plain (a : Attribute) : Bool := a.plainName && a.value.all Value.plain

/-- No `src` without a value stands before one with a value. -/
def Tag.srcFirst (tag : Tag) : Bool :=
  (tag.attributes.find? Attribute.isSrc).all (fun a => a.value.isSome) ||
    tag.attributes.all fun a => !a.isSrc || a.value.isNone

def Tag.plain (tag : Tag) : Bool := tag.attributes.all Attribute.plain && tag.srcFirst

end Docs
