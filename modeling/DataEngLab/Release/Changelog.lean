/-
The headings and list items that a rendered changelog shows.

`_RenderedChangelogParser` reads the events of the rendered page and collects its second-level
headings with the third-level headings and list items under them.  Three stacks keep what is
open inside something that a page does not show, or may not; only one of them is ever in use.
Within them nothing is collected, and a heading or a list item inside the doubtful ones makes
the page malformed.

`casefold` is `str.casefold`, a parameter.
-/
import DataEngLab.Lib.Decimal
import DataEngLab.Lib.Nesting

namespace Release

open Lib

abbrev Attrs := List (Str × Option Str)

abbrev Event := MarkupEvent Str Attrs

def voidHtmlElements : List Str := ["area", "base", "br", "col", "embed", "hr", "img", "input", "link", "meta",
  "param", "source", "track", "wbr"].map lit

def nonRenderedHtmlElements : List Str := ["datalist", "noscript", "script", "style", "template"].map lit

def foreignContentRoots : List Str := ["math", "svg"].map lit

def ambiguousRenderingElements : List Str := ["audio", "canvas", "iframe", "meter", "object", "picture", "progress",
  "select", "video"].map lit

def htmlHeadings : List Str := ["h1", "h2", "h3", "h4", "h5", "h6"].map lit

def governanceHtmlElements : List Str := htmlHeadings ++ [lit "li"]

def isVoid (normalized : Str) : Bool := voidHtmlElements.contains normalized

structure RenderedH2 where
  content : Str
  subheadings : List Str
  hasListItem : Bool
  deriving DecidableEq

/-- `re.sub(r"\s+", " ", text)`, where `inRun` says that the character before was a space. -/
def collapse (inRun : Bool) : Str → Str
  | [] => []
  | c :: text =>
      if isPythonSpace c then (if inRun then collapse true text else 32 :: collapse true text)
      else c :: collapse false text

/-! ### The parser -/

/-- The parser's fields; the innermost open tag of a stack comes first. Only inside a section is anything captured. -/
structure ChangelogParser where
  sections : List RenderedH2
  capture : Option Str
  captured : List Str
  ambiguousTags : List Str
  hiddenTags : List Str
  foreignTags : List Str
  malformed : Bool
  inSection : capture ≠ none → sections ≠ []

namespace ChangelogParser

def initial : ChangelogParser := ⟨[], none, [], [], [], [], false, fun h => absurd rfl h⟩

/-- `if c: self.malformed = True` -/
def spoilIf (p : ChangelogParser) (c : Bool) : ChangelogParser := { p with malformed := p.malformed || c }

def pushAmbiguous (p : ChangelogParser) (normalized : Str) : ChangelogParser :=
  if isVoid normalized then p else { p with ambiguousTags := normalized :: p.ambiguousTags }

def pushHidden (p : ChangelogParser) (normalized : Str) : ChangelogParser :=
  if isVoid normalized then p else { p with hiddenTags := normalized :: p.hiddenTags }

def pushForeign (p : ChangelogParser) (normalized : Str) : ChangelogParser :=
  if isVoid normalized then p else { p with foreignTags := normalized :: p.foreignTags }

end ChangelogParser

/-! The four reasons not to collect what is inside an element. -/

def isAmbiguous (normalized : Str) (names : List Str) : Bool :=
  ambiguousRenderingElements.contains normalized || (normalized == lit "details" && !names.contains (lit "open")) ||
    names.contains (lit "popover")

def isStyled (names : List Str) : Bool := names.contains (lit "class") || names.contains (lit "style")

def isHidden (normalized : Str) (names : List Str) : Bool :=
  nonRenderedHtmlElements.contains normalized || names.contains (lit "hidden") ||
    (normalized == lit "dialog" && !names.contains (lit "open"))

/-- What foreign content may not hold. -/
def leavesForeign (normalized : Str) : Bool :=
  normalized == lit "annotation-xml" || normalized == lit "foreignobject" || governanceHtmlElements.contains normalized

namespace ChangelogParser

/-- A start tag that is shown. -/
def openShown (p : ChangelogParser) (normalized : Str) : ChangelogParser :=
  if (p.capture == some (lit "h2") || p.capture == some (lit "h3")) && htmlHeadings.contains normalized then
    p.spoilIf true
  else if normalized = lit "h2" then
    { p.spoilIf (p.capture == some (lit "h2") || p.capture == some (lit "h3")) with
      sections := p.sections ++ [⟨[], [], false⟩]
      capture := some (lit "h2")
      captured := []
      inSection := fun _ => List.append_ne_nil_of_right_ne_nil _ (List.cons_ne_nil _ _) }
  else if h : p.capture = none ∧ p.sections ≠ [] ∧ (normalized = lit "h3" ∨ normalized = lit "li") then
    { p with capture := some normalized, captured := [], inSection := fun _ => h.2.1 }
  else p

section
variable (casefold : Str → Str)

def handleStarttag (p : ChangelogParser) (tag : Str) (attrs : Attrs) : ChangelogParser :=
  let normalized := casefold tag
  if p.hiddenTags ≠ [] then p.pushHidden normalized
  else if p.foreignTags ≠ [] then (p.spoilIf (leavesForeign normalized)).pushForeign normalized
  else if p.ambiguousTags ≠ [] then
    (p.spoilIf (governanceHtmlElements.contains normalized)).pushAmbiguous normalized
  else
    let names := attrs.map fun attr => casefold attr.1
    if ¬ names.Nodup then p.spoilIf true
    else if isAmbiguous normalized names then (p.spoilIf p.capture.isSome).pushAmbiguous normalized
    else if isStyled names then
      (p.spoilIf (p.capture.isSome || governanceHtmlElements.contains normalized)).pushAmbiguous normalized
    else if isHidden normalized names then p.pushHidden normalized
    else if foreignContentRoots.contains normalized then
      { p.spoilIf p.capture.isSome with foreignTags := normalized :: p.foreignTags }
    else p.openShown normalized

def handleStartendtag (p : ChangelogParser) (tag : Str) (attrs : Attrs) : ChangelogParser :=
  let normalized := casefold tag
  if p.ambiguousTags ≠ [] then p.spoilIf (!isVoid normalized)
  else if p.hiddenTags ≠ [] then p
  else if p.foreignTags ≠ [] then p.spoilIf (leavesForeign normalized)
  else if foreignContentRoots.contains normalized then p.spoilIf p.capture.isSome
  else if !isVoid normalized then p.spoilIf true
  else handleStarttag casefold p tag attrs

/-- What the end tag does with the section and the text captured for it. -/
def fillSection (normalized content : Str) (s : RenderedH2) : RenderedH2 :=
  if normalized = lit "h2" then { s with content := content }
  else if normalized = lit "h3" then { s with subheadings := s.subheadings ++ [content] }
  else if content ≠ [] then { s with hasListItem := true }
  else s

/-- The end tag of what is captured. -/
def endCapture (p : ChangelogParser) (normalized : Str) (h : p.capture ≠ none) : ChangelogParser :=
  let content := strip (collapse false p.captured.flatten)
  { p with
    sections := p.sections.dropLast ++ [fillSection normalized content (p.sections.getLast (p.inSection h))]
    capture := none
    captured := []
    inSection := fun h => absurd rfl h }

def handleEndtag (p : ChangelogParser) (tag : Str) : ChangelogParser :=
  let normalized := casefold tag
  match p.hiddenTags, p.foreignTags, p.ambiguousTags with
  | top :: stack, _, _ => if top ≠ normalized then p.spoilIf true else { p with hiddenTags := stack }
  | [], top :: stack, _ => if top ≠ normalized then p.spoilIf true else { p with foreignTags := stack }
  | [], [], top :: stack => if top ≠ normalized then p.spoilIf true else { p with ambiguousTags := stack }
  | [], [], [] =>
      if h : p.capture = some normalized then p.endCapture normalized (by rw [h]; exact Option.some_ne_none _) else p

def handleData (p : ChangelogParser) (text : Str) : ChangelogParser :=
  if h : p.capture ≠ none ∧ p.ambiguousTags = [] ∧ p.foreignTags = [] ∧ p.hiddenTags = [] then
    { p with captured := p.captured ++ [text], inSection := fun _ => p.inSection h.1 }
  else p

def step (p : ChangelogParser) : Event → ChangelogParser
  | .start tag attrs => handleStarttag casefold p tag attrs
  | .startEnd tag attrs => handleStartendtag casefold p tag attrs
  | .stop tag => handleEndtag casefold p tag
  | .data text => handleData p text

end

/-- What the end of the page may not find. -/
def isRejected (p : ChangelogParser) : Bool :=
  p.malformed || !p.ambiguousTags.isEmpty || p.capture.isSome || !p.foreignTags.isEmpty || !p.hiddenTags.isEmpty

end ChangelogParser

/-- The sections of a rendered page; `none` is the failure `canonical_changelog_invalid`. -/
def renderedChangelogSections (casefold : Str → Str) (events : List Event) : Option (List RenderedH2) :=
  let p := events.foldl (ChangelogParser.step casefold) .initial
  if p.isRejected then none else some p.sections

end Release
