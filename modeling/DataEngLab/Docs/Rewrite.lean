/-
The links of a page, rewritten for another surface.

`rewriteForSurface` first replaces every Markdown link or image, from left to right: its target
where the page it points to has a place on the surface, else the whole link by its label.  In
the text that this leaves it then replaces the sources of HTML images, from the last to the
first.  Neither pass knows of fenced code.

`rewriteForSurface_edits` says what both leave alone, and that on the repository's own surface
nothing changes as long as the targets are written as the code itself writes them.
-/
import DataEngLab.Docs.Fences
import DataEngLab.Docs.ImageAgreement
import DataEngLab.Lib.Checks
import DataEngLab.Lib.Edits
import DataEngLab.Lib.Posix

namespace Docs

open Lib

/-! ### Links -/

/-- A match of `MARKDOWN_LINK_RE`, in parts. -/
structure LinkMatch where
  opening : Str
  label : Str
  target : Str
  closing : Str
deriving DecidableEq

/-- The text of a link with this target. -/
def LinkMatch.withTarget (m : LinkMatch) (target : Str) : Str :=
  m.opening ++ m.label ++ lit "](" ++ target ++ m.closing

def LinkMatch.text (m : LinkMatch) : Str := m.withTarget m.target

/-- `[^)\s]` -/
def isTargetChar (c : Nat) : Bool := c != 41 && !isPythonSpace c

/-- The parentheses of a link, after its label. -/
def parensAt (opening label : Str) (s : Str) : Option LinkMatch :=
  let target := s.takeWhile isTargetChar
  if target = [] then none
  else
    let title := (s.dropWhile isTargetChar).takeWhile (· != 41)
    if (s.dropWhile isTargetChar).dropWhile (· != 41) = [] then none
    else some ⟨opening, label, target, title ++ [41]⟩

/-- The link that begins a text after its exclamation mark. -/
def bracketsAt (opening : Str) : Str → Option LinkMatch
  | 91 :: s =>
      match s.dropWhile (· != 93) with
      | 93 :: 40 :: rest => parensAt (opening ++ [91]) (s.takeWhile (· != 93)) rest
      | _ => none
  | _ => none

/-- `MARKDOWN_LINK_RE.match`.  Each part of the expression ends at a character that the part itself does not
match, so the first way to match is the only one. -/
def linkAt : Str → Option LinkMatch
  | 33 :: s => bracketsAt [33] s
  | s => bracketsAt [] s

/-! ### Targets -/

inductive Surface where
  | repo
  | site
  | wiki
deriving DecidableEq

def wikiOrigin : Str := lit "https://github.com/thekaveh/data-eng-lab/wiki"

def repositoryOrigin : Str := lit "https://github.com/thekaveh/data-eng-lab"

/-- `PAGES_ORIGIN.rstrip("/")` -/
def pagesBase : Str := lit "https://thekaveh.github.io/data-eng-lab"

/-- `_matches_pages_origin` -/
def matchesPagesOrigin (target : Str) : Bool :=
  target == pagesBase || (pagesBase ++ lit "/").isPrefixOf target || (pagesBase ++ lit "?").isPrefixOf target ||
    (pagesBase ++ lit "#").isPrefixOf target

/-- `is_forbidden` -/
def isForbidden (target : Str) (surface : Surface) : Bool :=
  if wikiOrigin.isPrefixOf target then surface ≠ .wiki
  else if repositoryOrigin.isPrefixOf target then surface ≠ .repo
  else if matchesPagesOrigin target then surface ≠ .site
  else false

/-- `_path_and_suffix` -/
def pathAndSuffix (target : Str) : Str × Str :=
  (target.takeWhile fun c => c != 63 && c != 35, target.dropWhile fun c => c != 63 && c != 35)

/-- `_resolve` -/
def resolve (parent : PurePath) (target : Str) : PurePath := .ofText (normpath (parent.join target).asPosix)

abbrev SourceMap := List (PurePath × PurePath)

/-- `source_map.get(path)` -/
def SourceMap.find (sourceMap : SourceMap) (path : PurePath) : Option PurePath := sourceMap.lookup path

/-- What is outside the page: the working directory, and `urlsplit`, which tells whether a target has a scheme
or a host and may raise. -/
structure Setting where
  cwd : Str
  isExternal : Str → Except Unit Bool

section
variable (env : Setting)

/-- `_relative_target` -/
def relativeTarget (source target : PurePath) : Str := relpath env.cwd target.asPosix source.parent.asPosix

/-- `_rewrite_target` -/
def rewriteTarget (target : Str) (surface : Surface) (source sourceDestination : PurePath) (sourceMap : SourceMap) :
    Except Unit (Option Str) := do
  if ← env.isExternal target then
    return if isForbidden target surface then none else some target
  if target.head? = some 35 then return some target
  let (path, suffix) := pathAndSuffix target
  match sourceMap.find (resolve source.parent path) with
  | none => return none
  | some destination =>
      let destination :=
        if surface = .wiki ∧ destination.isMarkdown = true then destination.withoutSuffix else destination
      return some (relativeTarget env sourceDestination destination ++ suffix)

/-! ### The two passes -/

/-- What `replace` makes of a link. -/
def replaceLink (rewrite : Str → Except Unit (Option Str)) (m : LinkMatch) : Except Unit Str := do
  match ← rewrite m.target with
  | none => return m.label
  | some target => return m.withTarget target

theorem parensAt_text {opening label s : Str} {m : LinkMatch} (h : parensAt opening label s = some m) :
    m.opening = opening ∧ m.label = label ∧ ∃ rest, s = m.target ++ (m.closing ++ rest) := by
  rw [parensAt] at h
  split at h
  · cases h
  · dsimp only at h
    split at h
    · cases h
    · rename_i hclose
      obtain rfl := Option.some.inj h
      obtain ⟨x, rest, hrest⟩ := List.exists_cons_of_ne_nil hclose
      obtain rfl : x = 41 := by
        have hstop : Stops (· != 41) (x :: rest) := hrest ▸ stops_dropWhile
        simpa using stops_cons.mp hstop
      refine ⟨rfl, rfl, rest, ?_⟩
      dsimp only
      rw [List.append_assoc, List.singleton_append, ← hrest, List.takeWhile_append_dropWhile,
        List.takeWhile_append_dropWhile]

theorem bracketsAt_text {opening s : Str} {m : LinkMatch} (h : bracketsAt opening s = some m) :
    m.opening = opening ++ [91] ∧ ∃ rest, opening ++ s = m.text ++ rest := by
  rw [bracketsAt.eq_def] at h
  split at h
  · rename_i s
    split at h
    · rename_i rest hrest
      obtain ⟨hopening, hlabel, tail, htail⟩ := parensAt_text h
      refine ⟨hopening, tail, ?_⟩
      have hsplit : s = s.takeWhile (· != 93) ++ 93 :: 40 :: rest := by rw [← hrest, List.takeWhile_append_dropWhile]
      rw [LinkMatch.text, LinkMatch.withTarget, hopening, hlabel]
      conv_lhs => rw [hsplit, htail]
      simp [show lit "](" = [93, 40] from by decide]
    · cases h
  · cases h

/-- A link is what the text begins with. -/
theorem linkAt_text {s : Str} {m : LinkMatch} (h : linkAt s = some m) :
    m.opening ≠ [] ∧ ∃ rest, s = m.text ++ rest := by
  rw [linkAt.eq_def] at h
  split at h
  · obtain ⟨hopening, rest, hrest⟩ := bracketsAt_text h
    exact ⟨by simp [hopening], rest, hrest⟩
  · obtain ⟨hopening, rest, hrest⟩ := bracketsAt_text h
    exact ⟨by simp [hopening], rest, hrest⟩

theorem length_linkAt {s : Str} {m : LinkMatch} (h : linkAt s = some m) : s ≠ [] ∧ 0 < m.text.length := by
  obtain ⟨hopening, rest, rfl⟩ := linkAt_text h
  have hpos : 0 < m.text.length := by
    have hlen := List.length_pos_iff.mpr hopening
    simp only [LinkMatch.text, LinkMatch.withTarget, List.length_append]
    omega
  refine ⟨fun hnil => ?_, hpos⟩
  rw [(List.append_eq_nil_iff.mp hnil).1] at hpos
  exact absurd hpos (by decide)

/-- `MARKDOWN_LINK_RE.sub(replace, markdown)` -/
def rewriteLinks (rewrite : Str → Except Unit (Option Str)) (s : Str) : Except Unit Str :=
  match _h : linkAt s with
  | some m => do
      let new ← replaceLink rewrite m
      let rest ← rewriteLinks rewrite (s.drop m.text.length)
      return new ++ rest
  | none =>
      match s with
      | [] => return []
      | c :: rest => do
          let rest ← rewriteLinks rewrite rest
          return c :: rest
termination_by s.length
decreasing_by
  · have hlen := length_linkAt _h
    have hpos := List.length_pos_iff.mpr hlen.1
    simp only [List.length_drop]
    omega
  · simp

/-- `MARKDOWN_LINK_RE.finditer` -/
def links (s : Str) : List LinkMatch :=
  match _h : linkAt s with
  | some m => m :: links (s.drop m.text.length)
  | none =>
      match s with
      | [] => []
      | _ :: rest => links rest
termination_by s.length
decreasing_by
  · have hlen := length_linkAt _h
    have hpos := List.length_pos_iff.mpr hlen.1
    simp only [List.length_drop]
    omega
  · simp

/-- The loop over the images, of which the last is rewritten first. -/
def rewriteImages (rewrite : Str → Except Unit (Option Str)) (markup : Str) : List Span → Except Unit Str
  | [] => return markup
  | span :: spans => do
      let rewritten ← rewriteImages rewrite markup spans
      match ← rewrite (slice markup span) with
      | none => return rewritten
      | some target => return splice rewritten span target

/-- `rewrite_for_surface` -/
def rewriteForSurface (markdown : Str) (surface : Surface) (source : PurePath) (sourceMap : SourceMap) :
    Except Unit Str := do
  let rewrite := fun target =>
    rewriteTarget env target surface source ((sourceMap.find source).getD source) sourceMap
  let rewritten ← rewriteLinks rewrite markdown
  rewriteImages rewrite rewritten (findHtmlImageSources rewritten)

end

/-! ### What the passes leave alone -/

/-- Another target for a link of the text, or its label in its place. -/
def LinkEdit (rewrite : Str → Except Unit (Option Str)) (markdown old new : Str) : Prop :=
  ∃ m ∈ links markdown, old = m.text ∧
    (rewrite m.target = .ok none ∧ new = m.label ∨
      ∃ target, rewrite m.target = .ok (some target) ∧ new = m.withTarget target)

/-- Another source for an image of the text. -/
def ImageEdit (rewrite : Str → Except Unit (Option Str)) (markup old new : Str) : Prop :=
  ∃ span ∈ findHtmlImageSources markup, old = slice markup span ∧ rewrite old = .ok (some new)

section
variable {rewrite : Str → Except Unit (Option Str)} {s t : Str}

theorem replaceLink_ok {m : LinkMatch} {new : Str} (h : replaceLink rewrite m = .ok new) :
    rewrite m.target = .ok none ∧ new = m.label ∨
      ∃ target, rewrite m.target = .ok (some target) ∧ new = m.withTarget target := by
  rw [replaceLink, bind_eq_ok] at h
  obtain ⟨r, hr, hnew⟩ := h
  cases r with
  | none => exact .inl ⟨hr, (Except.ok.inj hnew).symm⟩
  | some target => exact .inr ⟨target, hr, (Except.ok.inj hnew).symm⟩

theorem rewriteLinks_some {m : LinkMatch} (h : linkAt s = some m) : rewriteLinks rewrite s = do
    let new ← replaceLink rewrite m
    let rest ← rewriteLinks rewrite (s.drop m.text.length)
    return new ++ rest := by
  rw [rewriteLinks]
  split
  · rename_i m' hm
    obtain rfl := Option.some.inj (h.symm.trans hm)
    rfl
  · rename_i hnone
    rw [h] at hnone
    cases hnone

theorem rewriteLinks_none {c : Nat} (h : linkAt (c :: s) = none) : rewriteLinks rewrite (c :: s) = do
    let rest ← rewriteLinks rewrite s
    return c :: rest := by
  rw [rewriteLinks]
  split
  · rename_i m hm
    rw [h] at hm
    cases hm
  · rfl

theorem rewriteLinks_nil : rewriteLinks rewrite [] = .ok [] := by
  rw [rewriteLinks]
  rfl

theorem links_some {m : LinkMatch} (h : linkAt s = some m) : links s = m :: links (s.drop m.text.length) := by
  rw [links]
  split
  · rename_i m' hm
    obtain rfl := Option.some.inj (h.symm.trans hm)
    rfl
  · rename_i hnone
    rw [h] at hnone
    cases hnone

theorem links_none {c : Nat} (h : linkAt (c :: s) = none) : links (c :: s) = links s := by
  rw [links]
  split
  · rename_i m hm
    rw [h] at hm
    cases hm
  · rfl

/-- **The first pass changes links only.** -/
theorem rewriteLinks_edits (h : rewriteLinks rewrite s = .ok t) : IsEdit (LinkEdit rewrite s) s t := by
  induction s using rewriteLinks.induct generalizing t with
  | case1 s m hm ih =>
      rw [rewriteLinks_some hm] at h
      simp only [bind_eq_ok, pure_eq_ok] at h
      obtain ⟨new, hnew, rest, hrest, rfl⟩ := h
      obtain ⟨-, tail, rfl⟩ := linkAt_text hm
      rw [List.drop_left] at hrest ih
      have hlinks : links (m.text ++ tail) = m :: links tail := by rw [links_some hm, List.drop_left]
      have hothers : IsEdit (LinkEdit rewrite (m.text ++ tail)) tail rest :=
          (ih hrest).mono fun old new hedit => by
        obtain ⟨m', hm', hold, hnew'⟩ := hedit
        exact ⟨m', hlinks ▸ List.mem_cons_of_mem _ hm', hold, hnew'⟩
      exact hothers.swap ⟨m, hlinks ▸ List.mem_cons_self, rfl, replaceLink_ok hnew⟩
  | case2 hm =>
      rw [rewriteLinks_nil] at h
      obtain rfl := Except.ok.inj h
      exact IsEdit.nil
  | case3 c s hm ih =>
      rw [rewriteLinks_none hm] at h
      simp only [bind_eq_ok, pure_eq_ok] at h
      obtain ⟨rest, hrest, rfl⟩ := h
      have hothers : IsEdit (LinkEdit rewrite (c :: s)) s rest := (ih hrest).mono fun old new hedit => by
        rw [LinkEdit, links_none hm]
        exact hedit
      exact hothers.keep [c]

/-! ### The places of images -/

theorem stop_skip (p : Nat → Bool) (c : Cursor) : (c.skip p).pos + (c.skip p).rest.length = c.pos + c.rest.length := by
  have hlen := Cursor.length_word_skip p c
  rw [Cursor.skip_pos]
  omega

theorem stop_next {c : Cursor} (h : c.rest ≠ []) : c.next.pos + c.next.rest.length = c.pos + c.rest.length := by
  have hpos := List.length_pos_iff.mpr h
  simp only [Cursor.next, List.length_tail]
  omega

theorem rest_ne_nil {c : Cursor} {x : Nat} (h : c.rest.head? = some x) : c.rest ≠ [] := by
  rintro hnil
  rw [hnil] at h
  cases h

/-- A round of the scanner of sources stays in the tag. -/
def Turn.Within (c : Cursor) : Turn (Option Span) → Prop
  | .stop none => True
  | .stop (some span) => c.pos ≤ span.1 ∧ span.1 ≤ span.2 ∧ span.2 ≤ c.pos + c.rest.length
  | .go c' => c.pos ≤ c'.pos ∧ c'.pos + c'.rest.length = c.pos + c.rest.length

theorem valueTurn_within (name : Str) (value : Cursor) : (valueTurn name value).Within value := by
  rw [valueTurn]
  split
  · trivial
  · rename_i first hfirst
    have hnext := stop_next (rest_ne_nil hfirst)
    split
    · have hskip := stop_skip (· != first) value.next
      dsimp only
      split
      · trivial
      · rename_i hrest
        have hlast := stop_next hrest
        split
        · simp only [Turn.Within, Cursor.skip_pos, Cursor.next] at *
          omega
        · simp only [Turn.Within, Cursor.skip_pos, Cursor.next] at *
          omega
    · have hskip := stop_skip (fun x => !isPythonSpace x) value
      dsimp only
      split
      · simp only [Turn.Within, Cursor.skip_pos] at *
        omega
      · simp only [Turn.Within, Cursor.skip_pos] at *
        omega

theorem Turn.Within.mono {c d : Cursor} (hpos : c.pos ≤ d.pos)
    (hstop : d.pos + d.rest.length = c.pos + c.rest.length) : ∀ {r : Turn (Option Span)}, r.Within d → r.Within c
  | .stop none, _ => trivial
  | .stop (some _), h => ⟨hpos.trans h.1, h.2.1, hstop ▸ h.2.2⟩
  | .go _, h => ⟨hpos.trans h.1, h.2.trans hstop⟩

theorem srcTurn_within (c : Cursor) : (srcTurn c).Within c := by
  have hstart := stop_skip isSeparator c
  rw [srcTurn]
  dsimp only
  split
  · split
    · trivial
    · rename_i hrest
      have hnext := stop_next hrest
      simp only [Turn.Within, Cursor.skip_pos, Cursor.next] at *
      omega
  · have hname := stop_skip isNameChar (c.skip isSeparator)
    have hafter := stop_skip isPythonSpace ((c.skip isSeparator).skip isNameChar)
    split
    · simp only [Turn.Within, Cursor.skip_pos] at *
      omega
    · rename_i hequals
      have hnext := stop_next (rest_ne_nil (not_not.mp hequals))
      have hvalue := stop_skip isPythonSpace (((c.skip isSeparator).skip isNameChar).skip isPythonSpace).next
      refine (valueTurn_within _ _).mono ?_ ?_
      · simp only [Cursor.skip_pos, Cursor.next]
        omega
      · omega

theorem htmlSrcAttribute_within (c : Cursor) {span : Span} (h : htmlSrcAttribute c = some span) :
    c.pos ≤ span.1 ∧ span.1 ≤ span.2 ∧ span.2 ≤ c.pos + c.rest.length := by
  induction c using htmlSrcAttribute.induct with
  | case1 c r hr =>
      have hturn := srcTurn_within c
      rw [htmlSrcAttribute] at h
      split at h
      · rename_i r' hr'
        rw [hr', h] at hturn
        exact hturn
      · rename_i c' hc'
        rw [hr] at hc'
        cases hc'
  | case2 c c' hc ih =>
      have hturn := srcTurn_within c
      rw [hc] at hturn
      rw [htmlSrcAttribute] at h
      split at h
      · rename_i r hr
        rw [hc] at hr
        cases hr
      · rename_i c'' hc'
        rw [hc] at hc'
        cases hc'
        obtain ⟨hpos, hspan, hstop⟩ := ih h
        exact ⟨hturn.1.trans hpos, hspan, hturn.2 ▸ hstop⟩

theorem htmlTagEnd_lt : ∀ {quote : Option Nat} {pos stop : Nat} {s : Str},
    htmlTagEnd quote pos s = some stop → stop < pos + s.length
  | _, _, _, [], h => by simp [htmlTagEnd] at h
  | some quote, pos, stop, c :: rest, h => by
      have hrest : htmlTagEnd (if c = quote then none else some quote) (pos + 1) rest = some stop := h
      have hlt := htmlTagEnd_lt hrest
      rw [List.length_cons]
      omega
  | none, pos, stop, c :: rest, h => by
      rw [htmlTagEnd] at h
      rw [List.length_cons]
      split at h
      · have hlt := htmlTagEnd_lt h
        omega
      · split at h
        · have heq := Option.some.inj h
          omega
        · have hlt := htmlTagEnd_lt h
          omega

/-- **The sources follow one another.** -/
theorem imagesFrom_ordered (c : Cursor) : Ordered c.pos (imagesFrom c) (c.pos + c.rest.length) := by
  induction c using imagesFrom.induct with
  | case1 c hrest =>
      rw [imagesFrom, dif_pos hrest]
      exact Nat.le_add_right _ _
  | case2 c hrest hopen start hstop =>
      have hend : htmlTagEnd none (c.pos + 4) (c.rest.drop 4) = none := hstop
      rw [imagesFrom_tag hrest hopen, hend]
      exact Nat.le_add_right _ _
  | case3 c hrest hopen start stop hstop ih =>
      have hend : htmlTagEnd none (c.pos + 4) (c.rest.drop 4) = some stop := hstop
      have hle := le_htmlTagEnd hend
      have hlt := htmlTagEnd_lt hend
      rw [imagesFrom_tag hrest hopen, hend, Option.map_some, Option.getD_some]
      simp only [List.length_drop] at hlt ih
      have hrests : stop + 1 + (c.rest.length - (stop + 1 - c.pos)) = c.pos + c.rest.length := by omega
      have hothers : Ordered stop _ (c.pos + c.rest.length) := (hrests ▸ ih).mono (Nat.le_succ stop)
      refine Ordered.append ?_ hothers
      cases hsrc : htmlSrcAttribute ⟨c.pos + 4, (c.rest.drop 4).take (stop - (c.pos + 4))⟩ with
      | none => exact (Nat.le_add_right _ _).trans hle
      | some span =>
          obtain ⟨hfirst, hspan, hlast⟩ := htmlSrcAttribute_within _ hsrc
          simp only [List.length_take, List.length_drop] at hfirst hlast
          refine ⟨by omega, hspan, ?_⟩
          show span.2 ≤ stop
          omega
  | case4 c hrest hopen ih =>
      rw [imagesFrom, dif_neg hrest, if_neg hopen, ← stop_next hrest]
      exact ih.mono (Nat.le_succ _)

theorem findHtmlImageSources_ordered (markup : Str) : Ordered 0 (findHtmlImageSources markup) markup.length := by
  have h := imagesFrom_ordered ⟨0, markup⟩
  rwa [Nat.zero_add] at h

/-! ### The frame of both passes -/

theorem rewriteImages_edits {markup u : Str} {spans : List Span} {pos : Nat} (hspans : Ordered pos spans markup.length)
    (hfound : ∀ span ∈ spans, span ∈ findHtmlImageSources markup)
    (h : rewriteImages rewrite markup spans = .ok u) :
    ∃ v, u = markup.take pos ++ v ∧ IsEdit (ImageEdit rewrite markup) (markup.drop pos) v := by
  induction spans generalizing pos u with
  | nil =>
      obtain rfl := Except.ok.inj h
      exact ⟨markup.drop pos, (List.take_append_drop pos markup).symm, IsEdit.refl _⟩
  | cons span spans ih =>
      obtain ⟨hpos, hspan, hothers⟩ := hspans
      rw [rewriteImages, bind_eq_ok] at h
      obtain ⟨rewritten, hrewritten, h⟩ := h
      rw [bind_eq_ok] at h
      obtain ⟨r, hr, hu⟩ := h
      obtain ⟨v, rfl, hv⟩ := ih hothers (fun other hmem => hfound other (List.mem_cons_of_mem _ hmem)) hrewritten
      cases r with
      | none =>
          obtain rfl := Except.ok.inj hu
          refine ⟨(markup.take span.2).drop pos ++ v, ?_, ?_⟩
          · rw [← List.append_assoc]
            conv_lhs => rw [← List.take_append_drop pos (markup.take span.2), List.take_take,
              Nat.min_eq_left (hpos.trans hspan)]
          · rw [drop_split (hpos.trans hspan)]
            exact hv.keep _
      | some target =>
          obtain rfl := Except.ok.inj hu
          exact isEdit_splice hpos hspan hothers.le ⟨span, hfound span List.mem_cons_self, rfl, hr⟩ hv

/-- The rewriting of one page's targets. -/
def pageRewrite (env : Setting) (surface : Surface) (source : PurePath) (sourceMap : SourceMap) (target : Str) :
    Except Unit (Option Str) :=
  rewriteTarget env target surface source ((sourceMap.find source).getD source) sourceMap

/-- The first pass changes the links of the input, the second the sources of the images in what that leaves. -/
theorem rewriteForSurface_frame {env : Setting} {markdown out : Str} {surface : Surface} {source : PurePath}
    {sourceMap : SourceMap} (h : rewriteForSurface env markdown surface source sourceMap = .ok out) :
    ∃ mid, IsEdit (LinkEdit (pageRewrite env surface source sourceMap) markdown) markdown mid ∧
      IsEdit (ImageEdit (pageRewrite env surface source sourceMap) mid) mid out := by
  rw [rewriteForSurface, bind_eq_ok] at h
  obtain ⟨mid, hlinks, himages⟩ := h
  refine ⟨mid, rewriteLinks_edits hlinks, ?_⟩
  obtain ⟨v, rfl, hv⟩ := rewriteImages_edits (findHtmlImageSources_ordered mid) (fun _ hmem => hmem) himages
  exact hv

/-! ### The surface of the repository -/

/-- No target changes, so the links stay as they are. -/
theorem rewriteLinks_settled (h : ∀ m ∈ links s, rewrite m.target = .ok (some m.target)) :
    rewriteLinks rewrite s = .ok s := by
  induction s using rewriteLinks.induct with
  | case1 s m hm ih =>
      obtain ⟨-, tail, rfl⟩ := linkAt_text hm
      rw [links_some hm] at h
      rw [List.drop_left] at h ih
      have hnew : replaceLink rewrite m = .ok m.text := by
        rw [replaceLink, h m List.mem_cons_self]
        rfl
      rw [rewriteLinks_some hm, hnew, List.drop_left, ih fun m' hm' => h m' (List.mem_cons_of_mem _ hm')]
      rfl
  | case2 hm => exact rewriteLinks_nil
  | case3 c s hm ih =>
      rw [links_none hm] at h
      rw [rewriteLinks_none hm, ih h]
      rfl

theorem splice_slice {span : Nat × Nat} (h : span.1 ≤ span.2) : splice s span (slice s span) = s := by
  rw [splice, slice, List.append_assoc, ← drop_split h, List.take_append_drop]

theorem rewriteImages_settled {markup : Str} {spans : List Span} {pos stop : Nat} (hspans : Ordered pos spans stop)
    (h : ∀ span ∈ spans, rewrite (slice markup span) = .ok (some (slice markup span))) :
    rewriteImages rewrite markup spans = .ok markup := by
  induction spans generalizing pos with
  | nil => rfl
  | cons span spans ih =>
      have hothers := ih hspans.2.2 fun other hmem => h other (List.mem_cons_of_mem _ hmem)
      rw [rewriteImages, hothers]
      show (rewrite (slice markup span) >>= _) = _
      rw [h span List.mem_cons_self]
      show Except.ok (splice markup span (slice markup span)) = _
      rw [splice_slice hspans.2.1]

/-- The source map of the repository's own surface leads every page to itself. -/
def SourceMap.IsIdentity (sourceMap : SourceMap) : Prop := ∀ p q, sourceMap.find p = some q → q = p

/-- A target that is written as the code writes it for the repository: outside the page and allowed there, a
place on the page, or the path of a mapped page from the directory of the source. -/
def Settled (env : Setting) (source : PurePath) (sourceMap : SourceMap) (target : Str) : Prop :=
  env.isExternal target = .ok true ∧ isForbidden target .repo = false ∨
    env.isExternal target = .ok false ∧
      (target.head? = some 35 ∨
        ∃ destination, sourceMap.find (resolve source.parent (pathAndSuffix target).1) = some destination ∧
          relativeTarget env source destination = (pathAndSuffix target).1)

theorem pathAndSuffix_append (target : Str) : (pathAndSuffix target).1 ++ (pathAndSuffix target).2 = target :=
  List.takeWhile_append_dropWhile

theorem pageRewrite_settled {env : Setting} {source : PurePath} {sourceMap : SourceMap} {target : Str}
    (hidentity : sourceMap.IsIdentity) (h : Settled env source sourceMap target) :
    pageRewrite env .repo source sourceMap target = .ok (some target) := by
  have hsource : (sourceMap.find source).getD source = source := by
    cases hfind : sourceMap.find source with
    | none => rfl
    | some q => exact hidentity source q hfind
  rw [pageRewrite, hsource, rewriteTarget]
  obtain ⟨hexternal, hallowed⟩ | ⟨hlocal, hplace⟩ := h
  · simp [hexternal, hallowed]
  · rw [hlocal]
    obtain hfragment | ⟨destination, hfind, hspelled⟩ := hplace
    · simp [hfragment]
    · have hmapped : (some (relativeTarget env source destination ++ (pathAndSuffix target).2)) = some target := by
        rw [hspelled, pathAndSuffix_append]
      simp [hfind, hmapped]

theorem rewriteForSurface_settled {env : Setting} {markdown : Str} {source : PurePath} {sourceMap : SourceMap}
    (hidentity : sourceMap.IsIdentity) (hlinks : ∀ m ∈ links markdown, Settled env source sourceMap m.target)
    (himages : ∀ span ∈ findHtmlImageSources markdown, Settled env source sourceMap (slice markdown span)) :
    rewriteForSurface env markdown .repo source sourceMap = .ok markdown := by
  have hfirst : rewriteLinks (pageRewrite env .repo source sourceMap) markdown = .ok markdown :=
    rewriteLinks_settled fun m hm => pageRewrite_settled hidentity (hlinks m hm)
  have hsecond : rewriteImages (pageRewrite env .repo source sourceMap) markdown (findHtmlImageSources markdown) =
      .ok markdown :=
    rewriteImages_settled (findHtmlImageSources_ordered markdown) fun span hspan =>
      pageRewrite_settled hidentity (himages span hspan)
  show (rewriteLinks (pageRewrite env .repo source sourceMap) markdown >>= _) = _
  rw [hfirst]
  exact hsecond

/-- **Rewriting leaves everything else alone**, and on the repository's own surface it changes nothing at all
where every target is settled. -/
theorem rewriteForSurface_edits (env : Setting) (markdown : Str) (surface : Surface) (source : PurePath)
    (sourceMap : SourceMap) :
    (∀ out, rewriteForSurface env markdown surface source sourceMap = .ok out →
      ∃ mid, IsEdit (LinkEdit (pageRewrite env surface source sourceMap) markdown) markdown mid ∧
        IsEdit (ImageEdit (pageRewrite env surface source sourceMap) mid) mid out) ∧
    (surface = .repo → sourceMap.IsIdentity → (∀ m ∈ links markdown, Settled env source sourceMap m.target) →
      (∀ span ∈ findHtmlImageSources markdown, Settled env source sourceMap (slice markdown span)) →
      rewriteForSurface env markdown surface source sourceMap = .ok markdown) := by
  refine ⟨fun out h => rewriteForSurface_frame h, ?_⟩
  rintro rfl hidentity hlinks himages
  exact rewriteForSurface_settled hidentity hlinks himages

end

/-! ### A page of the repository -/

/-- The map of the repository's own surface. -/
def SourceMap.identity (pages : List PurePath) : SourceMap := pages.map fun page => (page, page)

theorem SourceMap.identity_isIdentity (pages : List PurePath) : (identity pages).IsIdentity := by
  intro p q h
  induction pages with
  | nil => cases h
  | cons page pages ih =>
      rw [SourceMap.find, identity, List.map_cons, List.lookup_cons] at h
      cases hp : p == page with
      | false =>
          rw [hp] at h
          exact ih h
      | true =>
          rw [hp] at h
          rw [← Option.some.inj h, eq_of_beq hp]

/-- A working directory, and addresses with a scheme only. -/
def localSetting : Setting := ⟨lit "/lab", fun target => .ok ((lit "https:").isPrefixOf target)⟩

def guidePage : PurePath := .ofText (lit "docs/a.md")

def guideMap : SourceMap := .identity [guidePage, .ofText (lit "docs/b.md"), .ofText (lit "docs/guide/c.md")]

def guideText : Str := lit "[c](guide/c.md#x) and <img src=\"https://example.org/i.png\">"

theorem rewriteForSurface_guide :
    rewriteForSurface localSetting guideText .repo guidePage guideMap = .ok guideText := by
  refine (rewriteForSurface_edits localSetting guideText .repo guidePage guideMap).2 rfl
    (SourceMap.identity_isIdentity _) (fun m hm => ?_) fun span hspan => ?_
  · have hlinks : links guideText = [⟨lit "[", lit "c", lit "guide/c.md#x", lit ")"⟩] := by decide +kernel
    obtain rfl := List.mem_singleton.mp (hlinks ▸ hm)
    exact .inr ⟨by decide +kernel, .inr ⟨.ofText (lit "docs/guide/c.md"), by decide +kernel, by decide +kernel⟩⟩
  · have himages : findHtmlImageSources guideText = [(32, 57)] := by decide +kernel
    obtain rfl := List.mem_singleton.mp (himages ▸ hspan)
    exact .inl ⟨by decide +kernel, by decide +kernel⟩

/-- Code in a fence is rewritten where it has the shape of a link; on the repository's own surface a target is
spelled anew, and an address that is not allowed there goes. -/
theorem rewriteForSurface_changes :
    (withoutFencedCode (lit "```\nx[i](y)\n```\n") = lit "\n\n\n" ∧
      rewriteForSurface localSetting (lit "```\nx[i](y)\n```\n") .site guidePage guideMap =
        .ok (lit "```\nxi\n```\n")) ∧
    rewriteForSurface localSetting (lit "[b](./b.md)") .repo guidePage guideMap = .ok (lit "[b](b.md)") ∧
    rewriteForSurface localSetting (lit "[w](https://github.com/thekaveh/data-eng-lab/wiki)") .repo guidePage guideMap =
      .ok (lit "w") := by
  decide +kernel

end Docs
