/-
What a rendered changelog hides never counts as release evidence.

A subtree is `isUnrendered` by its root.  The parser comes out of such a subtree as it went
in, or has found the page malformed: inside, one stack is in use, and every event leaves all
but that stack and the verdict alone (`inside_run`).  So the sections of an accepted page are
those of the page without these subtrees, and that page is accepted too.
-/
import DataEngLab.Release.Changelog

namespace Release

open Lib

/-- The page as its reader tells it: elements in order, with tags of one name by `casefold`. -/
abbrev Page (casefold : Str → Str) := Forest Attrs casefold isVoid

section
variable (casefold : Str → Str)

/-- Roots of subtrees that are not shown, or may not be. -/
def isUnrendered (tag : Str) (attrs : Attrs) : Bool :=
  let names := attrs.map fun attr => casefold attr.1
  isAmbiguous (casefold tag) names || isStyled names || isHidden (casefold tag) names ||
    foreignContentRoots.contains (casefold tag)

end

theorem not_void_of_foreign {t : Str} (h : foreignContentRoots.contains t = true) : isVoid t = false := by
  rw [List.contains_iff_mem] at h
  revert t
  decide

namespace ChangelogParser

variable {casefold : Str → Str} {p : ChangelogParser}

/-! ### Inside a subtree -/

/-- Nothing is open that hides what comes next. -/
structure Shown (p : ChangelogParser) : Prop where
  ambiguous : p.ambiguousTags = []
  hidden : p.hiddenTags = []
  foreign : p.foreignTags = []

theorem Shown.spoilIf (h : p.Shown) (c : Bool) : (p.spoilIf c).Shown := ⟨h.ambiguous, h.hidden, h.foreign⟩

theorem spoilIf_spoilIf (p : ChangelogParser) (c d : Bool) : (p.spoilIf c).spoilIf d = p.spoilIf (c || d) := by
  rw [spoilIf, spoilIf, spoilIf, Bool.or_assoc]

theorem spoilIf_false (p : ChangelogParser) : p.spoilIf false = p := by
  rw [spoilIf, Bool.or_false]

theorem spoilIf_eq_or (p : ChangelogParser) (c : Bool) : (p.spoilIf c).malformed = true ∨ p.spoilIf c = p := by
  cases c with
  | true => exact .inl (Bool.or_true _)
  | false => exact .inr p.spoilIf_false

/-- The three stacks. -/
inductive Region where
  | ambiguous
  | hidden
  | foreign

/-- The parser inside a region, with these tags open there. -/
def enter (p : ChangelogParser) (stack : List Str) : Region → ChangelogParser
  | .ambiguous => { p with ambiguousTags := stack }
  | .hidden => { p with hiddenTags := stack }
  | .foreign => { p with foreignTags := stack }

theorem Shown.enter_nil (h : p.Shown) (r : Region) : p.enter [] r = p := by
  obtain ⟨ha, hh, hf⟩ := h
  cases p
  cases r <;> simp_all [enter]

variable {r : Region} {top tag : Str} {stack : List Str} {attrs : Attrs}

theorem inside_start (r : Region) (top : Str) (stack : List Str) (tag : Str) (attrs : Attrs) (h : p.Shown) : ∃ c, (p.enter (top :: stack) r).step casefold (.start tag attrs) =
    (p.spoilIf c).enter (if isVoid (casefold tag) then top :: stack else casefold tag :: top :: stack) r := by
  obtain ⟨ha, hh, hf⟩ := h
  cases r with
  | ambiguous =>
      refine ⟨governanceHtmlElements.contains (casefold tag), ?_⟩
      cases hv : isVoid (casefold tag) <;> simp [step, handleStarttag, enter, pushAmbiguous, spoilIf, hh, hf, hv]
  | hidden =>
      refine ⟨false, ?_⟩
      cases hv : isVoid (casefold tag) <;> simp [step, handleStarttag, enter, pushHidden, spoilIf, hv]
  | foreign =>
      refine ⟨leavesForeign (casefold tag), ?_⟩
      cases hv : isVoid (casefold tag) <;> simp [step, handleStarttag, enter, pushForeign, spoilIf, hh, hv]

theorem inside_startEnd (r : Region) (top : Str) (stack : List Str) (tag : Str) (attrs : Attrs) (h : p.Shown) : ∃ c, (p.enter (top :: stack) r).step casefold (.startEnd tag attrs) =
    (p.spoilIf c).enter (top :: stack) r := by
  obtain ⟨ha, hh, hf⟩ := h
  cases r with
  | ambiguous => exact ⟨!isVoid (casefold tag), by simp [step, handleStartendtag, enter, spoilIf]⟩
  | hidden => exact ⟨false, by simp [step, handleStartendtag, enter, spoilIf, ha]⟩
  | foreign => exact ⟨leavesForeign (casefold tag), by simp [step, handleStartendtag, enter, spoilIf, ha, hh]⟩

theorem inside_stop (h : p.Shown) : (p.enter (casefold tag :: stack) r).step casefold (.stop tag) =
    p.enter stack r := by
  obtain ⟨ha, hh, hf⟩ := h
  cases r <;> simp [step, handleEndtag, enter, ha, hh, hf]

theorem inside_data {text : Str} : (p.enter (top :: stack) r).step casefold (.data text) =
    p.enter (top :: stack) r := by
  cases r <;> simp [step, handleData, enter]

/-- **Inside a region only its stack and the verdict change**, and the stack is back at the end. -/
theorem inside_run (r : Region) : ∀ (page : Page casefold) {p : ChangelogParser} (top : Str) (stack : List Str), p.Shown →
    ∃ c, page.events.foldl (step casefold) (p.enter (top :: stack) r) = (p.spoilIf c).enter (top :: stack) r
  | .nil, p, _, _, _ => ⟨false, by rw [p.spoilIf_false]; rfl⟩
  | .element tag attrs inner closing opens closes rest, p, top, stack, h => by
      obtain ⟨c, hc⟩ := inside_start r top stack tag attrs h
      rw [opens, if_neg Bool.false_ne_true] at hc
      obtain ⟨d, hd⟩ := inside_run r inner (casefold tag) (top :: stack) (h.spoilIf c)
      obtain ⟨e, he⟩ := inside_run r rest top stack ((h.spoilIf c).spoilIf d)
      refine ⟨c || d || e, ?_⟩
      rw [Forest.events, List.foldl_cons, List.foldl_append, List.foldl_cons, hc, hd, ← closes,
        inside_stop ((h.spoilIf c).spoilIf d), he, spoilIf_spoilIf, spoilIf_spoilIf, Bool.or_assoc]
  | .void tag attrs hv rest, p, top, stack, h => by
      obtain ⟨c, hc⟩ := inside_start r top stack tag attrs h
      rw [hv, if_pos rfl] at hc
      obtain ⟨d, hd⟩ := inside_run r rest top stack (h.spoilIf c)
      exact ⟨c || d, by rw [Forest.events, List.foldl_cons, hc, hd, spoilIf_spoilIf]⟩
  | .startEnd tag attrs rest, p, top, stack, h => by
      obtain ⟨c, hc⟩ := inside_startEnd r top stack tag attrs h
      obtain ⟨d, hd⟩ := inside_run r rest top stack (h.spoilIf c)
      exact ⟨c || d, by rw [Forest.events, List.foldl_cons, hc, hd, spoilIf_spoilIf]⟩
  | .data text rest, p, top, stack, h => by
      rw [Forest.events, List.foldl_cons, inside_data]
      exact inside_run r rest top stack h

/-! ### At the root of a subtree -/

/-- An unrendered start tag opens one region, unless the page is malformed. -/
theorem start_unrendered (h : p.Shown) (hu : isUnrendered casefold tag attrs = true) :
    (p.step casefold (.start tag attrs)).malformed = true ∨
      ∃ c r, p.step casefold (.start tag attrs) =
        (p.spoilIf c).enter (if isVoid (casefold tag) then [] else [casefold tag]) r := by
  have hs := h
  obtain ⟨ha, hh, hf⟩ := h
  rw [step, handleStarttag, if_neg (by simp [hh]), if_neg (by simp [hf]), if_neg (by simp [ha])]
  rw [isUnrendered] at hu
  generalize attrs.map (fun attr => casefold attr.1) = names at hu ⊢
  by_cases hn : names.Nodup
  · rw [if_neg (not_not.mpr hn)]
    right
    cases h₁ : isAmbiguous (casefold tag) names with
    | true =>
        refine ⟨p.capture.isSome, .ambiguous, ?_⟩
        cases hv : isVoid (casefold tag) <;> simp [pushAmbiguous, hv, enter, spoilIf, ha]
    | false =>
      cases h₂ : isStyled names with
      | true =>
          refine ⟨p.capture.isSome || governanceHtmlElements.contains (casefold tag), .ambiguous, ?_⟩
          cases hv : isVoid (casefold tag) <;> simp [pushAmbiguous, hv, enter, spoilIf, ha]
      | false =>
        cases h₃ : isHidden (casefold tag) names with
        | true =>
            refine ⟨false, .hidden, ?_⟩
            cases hv : isVoid (casefold tag) with
            | true => simp [pushHidden, hv, p.spoilIf_false, hs.enter_nil]
            | false => simp [pushHidden, hv, enter, p.spoilIf_false, hh]
        | false =>
            rw [h₁, h₂, h₃, Bool.false_or, Bool.false_or, Bool.false_or] at hu
            refine ⟨p.capture.isSome, .foreign, ?_⟩
            rw [not_void_of_foreign hu, hu, hf]
            rfl
  · rw [if_pos hn]
    exact .inl (Bool.or_true _)

/-- Any other start tag hides nothing. -/
theorem start_rendered (h : p.Shown) (hu : isUnrendered casefold tag attrs = false) :
    (p.step casefold (.start tag attrs)).malformed = true ∨ (p.step casefold (.start tag attrs)).Shown := by
  obtain ⟨ha, hh, hf⟩ := h
  rw [step, handleStarttag, if_neg (by simp [hh]), if_neg (by simp [hf]), if_neg (by simp [ha])]
  rw [isUnrendered] at hu
  generalize attrs.map (fun attr => casefold attr.1) = names at hu ⊢
  by_cases hn : names.Nodup
  · simp only [Bool.or_eq_false_iff] at hu
    obtain ⟨⟨⟨h₁, h₂⟩, h₃⟩, h₄⟩ := hu
    simp only [hn, not_true, h₁, h₂, h₃, h₄, Bool.false_eq_true, if_false]
    rw [openShown]
    split_ifs
    · exact .inl (Bool.or_true _)
    · exact .inr ⟨ha, hh, hf⟩
    · exact .inr ⟨ha, hh, hf⟩
    · exact .inr ⟨ha, hh, hf⟩
  · rw [if_pos hn]
    exact .inl (Bool.or_true _)

/-- A tag that closes itself is read like a void start tag, unless it is foreign or makes the page malformed. -/
theorem startEnd_cases (h : p.Shown) :
    (p.step casefold (.startEnd tag attrs)).malformed = true ∨
      foreignContentRoots.contains (casefold tag) = true ∧ p.step casefold (.startEnd tag attrs) = p ∨
      isVoid (casefold tag) = true ∧
        p.step casefold (.startEnd tag attrs) = p.step casefold (.start tag attrs) := by
  obtain ⟨ha, hh, hf⟩ := h
  have hstep : p.step casefold (.startEnd tag attrs) = handleStartendtag casefold p tag attrs := rfl
  rw [hstep, handleStartendtag, if_neg (by simp [ha]), if_neg (by simp [hh]), if_neg (by simp [hf])]
  cases hr : foreignContentRoots.contains (casefold tag) with
  | true =>
      rw [if_pos rfl]
      exact (spoilIf_eq_or p _).imp_right fun heq => .inl ⟨rfl, heq⟩
  | false =>
      rw [if_neg Bool.false_ne_true]
      cases hv : isVoid (casefold tag) with
      | true => exact .inr (.inr ⟨rfl, rfl⟩)
      | false => exact .inl (Bool.or_true _)

/-! ### The whole page -/

@[simp] theorem spoilIf_malformed (p : ChangelogParser) (c : Bool) :
    (p.spoilIf c).malformed = (p.malformed || c) := rfl

@[simp] theorem pushAmbiguous_malformed (p : ChangelogParser) (t : Str) :
    (p.pushAmbiguous t).malformed = p.malformed := by
  rw [pushAmbiguous]
  split_ifs <;> rfl

@[simp] theorem pushHidden_malformed (p : ChangelogParser) (t : Str) : (p.pushHidden t).malformed = p.malformed := by
  rw [pushHidden]
  split_ifs <;> rfl

@[simp] theorem pushForeign_malformed (p : ChangelogParser) (t : Str) : (p.pushForeign t).malformed = p.malformed := by
  rw [pushForeign]
  split_ifs <;> rfl

theorem openShown_malformed (h : p.malformed = true) (t : Str) : (p.openShown t).malformed = true := by
  rw [openShown]
  split_ifs <;> simp [h]

theorem handleStarttag_malformed (h : p.malformed = true) : (handleStarttag casefold p tag attrs).malformed = true := by
  rw [handleStarttag]
  dsimp only
  split_ifs <;> simp [h, openShown_malformed h]

theorem step_malformed (h : p.malformed = true) (e : Event) : (p.step casefold e).malformed = true := by
  cases e with
  | start tag attrs => exact handleStarttag_malformed h
  | startEnd tag attrs =>
      rw [step, handleStartendtag]
      split_ifs <;> simp [h, handleStarttag_malformed h]
  | stop tag =>
      rw [step, handleEndtag]
      split <;> split_ifs <;> simp [h, endCapture]
  | data text =>
      rw [step, handleData]
      split_ifs <;> exact h

theorem stop_shown (h : p.Shown) : (p.step casefold (.stop tag)).Shown := by
  obtain ⟨ha, hh, hf⟩ := h
  simp only [step, handleEndtag, ha, hh, hf]
  split_ifs <;> exact ⟨ha, hh, hf⟩

theorem data_shown (h : p.Shown) {text : Str} : (p.step casefold (.data text)).Shown := by
  obtain ⟨ha, hh, hf⟩ := h
  simp only [step, handleData]
  split_ifs <;> exact ⟨ha, hh, hf⟩

theorem void_unrendered (h : p.Shown) (hu : isUnrendered casefold tag attrs = true) (hv : isVoid (casefold tag) = true) :
    (p.step casefold (.start tag attrs)).malformed = true ∨ p.step casefold (.start tag attrs) = p := by
  refine (start_unrendered h hu).elim .inl ?_
  rintro ⟨c, r, heq⟩
  rw [heq, hv, if_pos rfl, (h.spoilIf c).enter_nil]
  exact p.spoilIf_eq_or c

/-- The parser ignores the subtrees that are not rendered. -/
theorem ignores_unrendered (casefold : Str → Str) :
    Ignores isVoid casefold (step casefold) (fun p => p.malformed = true) Shown (isUnrendered casefold) where
  stays := fun h => step_malformed h _
  subtree := by
    intro p tag attrs closing inner h hu hopens hcloses
    rcases start_unrendered h hu with hbad | ⟨c, r, heq⟩
    · refine .inl (step_malformed ?_ _)
      exact List.foldlRecOn (motive := fun q : ChangelogParser => q.malformed = true) inner.events (step casefold) hbad
        fun q hq e _ => step_malformed hq e
    · rw [hopens, if_neg Bool.false_ne_true] at heq
      obtain ⟨d, hd⟩ := inside_run r inner (casefold tag) [] (h.spoilIf c)
      rw [heq, hd, ← hcloses, inside_stop ((h.spoilIf c).spoilIf d), ((h.spoilIf c).spoilIf d).enter_nil,
        spoilIf_spoilIf]
      exact p.spoilIf_eq_or _
  void := fun h hu hv => void_unrendered h hu hv
  startEnd := by
    intro p tag attrs h hu
    rcases startEnd_cases h with hbad | ⟨-, heq⟩ | ⟨hv, heq⟩
    · exact .inl hbad
    · exact .inr heq
    · rw [heq]
      exact void_unrendered h hu hv
  start := fun h hu => start_rendered h hu
  startEnd_shown := by
    intro p tag attrs h hu
    rcases startEnd_cases h with hbad | ⟨-, heq⟩ | ⟨-, heq⟩
    · exact .inl hbad
    · rw [heq]
      exact .inr h
    · rw [heq]
      exact start_rendered h hu
  stop := fun h => stop_shown h
  data := fun h => data_shown h

end ChangelogParser

variable {casefold : Str → Str}

theorem sections_prune (page : Page casefold) {sections : List RenderedH2}
    (h : renderedChangelogSections casefold page.events = some sections) :
    renderedChangelogSections casefold (page.prune (isUnrendered casefold)).events = some sections := by
  rw [renderedChangelogSections] at h ⊢
  have haccepted : (page.events.foldl (ChangelogParser.step casefold) .initial).isRejected = false := by
    by_contra hr
    rw [Bool.not_eq_false] at hr
    rw [hr, if_pos rfl] at h
    cases h
  have hwell : ¬ (page.events.foldl (ChangelogParser.step casefold) .initial).malformed = true := by
    simp only [ChangelogParser.isRejected, Bool.or_eq_false_iff] at haccepted
    simp [haccepted.1.1.1.1]
  rw [((ChangelogParser.ignores_unrendered casefold).run_prune page ⟨rfl, rfl, rfl⟩ hwell).1]
  exact h

/-- **What a page hides is no evidence**: well-nested events are those of a page, and when they are accepted, the
sections are those of the page without the subtrees that are not rendered, which is accepted as well. -/
theorem hidden_not_evidence (casefold : Str → Str) {events : List Event}
    (h : nests casefold isVoid [] events = true) :
    (∃ page : Page casefold, events = page.events) ∧
      ∀ (page : Page casefold) (sections : List RenderedH2), events = page.events →
        renderedChangelogSections casefold events = some sections →
        renderedChangelogSections casefold (page.prune (isUnrendered casefold)).events = some sections := by
  refine ⟨nests_iff.mp h, ?_⟩
  rintro page sections rfl haccepted
  exact sections_prune page haccepted

/-- A hidden element with a heading of its own, and a section with one list item. -/
def hiddenHeading : Page id :=
  .element (lit "div") [(lit "hidden", none)]
    (.element (lit "h2") [] (.data (lit "1. [Unreleased]") .nil) (lit "h2") (by decide) rfl .nil)
    (lit "div") (by decide) rfl
    (.element (lit "h2") [] (.data (lit "1. [0.1.0]") .nil) (lit "h2") (by decide) rfl
      (.element (lit "li") [] (.data (lit "first") .nil) (lit "li") (by decide) rfl .nil))

theorem hidden_not_evidence_heading :
    renderedChangelogSections id (hiddenHeading.prune (isUnrendered id)).events =
      some [⟨lit "1. [0.1.0]", [], true⟩] :=
  (hidden_not_evidence id (nests_iff.mpr ⟨hiddenHeading, rfl⟩)).2 hiddenHeading _ rfl (by decide +kernel)

end Release
