/-
Two scanners of fenced code.

`withoutFencedCode` blanks the code of a document before its links, headings and markers are
checked, and `unlabeledOpeningFences` lists the fences that open a block without a label.
Each walks over the lines with the block it is in, and each has its own rule of what opens
one: a run of backticks whose info string holds a backtick is text to the first scanner and
an opening fence to the second.

`Balanced` says of lines that every block opened in them is closed, without either scanner.
The two agree on a document exactly when no such run stands where a block could open
(`scanners_agree_iff`); where one does, what one of them takes for code the other takes for
text from there on.
-/
import DataEngLab.Lib.Lines
import DataEngLab.Lib.Decimal
import Mathlib.Data.List.DropRight

namespace Docs

open Lib

/-! ### Fence markers -/

/-- A run of fence characters: the character, how long the run is, and the info string. -/
structure Marker where
  character : Nat
  length : Nat
  info : Str
deriving DecidableEq

/-- `line.rstrip("\r\n")` -/
def withoutLineFeed (line : Str) : Str := (line.reverse.dropWhile fun c => c == 13 || c == 10).reverse

/-- `_fence_marker` -/
def fenceMarker (line : Str) : Option Marker :=
  match (withoutLineFeed line).dropWhile fun c => c == 32 || c == 9 with
  | [] => none
  | character :: rest =>
      if character = 96 ∨ character = 126 then
        let length := ((character :: rest).takeWhile (· == character)).length
        if length < 3 then none else some ⟨character, length, (character :: rest).drop length⟩
      else none

/-- The character and the length of the fence that opened the block. -/
abbrev Fence := Nat × Nat

/-- `not marker[2].strip()` -/
def Marker.bare (m : Marker) : Bool := strip m.info == []

/-- A marker that closes the block of a fence. -/
def Marker.closes (m : Marker) (fence : Fence) : Bool := m.character == fence.1 && fence.2 ≤ m.length && m.bare

/-- A run of backticks with a backtick in its info string. -/
def Marker.ambiguous (m : Marker) : Bool := m.character == 96 && m.info.contains 96

/-! ### Blanking code -/

/-- `"\n" if line.endswith("\n") else ""` -/
def blank (line : Str) : Str := if line.getLast? = some 10 then [10] else []

/-- The lines of `_without_fenced_code`, after a fence that is still open. -/
def blankFences : Option Fence → List Str → List Str
  | _, [] => []
  | some fence, line :: rest =>
      let closed := (fenceMarker line).any fun marker => marker.closes fence
      blank line :: blankFences (if closed then none else some fence) rest
  | none, line :: rest =>
      match fenceMarker line with
      | some marker =>
          if marker.ambiguous then line :: blankFences none rest
          else blank line :: blankFences (some (marker.character, marker.length)) rest
      | none => line :: blankFences none rest

/-- `_without_fenced_code` -/
def withoutFencedCode (markdown : Str) : Str := (blankFences none ((splitLines markdown).map Line.kept)).flatten

/-! ### Opening fences without a label -/

/-- The rounds of `_unlabeled_opening_fences`, from the number of a line on. -/
def unlabeledFences : Option Fence → Nat → List Str → List Nat
  | _, _, [] => []
  | fence, number, line :: rest =>
      match fenceMarker line, fence with
      | none, fence => unlabeledFences fence (number + 1) rest
      | some marker, some fence =>
          unlabeledFences (if marker.closes fence then none else some fence) (number + 1) rest
      | some marker, none =>
          let findings := unlabeledFences (some (marker.character, marker.length)) (number + 1) rest
          if marker.bare then number :: findings else findings

/-- `_unlabeled_opening_fences` -/
def unlabeledOpeningFences (markdown : Str) : List Nat :=
  unlabeledFences none 1 ((splitLines markdown).map Line.content)

/-! ### The block a scanner is in -/

/-- The block after a line, as `_without_fenced_code` has it. -/
def stepBlank (fence : Option Fence) (line : Str) : Option Fence :=
  match fence, fenceMarker line with
  | fence, none => fence
  | some fence, some marker => if marker.closes fence then none else some fence
  | none, some marker => if marker.ambiguous then none else some (marker.character, marker.length)

/-- The block after a line, as `_unlabeled_opening_fences` has it. -/
def stepUnlabeled (fence : Option Fence) (line : Str) : Option Fence :=
  match fence, fenceMarker line with
  | fence, none => fence
  | some fence, some marker => if marker.closes fence then none else some fence
  | none, some marker => some (marker.character, marker.length)

/-- Which lines are code: those in a block, and the fences that open and close it. -/
def codeLines (step : Option Fence → Str → Option Fence) : Option Fence → List Str → List Bool
  | _, [] => []
  | fence, line :: rest => (fence.isSome || (step fence line).isSome) :: codeLines step (step fence line) rest

section
variable {line : Str} {marker : Marker} {fence : Fence}

theorem stepBlank_of_none {fence : Option Fence} (h : fenceMarker line = none) : stepBlank fence line = fence := by
  cases fence <;> simp only [stepBlank, h]

theorem stepBlank_inside (h : fenceMarker line = some marker) :
    stepBlank (some fence) line = if marker.closes fence then none else some fence := by
  simp only [stepBlank, h]

theorem stepBlank_outside (h : fenceMarker line = some marker) :
    stepBlank none line = if marker.ambiguous then none else some (marker.character, marker.length) := by
  simp only [stepBlank, h]

theorem stepUnlabeled_outside (h : fenceMarker line = some marker) :
    stepUnlabeled none line = some (marker.character, marker.length) := by
  simp only [stepUnlabeled, h]

/-- In a block the two scanners do the same. -/
theorem step_inside (fence : Fence) (line : Str) : stepBlank (some fence) line = stepUnlabeled (some fence) line := by
  cases h : fenceMarker line <;> simp only [stepBlank, stepUnlabeled, h]

/-- Outside a block they do the same but for an ambiguous marker. -/
theorem step_outside (h : ∀ marker, fenceMarker line = some marker → marker.ambiguous = false) :
    stepBlank none line = stepUnlabeled none line := by
  cases hm : fenceMarker line with
  | none => simp only [stepBlank, stepUnlabeled, hm]
  | some marker =>
      rw [stepBlank_outside hm, stepUnlabeled_outside hm, h marker hm]
      rfl

end

/-- **What is blanked is the code.** -/
theorem blankFences_eq (fence : Option Fence) (lines : List Str) : blankFences fence lines =
    List.zipWith (fun code line => if code then blank line else line) (codeLines stepBlank fence lines) lines := by
  induction lines generalizing fence with
  | nil => cases fence <;> rfl
  | cons line rest ih =>
      cases fence with
      | some fence =>
          cases hm : fenceMarker line with
          | none => simp [blankFences, codeLines, stepBlank, hm, ih]
          | some marker => simp [blankFences, codeLines, stepBlank, hm, ih]
      | none =>
          cases hm : fenceMarker line with
          | none => simp [blankFences, codeLines, stepBlank, hm, ih]
          | some marker =>
              by_cases hodd : marker.ambiguous = true
              · simp [blankFences, codeLines, stepBlank, hm, hodd, ih]
              · simp [blankFences, codeLines, stepBlank, hm, hodd, ih]

/-- A bare fence, so many lines on, where a scanner is in no block. -/
def BareFrom (fence : Option Fence) (number k : Nat) (lines : List Str) : Prop :=
  ∃ before line after marker, lines = before ++ line :: after ∧ k = number + before.length ∧
    before.foldl stepUnlabeled fence = none ∧ fenceMarker line = some marker ∧ marker.bare = true

theorem bareFrom_cons {fence : Option Fence} {number k : Nat} {line : Str} {rest : List Str} :
    BareFrom fence number k (line :: rest) ↔
      (k = number ∧ fence = none ∧ ∃ marker, fenceMarker line = some marker ∧ marker.bare = true) ∨
        BareFrom (stepUnlabeled fence line) (number + 1) k rest := by
  constructor
  · rintro ⟨before, found, after, marker, hlines, rfl, hfence, hmarker, hbare⟩
    cases before with
    | nil =>
        obtain ⟨rfl, rfl⟩ := List.cons.inj hlines
        exact .inl ⟨rfl, hfence, marker, hmarker, hbare⟩
    | cons first before =>
        obtain ⟨rfl, rfl⟩ := List.cons.inj hlines
        exact .inr ⟨before, found, after, marker, rfl, by rw [List.length_cons]; omega, hfence, hmarker, hbare⟩
  · rintro (⟨rfl, rfl, marker, hmarker, hbare⟩ | ⟨before, found, after, marker, rfl, rfl, hfence, hmarker, hbare⟩)
    · exact ⟨[], line, rest, marker, rfl, rfl, rfl, hmarker, hbare⟩
    · exact ⟨line :: before, found, after, marker, rfl, by rw [List.length_cons]; omega, hfence, hmarker, hbare⟩

/-- **What is reported** are the bare fences that stand where the scanner is in no block. -/
theorem mem_unlabeledFences {fence : Option Fence} {number k : Nat} {lines : List Str} :
    k ∈ unlabeledFences fence number lines ↔ BareFrom fence number k lines := by
  induction lines generalizing fence number with
  | nil =>
      have hnone : ¬ BareFrom fence number k [] := by
        rintro ⟨before, line, after, marker, hlines, -⟩
        exact List.append_ne_nil_of_right_ne_nil before (List.cons_ne_nil line after) hlines.symm
      simp only [unlabeledFences, List.not_mem_nil, hnone]
  | cons line rest ih =>
      rw [bareFrom_cons]
      cases hm : fenceMarker line with
      | none => cases fence <;> simp [unlabeledFences, stepUnlabeled, hm, ih]
      | some marker =>
          cases fence with
          | some fence => simp [unlabeledFences, stepUnlabeled, hm, ih]
          | none =>
              by_cases hbare : marker.bare = true
              · simp [unlabeledFences, stepUnlabeled, hm, hbare, ih]
              · simp [unlabeledFences, stepUnlabeled, hm, hbare, ih]

/-! ### Blocks -/

/-- Lines in which every block that was opened has been closed.  An ambiguous marker opens none. -/
inductive Balanced : List Str → Prop
  | nil : Balanced []
  | text {lines : List Str} {line : Str} : Balanced lines →
      (∀ marker, fenceMarker line = some marker → marker.ambiguous = true) → Balanced (lines ++ [line])
  | block {lines body : List Str} {opener closer : Str} {opening closing : Marker} : Balanced lines →
      fenceMarker opener = some opening → opening.ambiguous = false →
      (∀ line ∈ body, ∀ marker, fenceMarker line = some marker →
        marker.closes (opening.character, opening.length) = false) →
      fenceMarker closer = some closing → closing.closes (opening.character, opening.length) = true →
      Balanced (lines ++ (opener :: body ++ [closer]))

/-- Lines that do not close a block leave it open. -/
theorem foldl_stepBlank_body {fence : Fence} {body : List Str}
    (h : ∀ line ∈ body, ∀ marker, fenceMarker line = some marker → marker.closes fence = false) :
    body.foldl stepBlank (some fence) = some fence := by
  induction body with
  | nil => rfl
  | cons line body ih =>
      rw [List.forall_mem_cons] at h
      have hstep : stepBlank (some fence) line = some fence := by
        cases hm : fenceMarker line with
        | none => exact stepBlank_of_none hm
        | some marker => rw [stepBlank_inside hm, h.1 marker hm]; rfl
      rw [List.foldl_cons, hstep, ih h.2]

/-- What the state of a scanner stands for. -/
theorem foldl_stepBlank_cases (lines : List Str) :
    (lines.foldl stepBlank none = none → Balanced lines) ∧
    ∀ fence, lines.foldl stepBlank none = some fence → ∃ before opener body opening,
      lines = before ++ opener :: body ∧ Balanced before ∧ fenceMarker opener = some opening ∧
        opening.ambiguous = false ∧ fence = (opening.character, opening.length) ∧
        ∀ line ∈ body, ∀ marker, fenceMarker line = some marker → marker.closes fence = false := by
  induction lines using List.reverseRecOn with
  | nil =>
      refine ⟨fun _ => .nil, fun fence h => ?_⟩
      cases h
  | append_singleton lines line ih =>
      rw [List.foldl_append, List.foldl_cons, List.foldl_nil]
      obtain ⟨hbalanced, hopen⟩ := ih
      cases hstate : lines.foldl stepBlank none with
      | none =>
          cases hm : fenceMarker line with
          | none =>
              rw [stepBlank_of_none hm]
              refine ⟨fun _ => .text (hbalanced hstate) fun marker h => ?_, fun fence h => ?_⟩
              · rw [hm] at h
                cases h
              · cases h
          | some marker =>
              rw [stepBlank_outside hm]
              by_cases hodd : marker.ambiguous = true
              · rw [if_pos hodd]
                refine ⟨fun _ => .text (hbalanced hstate) fun marker' h => ?_, fun fence h => ?_⟩
                · rw [hm] at h
                  exact Option.some.inj h ▸ hodd
                · cases h
              · rw [if_neg hodd]
                refine ⟨fun h => ?_, fun fence h => ?_⟩
                · cases h
                · exact ⟨lines, line, [], marker, rfl, hbalanced hstate, hm, Bool.eq_false_iff.mpr hodd,
                    (Option.some.inj h).symm, fun _ h => absurd h List.not_mem_nil⟩
      | some fence =>
          obtain ⟨before, opener, body, opening, rfl, hbefore, hopening, hplain, hfence, hbody⟩ := hopen fence hstate
          have hgrow : (∀ marker, fenceMarker line = some marker → marker.closes fence = false) →
              ∀ fence', some fence = some fence' → ∃ before' opener' body' opening',
                before ++ opener :: body ++ [line] = before' ++ opener' :: body' ∧ Balanced before' ∧
                  fenceMarker opener' = some opening' ∧ opening'.ambiguous = false ∧
                  fence' = (opening'.character, opening'.length) ∧
                  ∀ line ∈ body', ∀ marker, fenceMarker line = some marker → marker.closes fence' = false := by
            rintro hline _ ⟨⟩
            refine ⟨before, opener, body ++ [line], opening, by simp, hbefore, hopening, hplain, hfence, ?_⟩
            rw [List.forall_mem_append, List.forall_mem_singleton]
            exact ⟨hbody, hline⟩
          cases hm : fenceMarker line with
          | none =>
              rw [stepBlank_of_none hm]
              refine ⟨fun h => ?_, hgrow fun marker h => ?_⟩
              · cases h
              · rw [hm] at h
                cases h
          | some marker =>
              rw [stepBlank_inside hm]
              by_cases hcloses : marker.closes fence = true
              · rw [if_pos hcloses]
                refine ⟨fun _ => ?_, fun fence h => ?_⟩
                · subst hfence
                  have hblock := Balanced.block hbefore hopening hplain hbody hm hcloses
                  simpa using hblock
                · cases h
              · rw [if_neg hcloses]
                refine ⟨fun h => ?_, hgrow fun marker' h => ?_⟩
                · cases h
                · rw [hm] at h
                  exact Option.some.inj h ▸ Bool.eq_false_iff.mpr hcloses

/-- **A scanner is in no block exactly after balanced lines.** -/
theorem foldl_stepBlank_eq_none (lines : List Str) : lines.foldl stepBlank none = none ↔ Balanced lines := by
  refine ⟨(foldl_stepBlank_cases lines).1, fun h => ?_⟩
  induction h with
  | nil => rfl
  | @text lines line _ htext ih =>
      rw [List.foldl_append, ih, List.foldl_cons, List.foldl_nil]
      cases hm : fenceMarker line with
      | none => exact stepBlank_of_none hm
      | some marker => rw [stepBlank_outside hm, htext marker hm]; rfl
  | block _ hopening hplain hbody hclosing hcloses ih =>
      rw [List.foldl_append, ih, List.cons_append, List.foldl_cons, stepBlank_outside hopening, hplain,
        List.foldl_append]
      simp only [Bool.false_eq_true, if_false]
      rw [foldl_stepBlank_body hbody, List.foldl_cons, List.foldl_nil, stepBlank_inside hclosing, hcloses]
      rfl

/-! ### Lines with and without their boundaries -/

theorem strip_eq_nil {s : Str} : strip s = [] ↔ ∀ c ∈ s, isPythonSpace c = true := by
  rw [strip, List.reverse_eq_nil_iff, List.dropWhile_eq_nil_iff]
  simp only [List.mem_reverse]
  rw [← List.dropWhile_eq_nil_iff, ← List.dropWhile_eq_nil_iff]
  rw [List.dropWhile_idempotent]

/-- What a scanner asks of a line. -/
def markerShape (line : Str) : Option (Nat × Nat × Bool × Bool) :=
  (fenceMarker line).map fun m => (m.character, m.length, m.bare, m.ambiguous)

theorem isPythonSpace_of_lineEnd {c : Nat} (h : isLineEnd c = true) : isPythonSpace c = true := by
  simp only [isLineEnd, isPythonSpace, Bool.or_eq_true, Bool.and_eq_true, decide_eq_true_eq, beq_iff_eq] at h ⊢
  omega

theorem withoutLineFeed_append {content : Str} {c : Nat} (h13 : c ≠ 13) (h10 : c ≠ 10) :
    withoutLineFeed (content ++ [c]) = content ++ [c] := by
  have hstop : (c == 13 || c == 10) = false := by
    simp only [Bool.or_eq_false_iff, beq_eq_false_iff_ne]
    exact ⟨h13, h10⟩
  rw [withoutLineFeed, List.reverse_append, List.reverse_singleton, List.singleton_append, List.dropWhile_cons,
    hstop]
  simp only [Bool.false_eq_true, if_false, List.reverse_cons, List.reverse_reverse]

theorem withoutLineFeed_content {content : Str} (h : ∀ d ∈ content, isLineEnd d = false) :
    withoutLineFeed content = content := by
  induction content using List.reverseRecOn with
  | nil => rfl
  | append_singleton content c _ =>
      have hc := h c (List.mem_append_right _ List.mem_cons_self)
      refine withoutLineFeed_append ?_ ?_
      · rintro rfl
        exact absurd hc (by decide)
      · rintro rfl
        exact absurd hc (by decide)

/-- A boundary that is no carriage return or line feed stays in the info string, where it is a space. -/
theorem markerShape_append {content : Str} {c : Nat} (hcontent : ∀ d ∈ content, isLineEnd d = false)
    (hc : isLineEnd c = true) (h13 : c ≠ 13) (h10 : c ≠ 10) : markerShape (content ++ [c]) = markerShape content := by
  have hfence : c ≠ 96 ∧ c ≠ 126 ∧ c ≠ 32 ∧ c ≠ 9 := by
    refine ⟨?_, ?_, ?_, ?_⟩ <;> (rintro rfl; exact absurd hc (by decide))
  obtain ⟨h96, h126, h32, h9⟩ := hfence
  have hblank : (c == 32 || c == 9) = false := by
    simp only [Bool.or_eq_false_iff, beq_eq_false_iff_ne]
    exact ⟨h32, h9⟩
  rw [markerShape, markerShape, fenceMarker, fenceMarker, withoutLineFeed_append h13 h10,
    withoutLineFeed_content hcontent, List.dropWhile_append]
  cases hrest : content.dropWhile fun c => c == 32 || c == 9 with
  | nil =>
      simp only [List.isEmpty_nil, if_true, List.dropWhile_cons, hblank, Bool.false_eq_true, if_false, h96, h126,
        or_self, Option.map_none]
  | cons x rest =>
      simp only [List.isEmpty_cons, Bool.false_eq_true, if_false, List.cons_append]
      by_cases hx : x = 96 ∨ x = 126
      swap
      · rw [if_neg hx, if_neg hx]
      have hne : (c == x) = false := by
        rw [beq_eq_false_iff_ne]
        rintro rfl
        rcases hx with hx | hx
        · exact h96 hx
        · exact h126 hx
      have hrun : (x :: (rest ++ [c])).takeWhile (· == x) = (x :: rest).takeWhile (· == x) := by
        rw [← List.cons_append, List.takeWhile_append]
        split
        · rename_i hall
          rw [List.takeWhile_cons, hne]
          simp only [Bool.false_eq_true, if_false, List.append_nil]
          exact (List.IsPrefix.eq_of_length (List.takeWhile_prefix _) hall).symm
        · rfl
      have hle : ((x :: rest).takeWhile (· == x)).length ≤ (x :: rest).length :=
        (List.takeWhile_prefix _).length_le
      rw [if_pos hx, if_pos hx, hrun]
      split
      · rfl
      · rw [← List.cons_append, List.drop_append_of_le_length hle]
        generalize (x :: rest).drop _ = info
        have hbare : ∀ n, (Marker.mk x n (info ++ [c])).bare = (Marker.mk x n info).bare := fun n => by
          rw [Bool.eq_iff_iff, Marker.bare, Marker.bare, beq_iff_eq, beq_iff_eq, strip_eq_nil, strip_eq_nil,
            List.forall_mem_append, List.forall_mem_singleton]
          exact and_iff_left (isPythonSpace_of_lineEnd hc)
        have hodd : ∀ n, (Marker.mk x n (info ++ [c])).ambiguous = (Marker.mk x n info).ambiguous := fun n => by
          have hlast : (96 == c) = false := beq_eq_false_iff_ne.mpr fun h => h96 h.symm
          simp only [Marker.ambiguous, List.contains_append, List.contains_cons, hlast, List.contains_nil,
            Bool.or_false]
        simp only [Option.map_some, hbare, hodd]

theorem markerShape_kept {markdown : Str} {line : Line} (h : line ∈ splitLines markdown) :
    markerShape line.kept = markerShape line.content := by
  obtain ⟨hcontent, hending⟩ := splitLines_line markdown line h
  have hfeed : ∀ s, (∀ d ∈ s, d = 13 ∨ d = 10) → withoutLineFeed (line.content ++ s) = withoutLineFeed line.content := by
    intro s hs
    rw [withoutLineFeed, withoutLineFeed, List.reverse_append, List.dropWhile_append_of_pos fun d hd => ?_]
    rcases hs d (List.mem_reverse.mp hd) with rfl | rfl <;> rfl
  have hsame : ∀ s, (∀ d ∈ s, d = 13 ∨ d = 10) → markerShape (line.content ++ s) = markerShape line.content := by
    intro s hs
    rw [markerShape, markerShape, fenceMarker, fenceMarker, hfeed s hs]
  rw [Line.kept]
  obtain hnone | hboth | ⟨c, hc, hone⟩ := hending
  · rw [hnone, List.append_nil]
  · exact hboth ▸ hsame _ (by decide)
  · rw [hone]
    by_cases h13 : c = 13
    · exact hsame _ (by simp [h13])
    by_cases h10 : c = 10
    · exact hsame _ (by simp [h10])
    exact markerShape_append hcontent hc h13 h10

/-- A step of either scanner depends on what it asks of the line. -/
theorem stepUnlabeled_congr {line line' : Str} (h : markerShape line = markerShape line') (fence : Option Fence) :
    stepUnlabeled fence line = stepUnlabeled fence line' := by
  rw [markerShape, markerShape] at h
  cases hm : fenceMarker line with
  | none =>
      rw [hm, Option.map_none, eq_comm, Option.map_eq_none_iff] at h
      cases fence <;> simp only [stepUnlabeled, hm, h]
  | some marker =>
      rw [hm, Option.map_some, eq_comm, Option.map_eq_some_iff] at h
      obtain ⟨marker', hm', hshape⟩ := h
      obtain ⟨hcharacter, hlength, hbare, -⟩ := by simpa only [Prod.mk.injEq] using hshape
      cases fence with
      | none => simp only [stepUnlabeled, hm, hm', hcharacter, hlength]
      | some fence =>
          have hcloses : marker'.closes fence = marker.closes fence := by
            rw [Marker.closes, Marker.closes, hcharacter, hlength, hbare]
          simp only [stepUnlabeled, hm, hm', hcloses]

/-- The second scanner sees the same lines with their boundaries as without. -/
theorem codeLines_kept {lines : List Line} (h : ∀ line ∈ lines, markerShape line.kept = markerShape line.content)
    (fence : Option Fence) :
    codeLines stepUnlabeled fence (lines.map Line.content) = codeLines stepUnlabeled fence (lines.map Line.kept) := by
  induction lines generalizing fence with
  | nil => rfl
  | cons line lines ih =>
      rw [List.forall_mem_cons] at h
      simp only [List.map_cons, codeLines, stepUnlabeled_congr h.1, ih h.2]

theorem bareFrom_kept {lines : List Line} (h : ∀ line ∈ lines, markerShape line.kept = markerShape line.content)
    {fence : Option Fence} {number k : Nat} :
    BareFrom fence number k (lines.map Line.content) ↔ BareFrom fence number k (lines.map Line.kept) := by
  induction lines generalizing fence number with
  | nil => rfl
  | cons line lines ih =>
      rw [List.forall_mem_cons] at h
      have hbare : ∀ s, (∃ marker, fenceMarker s = some marker ∧ marker.bare = true) ↔
          ∃ shape ∈ markerShape s, shape.2.2.1 = true := fun s => by
        simp only [markerShape, Option.mem_def, Option.map_eq_some_iff]
        constructor
        · rintro ⟨marker, hm, hb⟩
          exact ⟨_, ⟨marker, hm, rfl⟩, hb⟩
        · rintro ⟨_, ⟨marker, hm, rfl⟩, hb⟩
          exact ⟨marker, hm, hb⟩
      rw [List.map_cons, List.map_cons, bareFrom_cons, bareFrom_cons, ih h.2, stepUnlabeled_congr h.1, hbare, hbare, h.1]

/-! ### Agreement -/

/-- No ambiguous marker stands where all blocks before it are closed. -/
def Unambiguous (lines : List Str) : Prop := ∀ before line after, lines = before ++ line :: after → Balanced before →
  ∀ marker, fenceMarker line = some marker → marker.ambiguous = false

/-- An opening fence without an info string, on the line of this number. -/
def OpensBare (lines : List Str) (number : Nat) : Prop := ∃ before line after marker, lines = before ++ line :: after ∧
  number = 1 + before.length ∧ Balanced before ∧ fenceMarker line = some marker ∧ marker.ambiguous = false ∧
    marker.bare = true

/-- The two scanners see the same lines as code exactly when no ambiguous marker meets them outside a block. -/
theorem codeLines_eq_iff (fence : Option Fence) (lines : List Str) :
    codeLines stepBlank fence lines = codeLines stepUnlabeled fence lines ↔
      ∀ before line after, lines = before ++ line :: after → before.foldl stepBlank fence = none →
        ∀ marker, fenceMarker line = some marker → marker.ambiguous = false := by
  induction lines generalizing fence with
  | nil =>
      refine ⟨fun _ before line after h => ?_, fun _ => rfl⟩
      exact absurd h.symm (List.append_ne_nil_of_right_ne_nil before (List.cons_ne_nil line after))
  | cons first rest ih =>
      rw [codeLines, codeLines, List.cons.injEq]
      -- the flags of the first line are the same exactly when the steps are
      have hhead : ((fence.isSome || (stepBlank fence first).isSome) =
          (fence.isSome || (stepUnlabeled fence first).isSome)) ↔
            (fence = none → ∀ marker, fenceMarker first = some marker → marker.ambiguous = false) := by
        cases fence with
        | some fence => simp [step_inside]
        | none =>
            cases hm : fenceMarker first with
            | none => simp [stepBlank, stepUnlabeled, hm]
            | some marker => cases hodd : marker.ambiguous <;> simp [stepBlank, stepUnlabeled, hm, hodd]
      have hstep : (fence = none → ∀ marker, fenceMarker first = some marker → marker.ambiguous = false) →
          stepUnlabeled fence first = stepBlank fence first := by
        intro h
        cases fence with
        | some fence => exact (step_inside fence first).symm
        | none => exact (step_outside (h rfl)).symm
      rw [hhead]
      constructor
      · rintro ⟨hfirst, hrest⟩ before line after hlines hstate
        rw [hstep hfirst, ih] at hrest
        cases before with
        | nil =>
            obtain ⟨rfl, rfl⟩ := List.cons.inj hlines
            exact hfirst hstate
        | cons first' before =>
            obtain ⟨rfl, rfl⟩ := List.cons.inj hlines
            exact hrest before line after rfl hstate
      · intro h
        have hfirst : fence = none → ∀ marker, fenceMarker first = some marker → marker.ambiguous = false :=
          fun hnone => h [] first rest rfl hnone
        refine ⟨hfirst, ?_⟩
        rw [hstep hfirst, ih]
        exact fun before line after hlines hstate => h (first :: before) line after (by rw [hlines]; rfl) hstate

/-- Where the scanners agree they are in the same blocks. -/
theorem foldl_step_eq {lines before after : List Str} {line : Str} (h : Unambiguous lines)
    (hlines : lines = before ++ line :: after) : before.foldl stepUnlabeled none = before.foldl stepBlank none := by
  induction before using List.reverseRecOn generalizing line after with
  | nil => rfl
  | append_singleton before last ih =>
      have hsplit : lines = before ++ last :: line :: after := by simp [hlines]
      rw [List.foldl_append, List.foldl_append, ih hsplit, List.foldl_cons, List.foldl_cons, List.foldl_nil,
        List.foldl_nil]
      cases hstate : before.foldl stepBlank none with
      | some fence => exact (step_inside fence last).symm
      | none => exact (step_outside (h before last _ hsplit ((foldl_stepBlank_eq_none before).mp hstate))).symm

/-- The two scanners see the same lines as code, and the lines that are reported are the opening fences
without an info string. -/
structure ScannersAgree (markdown : Str) : Prop where
  code : codeLines stepBlank none ((splitLines markdown).map Line.kept) =
    codeLines stepUnlabeled none ((splitLines markdown).map Line.content)
  reported : ∀ number, number ∈ unlabeledOpeningFences markdown ↔
    OpensBare ((splitLines markdown).map Line.kept) number

/-- A bare marker is not ambiguous. -/
theorem Marker.bare_unambiguous {m : Marker} (h : m.bare = true) : m.ambiguous = false := by
  rw [Marker.bare, beq_iff_eq, strip_eq_nil] at h
  rw [Marker.ambiguous, Bool.and_eq_false_iff]
  refine .inr (Bool.eq_false_iff.mpr fun hmem => ?_)
  exact absurd (h 96 (List.contains_iff_mem.mp hmem)) (by decide)

/-- **The scanners agree exactly on unambiguous documents.** -/
theorem scanners_agree_iff (markdown : Str) :
    ScannersAgree markdown ↔ Unambiguous ((splitLines markdown).map Line.kept) := by
  have hshapes : ∀ line ∈ splitLines markdown, markerShape line.kept = markerShape line.content :=
    fun line hline => markerShape_kept hline
  have hcode := codeLines_kept hshapes none
  have hunambiguous : codeLines stepBlank none ((splitLines markdown).map Line.kept) =
      codeLines stepUnlabeled none ((splitLines markdown).map Line.content) ↔
        Unambiguous ((splitLines markdown).map Line.kept) := by
    rw [hcode, codeLines_eq_iff]
    simp only [Unambiguous, foldl_stepBlank_eq_none]
  refine ⟨fun h => hunambiguous.mp h.code, fun h => ⟨hunambiguous.mpr h, fun number => ?_⟩⟩
  rw [unlabeledOpeningFences, mem_unlabeledFences, bareFrom_kept hshapes]
  constructor
  · rintro ⟨before, line, after, marker, hlines, hnumber, hstate, hmarker, hbare⟩
    rw [foldl_step_eq h hlines, foldl_stepBlank_eq_none] at hstate
    exact ⟨before, line, after, marker, hlines, hnumber, hstate, hmarker, marker.bare_unambiguous hbare, hbare⟩
  · rintro ⟨before, line, after, marker, hlines, hnumber, hbalanced, hmarker, -, hbare⟩
    refine ⟨before, line, after, marker, hlines, hnumber, ?_, hmarker, hbare⟩
    rw [foldl_step_eq h hlines, foldl_stepBlank_eq_none]
    exact hbalanced

/-- A run of backticks with a backtick in its info string, and then a bare fence, which is not reported. -/
def ambiguousSample : Str := lit "``` a`\n```\n"

theorem ambiguousSample_disagrees : ¬ ScannersAgree ambiguousSample := by
  intro h
  have hlines : (splitLines ambiguousSample).map Line.kept = [lit "``` a`\n", lit "```\n"] := by decide
  have hfirst : fenceMarker (lit "``` a`\n") = some ⟨96, 3, lit " a`"⟩ := by decide
  have hopens : OpensBare ((splitLines ambiguousSample).map Line.kept) 2 := by
    rw [hlines]
    refine ⟨[lit "``` a`\n"], lit "```\n", [], ⟨96, 3, []⟩, rfl, rfl, .text .nil fun marker hm => ?_, by decide, by decide,
      by decide⟩
    rw [hfirst] at hm
    rw [← Option.some.inj hm]
    decide
  exact absurd ((h.reported 2).mpr hopens) (by decide)

end Docs
