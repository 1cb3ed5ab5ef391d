/-
What an edit of a text leaves alone.

An edited text is a list of pieces: some are kept, each of the others stands for another.
`IsEdit` says that one text comes from another so, every replacement being allowed; it is the
frame of a function that rewrites parts of a text.  Replacements of disjoint spans, made from
the last to the first, are such an edit (`isEdit_splice`).
-/
import DataEngLab.Lib.Text

namespace Lib

/-- A piece of a text, as it was and as it is. -/
inductive Edit where
  | keep (text : Str)
  | swap (old new : Str)

def Edit.old : Edit → Str
  | .keep text => text
  | .swap old _ => old

def Edit.new : Edit → Str
  | .keep text => text
  | .swap _ new => new

/-- One text is the other with allowed replacements. -/
def IsEdit (allowed : Str → Str → Prop) (s t : Str) : Prop :=
  ∃ edits : List Edit, s = edits.flatMap Edit.old ∧ t = edits.flatMap Edit.new ∧
    ∀ old new, .swap old new ∈ edits → allowed old new

section
variable {allowed : Str → Str → Prop} {s t u old new : Str}

theorem IsEdit.nil : IsEdit allowed [] [] := ⟨[], rfl, rfl, fun _ _ h => by cases h⟩

theorem IsEdit.keep (u : Str) (h : IsEdit allowed s t) : IsEdit allowed (u ++ s) (u ++ t) := by
  obtain ⟨edits, rfl, rfl, hall⟩ := h
  refine ⟨.keep u :: edits, rfl, rfl, fun old new hmem => ?_⟩
  rcases List.mem_cons.mp hmem with hmem | hmem
  · cases hmem
  · exact hall old new hmem

theorem IsEdit.mono {allowed' : Str → Str → Prop} (h : IsEdit allowed s t)
    (himp : ∀ old new, allowed old new → allowed' old new) : IsEdit allowed' s t := by
  obtain ⟨edits, hs, ht, hall⟩ := h
  exact ⟨edits, hs, ht, fun old new hmem => himp old new (hall old new hmem)⟩

theorem IsEdit.refl (s : Str) : IsEdit allowed s s := by
  have hnil : IsEdit allowed [] [] := IsEdit.nil
  simpa using hnil.keep s

theorem IsEdit.swap (hnew : allowed old new) (h : IsEdit allowed s t) : IsEdit allowed (old ++ s) (new ++ t) := by
  obtain ⟨edits, rfl, rfl, hall⟩ := h
  refine ⟨.swap old new :: edits, rfl, rfl, fun old' new' hmem => ?_⟩
  rcases List.mem_cons.mp hmem with hmem | hmem
  · cases hmem
    exact hnew
  · exact hall old' new' hmem

end

/-! ### Splices -/

/-- `text[start:end]` -/
def slice (s : Str) (span : Nat × Nat) : Str := (s.take span.2).drop span.1

/-- `text[:start] + new + text[end:]` -/
def splice (s : Str) (span : Nat × Nat) (new : Str) : Str := s.take span.1 ++ new ++ s.drop span.2

/-- The spans follow one another between two positions. -/
def Ordered : Nat → List (Nat × Nat) → Nat → Prop
  | pos, [], stop => pos ≤ stop
  | pos, span :: spans, stop => pos ≤ span.1 ∧ span.1 ≤ span.2 ∧ Ordered span.2 spans stop

section
variable {pos stop : Nat} {spans spans' : List (Nat × Nat)} {s t : Str}

theorem Ordered.le : ∀ {pos : Nat} {spans : List (Nat × Nat)}, Ordered pos spans stop → pos ≤ stop
  | _, [], h => h
  | _, _ :: _, h => h.1.trans (h.2.1.trans h.2.2.le)

theorem Ordered.mono {pos' : Nat} (hle : pos' ≤ pos) (h : Ordered pos spans stop) : Ordered pos' spans stop := by
  cases spans with
  | nil => exact hle.trans h
  | cons span spans => exact ⟨hle.trans h.1, h.2⟩

theorem Ordered.append {mid : Nat} : ∀ {pos : Nat} {spans : List (Nat × Nat)}, Ordered pos spans mid →
    Ordered mid spans' stop → Ordered pos (spans ++ spans') stop
  | _, [], h, h' => h'.mono h
  | _, _ :: _, h, h' => ⟨h.1, h.2.1, h.2.2.append h'⟩

theorem drop_split {a b : Nat} (h : a ≤ b) : s.drop a = (s.take b).drop a ++ s.drop b := by
  have hdrop : s.drop b = (s.drop a).drop (b - a) := by rw [List.drop_drop, Nat.add_sub_cancel' h]
  rw [List.drop_take, hdrop, List.take_append_drop]

/-- What is replaced in a text, from the last span to the first, is an edit of it: nothing before the first
span changes, and what follows a span is as the replacements after it left it. -/
theorem isEdit_splice {allowed : Str → Str → Prop} {span : Nat × Nat} {new : Str} (hpos : pos ≤ span.1)
    (hspan : span.1 ≤ span.2) (hlen : span.2 ≤ s.length) (hnew : allowed (slice s span) new) {u : Str}
    (hu : IsEdit allowed (s.drop span.2) u) :
    ∃ v, splice (s.take span.2 ++ u) span new = s.take pos ++ v ∧ IsEdit allowed (s.drop pos) v := by
  have htake : (s.take span.2 ++ u).take span.1 = s.take span.1 := by
    rw [List.take_append_of_le_length (by rw [List.length_take]; omega), List.take_take, Nat.min_eq_left hspan]
  have hdrop : (s.take span.2 ++ u).drop span.2 = u := by
    rw [List.drop_append_of_le_length (by rw [List.length_take]; omega)]
    simp
  refine ⟨(s.take span.1).drop pos ++ (new ++ u), ?_, ?_⟩
  · rw [splice, htake, hdrop, ← List.append_assoc (s.take pos)]
    have hsplit : s.take pos ++ (s.take span.1).drop pos = s.take span.1 := by
      conv_rhs => rw [← List.take_append_drop pos (s.take span.1), List.take_take, Nat.min_eq_left hpos]
    rw [hsplit, List.append_assoc]
  · rw [drop_split hpos, drop_split hspan]
    exact (hu.swap hnew).keep _

end

end Lib
