/-
`str.splitlines`.

A text is cut after every line boundary; a carriage return and a line feed after it are one
boundary.  A line keeps its boundary beside its content, so one definition serves both
`splitlines()`, which drops the boundaries, and `splitlines(keepends=True)`.
-/
import DataEngLab.Lib.Text

namespace Lib

/-- The line boundaries of one character. -/
def isLineEnd (c : Nat) : Bool :=
  (10 ≤ c && c ≤ 13) || (28 ≤ c && c ≤ 30) || c == 0x85 || c == 0x2028 || c == 0x2029

structure Line where
  content : Str
  ending : Str
deriving DecidableEq

/-- The line with its boundary. -/
def Line.kept (l : Line) : Str := l.content ++ l.ending

def splitLines : Str → List Line
  | [] => []
  | 13 :: 10 :: rest => ⟨[], [13, 10]⟩ :: splitLines rest
  | c :: rest =>
      if isLineEnd c then ⟨[], [c]⟩ :: splitLines rest
      else match splitLines rest with
        | [] => [⟨[c], []⟩]
        | line :: lines => ⟨c :: line.content, line.ending⟩ :: lines

/-- The lines are the text. -/
theorem flatten_splitLines (s : Str) : ((splitLines s).map Line.kept).flatten = s := by
  induction s using splitLines.induct with
  | case1 => rfl
  | case2 rest ih => rw [splitLines, List.map_cons, List.flatten_cons, ih]; rfl
  | case3 c rest hne hend ih =>
      rw [splitLines]
      · rw [if_pos hend, List.map_cons, List.flatten_cons, ih]
        rfl
      · exact hne
  | case4 c rest hne hend hnone ih =>
      rw [splitLines]
      · rw [hnone] at ih ⊢
        rw [if_neg hend, ← ih]
        rfl
      · exact hne
  | case5 c rest hne hend line lines hsome ih =>
      rw [splitLines]
      · rw [hsome] at ih ⊢
        rw [if_neg hend, ← ih]
        rfl
      · exact hne

/-- A boundary ends a line, and nothing in the line before it is one. -/
theorem splitLines_line (s : Str) : ∀ line ∈ splitLines s,
    (∀ c ∈ line.content, isLineEnd c = false) ∧ (line.ending = [] ∨ line.ending = [13, 10] ∨
      ∃ c, isLineEnd c = true ∧ line.ending = [c]) := by
  induction s using splitLines.induct with
  | case1 => simp [splitLines]
  | case2 rest ih =>
      rw [splitLines, List.forall_mem_cons]
      exact ⟨⟨fun c hc => absurd hc List.not_mem_nil, .inr (.inl rfl)⟩, ih⟩
  | case3 c rest hne hend ih =>
      rw [splitLines]
      · rw [if_pos hend, List.forall_mem_cons]
        exact ⟨⟨fun d hd => absurd hd List.not_mem_nil, .inr (.inr ⟨c, hend, rfl⟩)⟩, ih⟩
      · exact hne
  | case4 c rest hne hend hnone ih =>
      rw [splitLines]
      · rw [if_neg hend, hnone]
        simp only [List.mem_singleton, forall_eq, Bool.not_eq_true] at hend ⊢
        exact ⟨hend, .inl trivial⟩
      · exact hne
  | case5 c rest hne hend line lines hsome ih =>
      rw [hsome, List.forall_mem_cons] at ih
      rw [splitLines]
      · rw [if_neg hend, hsome, List.forall_mem_cons]
        refine ⟨⟨?_, ih.1.2⟩, ih.2⟩
        rw [List.forall_mem_cons]
        exact ⟨Bool.eq_false_iff.mpr hend, ih.1.1⟩
      · exact hne

end Lib
