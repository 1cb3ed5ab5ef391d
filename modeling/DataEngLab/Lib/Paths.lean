/-
Paths that end in a slash.

`pathText` writes a path segment by segment, each followed by a slash.  When no segment
holds a slash the text says where each segment ends, so splitting it gives the segments
back (`splitOn_pathText`), and one text is a prefix of another exactly when its segments
are the first ones of the other's (`starts_of_pathText`).

The second half takes a fixed-length expression apart the same way.
-/
import DataEngLab.Lib.Text

namespace Lib

/-- Each segment, followed by a slash. -/
def pathText (segs : List Str) : Str := segs.flatMap fun s => s ++ [47]

@[simp] theorem pathText_nil : pathText [] = [] := rfl

@[simp] theorem pathText_cons (s : Str) (segs : List Str) : pathText (s :: segs) = s ++ 47 :: pathText segs := by
  simp [pathText]

/-- No segment holds a slash. -/
def Segments (segs : List Str) : Prop := ∀ s ∈ segs, 47 ∉ s

section
variable {segs segs' : List Str} {s t : Str} {c : Nat}

theorem pathText_eq_intercalate (h : segs ≠ []) : pathText segs = [47].intercalate segs ++ [47] := by
  induction segs with
  | nil => exact absurd rfl h
  | cons s rest ih =>
      cases rest with
      | nil => simp
      | cons t rest =>
          rw [pathText_cons, ih (List.cons_ne_nil t rest), List.intercalate_cons_cons]
          simp

theorem splitOn_pathText (hne : segs ≠ []) (h : Segments segs) : (pathText segs).dropLast.splitOn 47 = segs := by
  rw [pathText_eq_intercalate hne, List.dropLast_concat]
  exact List.splitOn_intercalate 47 h hne

/-- The characters before the first slash are the same, and so is the rest. -/
theorem append_slash_inj (hs : 47 ∉ s) (ht : 47 ∉ t) {u v w : Str} (h : s ++ 47 :: u ++ v = t ++ 47 :: w) :
    s = t ∧ u ++ v = w := by
  induction s generalizing t with
  | nil =>
      cases t with
      | nil => simpa using h
      | cons d t => simp [← (List.cons.inj h).1] at ht
  | cons a s ih =>
      cases t with
      | nil => simp [(List.cons.inj h).1] at hs
      | cons d t =>
          obtain ⟨rfl, htail⟩ := List.cons.inj h
          obtain ⟨rfl, hrest⟩ := ih (fun hc => hs (List.mem_cons_of_mem _ hc))
            (fun hc => ht (List.mem_cons_of_mem _ hc)) htail
          exact ⟨rfl, hrest⟩

/-- **A path is under another exactly when its segments say so.** -/
theorem starts_of_pathText (h : Segments segs) (h' : Segments segs') :
    pathText segs <+: pathText segs' ↔ segs <+: segs' := by
  constructor
  · induction segs generalizing segs' with
    | nil => exact fun _ => List.nil_prefix
    | cons s rest ih =>
        rintro ⟨v, hv⟩
        cases segs' with
        | nil => simp at hv
        | cons t rest' =>
            rw [pathText_cons, pathText_cons] at hv
            obtain ⟨rfl, hrest⟩ := append_slash_inj (h s List.mem_cons_self) (h' t List.mem_cons_self) hv
            have hunder := ih (fun x hx => h x (List.mem_cons_of_mem _ hx))
              (fun x hx => h' x (List.mem_cons_of_mem _ hx)) ⟨v, hrest⟩
            exact List.cons_prefix_cons.mpr ⟨rfl, hunder⟩
  · rintro ⟨more, rfl⟩
    exact ⟨pathText more, by simp [pathText]⟩

theorem mem_pathText (h : c ∈ pathText segs) : c = 47 ∨ ∃ s ∈ segs, c ∈ s := by
  obtain ⟨s, hs, hc⟩ := List.mem_flatMap.mp h
  rcases List.mem_append.mp hc with hc | hc
  · exact .inr ⟨s, hs, hc⟩
  · exact .inl (List.mem_singleton.mp hc)

end

/-! ### Expressions taken apart -/

section
variable {p q : Pattern} {s t : Str}

theorem fullmatch_append_iff : (p ++ q).fullmatch s = true ↔
    ∃ u v, s = u ++ v ∧ p.fullmatch u = true ∧ q.fullmatch v = true := by
  constructor
  · intro h
    have hlen : s.length = p.length + q.length := (Pattern.fullmatch_length h).trans List.length_append
    have hu : (s.take p.length).length = p.length := by rw [List.length_take]; omega
    have hsplit := Pattern.fullmatch_append (q := q) (t := s.drop p.length) hu
    rw [List.take_append_drop, h] at hsplit
    obtain ⟨hp, hq⟩ := Bool.and_eq_true_iff.mp hsplit.symm
    exact ⟨_, _, (List.take_append_drop _ _).symm, hp, hq⟩
  · rintro ⟨u, v, rfl, hp, hq⟩
    rw [Pattern.fullmatch_append (Pattern.fullmatch_length hp), hp, hq]
    rfl

theorem fullmatch_text_iff : (Pattern.text t).fullmatch s = true ↔ s = t := by
  induction t generalizing s with
  | nil => cases s <;> simp [Pattern.text, Pattern.fullmatch]
  | cons c t ih =>
      cases s with
      | nil => simp [Pattern.text, Pattern.fullmatch]
      | cons a s =>
          show ((a == c) && (Pattern.text t).fullmatch s) = true ↔ _
          rw [Bool.and_eq_true, beq_iff_eq, ih, List.cons.injEq]

end

end Lib
