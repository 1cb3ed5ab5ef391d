/-
Texts cut at line ends.

`pieces` is what lies between the ends, and `records` are the pieces without the spaces around
them, blank ones left out.  The ends are spaces themselves, so two readers that do not agree on
the line ends find the same records as long as no end of one stands inside a record of the
other: `records_of_lines` says so, and `records_more` that otherwise the second finds more.
-/
import Mathlib.Data.List.DropRight
import Mathlib.Data.List.TakeWhile

namespace Lib

section
variable {α : Type} (isEnd isSpace : α → Bool)

/-- The pieces of a text, `piece` being what precedes it in the first one, backwards. -/
def pieces (piece : List α) : List α → List (List α)
  | [] => [piece.reverse]
  | c :: text => if isEnd c then piece.reverse :: pieces [] text else pieces (c :: piece) text

/-- The text without the spaces around it. -/
def trimmed (text : List α) : List α := (text.dropWhile isSpace).rdropWhile isSpace

/-- What is left of some pieces. -/
def recordsOf (ps : List (List α)) : List (List α) := (ps.map (trimmed isSpace)).filter (!·.isEmpty)

/-- The records of a text. -/
def records (text : List α) : List (List α) := recordsOf isSpace (pieces isEnd [] text)

end

variable {α : Type} {isEnd isSpace : α → Bool}

/-! ### Trimming -/

theorem trimmed_cons {c : α} (hc : isSpace c = true) (text : List α) :
    trimmed isSpace (c :: text) = trimmed isSpace text := by
  rw [trimmed, List.dropWhile_cons_of_pos hc, trimmed]

theorem trimmed_concat {c : α} (hc : isSpace c = true) (text : List α) :
    trimmed isSpace (text ++ [c]) = trimmed isSpace text := by
  rw [trimmed, trimmed, List.dropWhile_append]
  split_ifs with h
  · rw [List.isEmpty_iff] at h
    rw [h, List.dropWhile_cons_of_pos hc, List.dropWhile_nil]
  · exact List.rdropWhile_concat_pos isSpace _ c hc

theorem trimmed_eq_nil_iff {text : List α} : trimmed isSpace text = [] ↔ ∀ c ∈ text, isSpace c = true := by
  rw [trimmed, List.rdropWhile_eq_nil_iff]
  refine ⟨fun h => ?_, fun h c hc => h c ((List.dropWhile_suffix isSpace).subset hc)⟩
  rw [← List.dropWhile_eq_nil_iff]
  by_contra hne
  have hhead := List.head_dropWhile_not isSpace hne
  rw [h _ (List.head_mem hne)] at hhead
  cases hhead

/-- A text is spaces, what is left of it, and spaces. -/
theorem trimmed_split (isSpace : α → Bool) (text : List α) : ∃ before after, text = before ++ trimmed isSpace text ++ after ∧
    (∀ c ∈ before, isSpace c = true) ∧ ∀ c ∈ after, isSpace c = true := by
  refine ⟨text.takeWhile isSpace, (text.dropWhile isSpace).rtakeWhile isSpace, ?_,
    fun c hc => List.mem_takeWhile_imp hc, fun c hc => List.mem_rtakeWhile_imp hc⟩
  rw [List.append_assoc, trimmed, List.rdropWhile_append_rtakeWhile, List.takeWhile_append_dropWhile]

/-- What is left of a text does not begin with a space. -/
theorem trimmed_head {text rest : List α} {c : α} (h : trimmed isSpace text = c :: rest) : isSpace c = false := by
  obtain ⟨tail, htail⟩ := List.rdropWhile_prefix isSpace (text.dropWhile isSpace)
  rw [trimmed] at h
  rw [h, List.cons_append] at htail
  have hhead := List.head_dropWhile_not isSpace (l := text) (by rw [← htail]; exact List.cons_ne_nil _ _)
  simpa only [← htail, List.head_cons] using hhead

/-- What is left of a text does not end with a space. -/
theorem trimmed_last {text : List α} (h : trimmed isSpace text ≠ []) :
    isSpace ((trimmed isSpace text).getLast h) = false := by
  have hlast := List.rdropWhile_last_not isSpace (text.dropWhile isSpace) h
  rwa [Bool.not_eq_true] at hlast

/-! ### Pieces -/

theorem pieces_append_end {e : α} (he : isEnd e = true) (front rest : List α) : ∀ piece : List α,
    pieces isEnd piece (front ++ e :: rest) = pieces isEnd piece front ++ pieces isEnd [] rest := by
  induction front with
  | nil =>
      intro piece
      rw [List.nil_append, pieces.eq_def, pieces]
      exact if_pos he
  | cons c front ih =>
      intro piece
      rw [List.cons_append, pieces, pieces]
      split_ifs
      · rw [ih, List.cons_append]
      · exact ih _

theorem pieces_of_none {text : List α} (h : ∀ c ∈ text, isEnd c = false) : ∀ piece : List α,
    pieces isEnd piece text = [piece.reverse ++ text] := by
  induction text with
  | nil => intro piece; rw [pieces, List.append_nil]
  | cons c text ih =>
      intro piece
      rw [pieces, h c List.mem_cons_self, if_neg Bool.false_ne_true, ih fun d hd => h d (List.mem_cons_of_mem _ hd),
        List.reverse_cons, List.append_assoc, List.singleton_append]

/-- What is not an end is in some piece. -/
theorem mem_pieces {c : α} (hc : isEnd c = false) {text : List α} : ∀ piece : List α, c ∈ piece ∨ c ∈ text →
    ∃ p ∈ pieces isEnd piece text, c ∈ p := by
  induction text with
  | nil =>
      intro piece h
      rw [pieces]
      exact ⟨_, List.mem_singleton_self _, List.mem_reverse.mpr (h.resolve_right List.not_mem_nil)⟩
  | cons d text ih =>
      intro piece h
      rw [pieces]
      split_ifs with hd
      · rcases h with h | h
        · exact ⟨_, List.mem_cons_self, List.mem_reverse.mpr h⟩
        · have hne : c ≠ d := by rintro rfl; rw [hc] at hd; cases hd
          obtain ⟨p, hp, hcp⟩ := ih [] (.inr ((List.mem_cons.mp h).resolve_left hne))
          exact ⟨p, List.mem_cons_of_mem _ hp, hcp⟩
      · refine ih _ ?_
        rcases h with h | h
        · exact .inl (List.mem_cons_of_mem _ h)
        · exact (List.mem_cons.mp h).imp (fun heq => by rw [heq]; exact List.mem_cons_self) id

/-! ### Records -/

theorem recordsOf_append (ps qs : List (List α)) :
    recordsOf isSpace (ps ++ qs) = recordsOf isSpace ps ++ recordsOf isSpace qs := by
  rw [recordsOf, List.map_append, List.filter_append, recordsOf, recordsOf]

theorem recordsOf_cons_congr {p q : List α} {ps qs : List (List α)} (h : trimmed isSpace p = trimmed isSpace q)
    (hs : recordsOf isSpace ps = recordsOf isSpace qs) : recordsOf isSpace (p :: ps) = recordsOf isSpace (q :: qs) := by
  rw [recordsOf, recordsOf] at hs
  rw [recordsOf, recordsOf, List.map_cons, List.map_cons, List.filter_cons, List.filter_cons, hs, h]

theorem recordsOf_blank {p : List α} (h : ∀ c ∈ p, isSpace c = true) (ps : List (List α)) :
    recordsOf isSpace (p :: ps) = recordsOf isSpace ps := by
  rw [recordsOf, List.map_cons, trimmed_eq_nil_iff.mpr h]
  rfl

theorem records_append_end {e : α} (he : isEnd e = true) (front rest : List α) :
    records isEnd isSpace (front ++ e :: rest) = records isEnd isSpace front ++ records isEnd isSpace rest := by
  rw [records, pieces_append_end he, recordsOf_append, records, records]

/-- A space before the first piece does not count. -/
theorem recordsOf_pieces_space {c : α} (hc : isSpace c = true) {text : List α} : ∀ piece : List α,
    recordsOf isSpace (pieces isEnd (piece ++ [c]) text) = recordsOf isSpace (pieces isEnd piece text) := by
  induction text with
  | nil =>
      intro piece
      rw [pieces, pieces, List.reverse_append, List.reverse_singleton, List.singleton_append]
      exact recordsOf_cons_congr (trimmed_cons hc _) rfl
  | cons d text ih =>
      intro piece
      rw [pieces, pieces]
      split_ifs
      · rw [List.reverse_append, List.reverse_singleton, List.singleton_append]
        exact recordsOf_cons_congr (trimmed_cons hc _) rfl
      · rw [← List.cons_append, ih]

theorem records_cons {c : α} (hc : isSpace c = true) (text : List α) :
    records isEnd isSpace (c :: text) = records isEnd isSpace text := by
  rw [records, records, pieces]
  split_ifs
  · exact recordsOf_blank (p := []) (fun d hd => absurd hd List.not_mem_nil) _
  · exact recordsOf_pieces_space hc []

theorem records_concat {c : α} (hc : isSpace c = true) (text : List α) :
    records isEnd isSpace (text ++ [c]) = records isEnd isSpace text := by
  cases he : isEnd c with
  | true =>
      rw [records_append_end he]
      exact List.append_nil _
  | false =>
      have hrun : ∀ piece : List α, recordsOf isSpace (pieces isEnd piece (text ++ [c])) =
          recordsOf isSpace (pieces isEnd piece text) := by
        induction text with
        | nil =>
            intro piece
            rw [List.nil_append, pieces.eq_2, he, if_neg Bool.false_ne_true, pieces.eq_1, pieces.eq_1, List.reverse_cons]
            exact recordsOf_cons_congr (trimmed_concat hc _) rfl
        | cons d text ih =>
            intro piece
            rw [List.cons_append, pieces, pieces]
            split_ifs
            · exact recordsOf_cons_congr rfl (ih [])
            · exact ih _
      exact hrun []

/-- The records of a text are those of what is left of it. -/
theorem records_trimmed (text : List α) :
    records isEnd isSpace text = records isEnd isSpace (trimmed isSpace text) := by
  obtain ⟨before, after, hsplit, hbefore, hafter⟩ := trimmed_split isSpace text
  generalize trimmed isSpace text = core at hsplit ⊢
  subst hsplit
  have hfront : ∀ tail, records isEnd isSpace (before ++ tail) = records isEnd isSpace tail := by
    intro tail
    induction before with
    | nil => rfl
    | cons c before ih =>
        rw [List.cons_append, records_cons (hbefore c List.mem_cons_self),
          ih fun d hd => hbefore d (List.mem_cons_of_mem _ hd)]
  rw [List.append_assoc, hfront]
  induction after using List.reverseRecOn with
  | nil => rw [List.append_nil]
  | append_singleton after c ih =>
      rw [← List.append_assoc, records_concat (hafter c (by simp)),
        ih fun d hd => hafter d (List.mem_append_left _ hd)]

/-- A text without an end inside is one record. -/
theorem records_single {text : List α} (hne : trimmed isSpace text ≠ [])
    (h : ∀ c ∈ trimmed isSpace text, isEnd c = false) : records isEnd isSpace text = [trimmed isSpace text] := by
  have htwice : trimmed isSpace (trimmed isSpace text) = trimmed isSpace text := by
    cases ht : trimmed isSpace text with
    | nil => exact absurd ht hne
    | cons c rest =>
        rw [trimmed, List.dropWhile_cons_of_neg (by simp [trimmed_head ht]), ← ht]
        exact List.rdropWhile_idempotent isSpace (text.dropWhile isSpace)
  rw [records_trimmed, records, pieces_of_none h, List.reverse_nil, List.nil_append, recordsOf, List.map_singleton,
    htwice, List.filter_singleton, (List.isEmpty_eq_false_iff.mpr hne), Bool.not_false, cond_true]

section
variable (hends : ∀ c, isEnd c = true → isSpace c = true)
include hends

theorem records_ne_nil {text : List α} {c : α} (hmem : c ∈ text) (hc : isSpace c = false) :
    records isEnd isSpace text ≠ [] := by
  have hend : isEnd c = false := by
    by_contra h
    rw [hends c (by simpa using h)] at hc
    cases hc
  obtain ⟨p, hp, hcp⟩ := mem_pieces hend [] (.inr hmem)
  refine List.ne_nil_of_mem (a := trimmed isSpace p) (List.mem_filter.mpr ⟨List.mem_map.mpr ⟨p, hp, rfl⟩, ?_⟩)
  rw [Bool.not_eq_true', List.isEmpty_eq_false_iff]
  intro h
  rw [trimmed_eq_nil_iff.mp h c hcp] at hc
  cases hc

/-- A text with an end inside is more than one. -/
theorem records_double {text : List α} {e : α} (hmem : e ∈ trimmed isSpace text) (he : isEnd e = true) :
    2 ≤ (records isEnd isSpace text).length := by
  obtain ⟨front, rest, hsplit⟩ := List.append_of_mem hmem
  have hne : trimmed isSpace text ≠ [] := List.ne_nil_of_mem hmem
  have hfront : records isEnd isSpace front ≠ [] := by
    cases front with
    | nil =>
        have hhead := trimmed_head hsplit
        rw [hends e he] at hhead
        cases hhead
    | cons c front => exact records_ne_nil hends List.mem_cons_self (trimmed_head hsplit)
  have hrest : records isEnd isSpace rest ≠ [] := by
    have hlast := trimmed_last hne
    simp only [hsplit] at hlast
    cases rest using List.reverseRecOn with
    | nil =>
        rw [List.getLast_append_singleton, hends e he] at hlast
        cases hlast
    | append_singleton rest c =>
        refine records_ne_nil hends (List.mem_append_right _ (List.mem_singleton_self c)) ?_
        rwa [List.getLast_append_of_ne_nil _ (List.cons_ne_nil _ _), List.getLast_cons (by simp),
          List.getLast_append_singleton] at hlast
  rw [records_trimmed, hsplit, records_append_end he, List.length_append]
  exact Nat.add_le_add (List.length_pos_iff.mpr hfront) (List.length_pos_iff.mpr hrest)

end

/-! ### Lines -/

variable {sep : α} {lines : List (List α)}

theorem records_flatMap (hsep : isEnd sep = true) :
    records isEnd isSpace (lines.flatMap (· ++ [sep])) = lines.flatMap (records isEnd isSpace) := by
  induction lines with
  | nil => rfl
  | cons line lines ih =>
      rw [List.flatMap_cons, List.flatMap_cons, List.append_assoc, List.singleton_append, records_append_end hsep, ih]

/-- **Lines without an end inside are the records of their text.** -/
theorem records_of_lines (hsep : isEnd sep = true)
    (hne : ∀ line ∈ lines, trimmed isSpace line ≠ [])
    (h : ∀ line ∈ lines, ∀ c ∈ trimmed isSpace line, isEnd c = false) :
    records isEnd isSpace (lines.flatMap (· ++ [sep])) = lines.map (trimmed isSpace) := by
  rw [records_flatMap hsep, List.map_eq_flatMap]
  exact List.flatMap_congr fun line hline => records_single (hne line hline) (h line hline)

/-- **Any other lines have more records.** -/
theorem records_more (hends : ∀ c, isEnd c = true → isSpace c = true) (hsep : isEnd sep = true)
    (hne : ∀ line ∈ lines, trimmed isSpace line ≠ []) {line : List α} (hline : line ∈ lines) {e : α}
    (hmem : e ∈ trimmed isSpace line) (he : isEnd e = true) :
    lines.length < (records isEnd isSpace (lines.flatMap (· ++ [sep]))).length := by
  have hpos : ∀ l ∈ lines, 1 ≤ (records isEnd isSpace l).length := by
    intro l hl
    obtain ⟨c, hc, hspace⟩ : ∃ c ∈ l, isSpace c = false := by
      by_contra hnone
      refine hne l hl (trimmed_eq_nil_iff.mpr fun c hc => ?_)
      by_contra hspace
      exact hnone ⟨c, hc, by simpa using hspace⟩
    exact List.length_pos_iff.mpr (records_ne_nil hends hc hspace)
  rw [records_flatMap hsep, List.length_flatMap]
  have hdouble := records_double hends hmem he
  clear hmem hne
  induction lines with
  | nil => cases hline
  | cons l lines ih =>
      rw [List.map_cons, List.sum_cons, List.length_cons]
      have hl := hpos l List.mem_cons_self
      have hrest : lines.length ≤ (lines.map fun l => (records isEnd isSpace l).length).sum := by
        have hall : ∀ l ∈ lines, 1 ≤ (records isEnd isSpace l).length := fun l hl => hpos l (List.mem_cons_of_mem _ hl)
        clear ih hpos hline
        induction lines with
        | nil => exact Nat.zero_le _
        | cons l lines ih =>
            rw [List.map_cons, List.sum_cons, List.length_cons]
            have h₁ := hall l List.mem_cons_self
            have h₂ := ih fun l hl => hall l (List.mem_cons_of_mem _ hl)
            omega
      rcases List.mem_cons.mp hline with rfl | hline
      · omega
      · have hmore := ih hline fun l hl => hpos l (List.mem_cons_of_mem _ hl)
        omega

end Lib
