/-
Joins and groups of rows.

A join keeps the pairs whose condition is true, an anti join the rows without such a pair;
a condition on `NULL` is unknown and keeps nothing.  Joining on a key that no two rows
share neither multiplies nor, when every row has its partner, loses the rows of the other
side (`length_inner`), and the groups of what is joined are the partners of each row
(`filter_inner`).
-/
import DataEngLab.Lib.Sql
import Mathlib.Algebra.BigOperators.Group.List.Lemmas
import Mathlib.Data.List.Perm.Subperm

namespace Lib.Joins

variable {ρ σ κ : Type}

/-- `rows.join(others, condition)` -/
def inner (condition : ρ → σ → Truth) (rows : List ρ) (others : List σ) : List (ρ × σ) :=
  rows.flatMap fun r => (others.filter fun s => (condition r s).holds).map fun s => (r, s)

/-- `rows.join(others, condition, "left_anti")` -/
def leftAnti (condition : ρ → σ → Truth) (rows : List ρ) (others : List σ) : List ρ :=
  rows.filter fun r => !others.any fun s => (condition r s).holds

variable {condition : ρ → σ → Truth} {rows : List ρ} {others : List σ}

theorem mem_inner {r : ρ} {s : σ} :
    (r, s) ∈ inner condition rows others ↔ r ∈ rows ∧ s ∈ others ∧ condition r s = some true := by
  simp [inner, Truth.holds_iff]

theorem leftAnti_eq_nil : leftAnti condition rows others = [] ↔
    ∀ r ∈ rows, ∃ s ∈ others, condition r s = some true := by
  simp [leftAnti, List.filter_eq_nil_iff, Truth.holds_iff]

/-- The pairs of one row, when no row is there twice. -/
theorem filter_inner [DecidableEq ρ] (hnodup : rows.Nodup) {r : ρ} (hr : r ∈ rows) :
    (inner condition rows others).filter (fun x => x.1 == r) =
      (others.filter fun s => (condition r s).holds).map fun s => (r, s) := by
  have hpairs : ∀ x : ρ, ((others.filter fun s => (condition x s).holds).map fun s => (x, s)).filter
      (fun y => y.1 == r) = if x = r then (others.filter fun s => (condition x s).holds).map fun s => (x, s) else [] := by
    intro x
    split
    · rename_i hx
      exact List.filter_eq_self.mpr fun y hy => by
        obtain ⟨s, -, rfl⟩ := List.mem_map.mp hy
        simpa using hx
    · rename_i hx
      refine List.filter_eq_nil_iff.mpr fun y hy => ?_
      obtain ⟨s, -, rfl⟩ := List.mem_map.mp hy
      simpa using hx
  induction rows with
  | nil => cases hr
  | cons x rest ih =>
      rw [List.nodup_cons] at hnodup
      have hcons : inner condition (x :: rest) others =
          ((others.filter fun s => (condition x s).holds).map fun s => (x, s)) ++ inner condition rest others := rfl
      rw [hcons, List.filter_append, hpairs]
      rcases List.mem_cons.mp hr with rfl | hmem
      · have hnone : (inner condition rest others).filter (fun y => y.1 == r) = [] := by
          refine List.filter_eq_nil_iff.mpr fun y hy heq => ?_
          have hrest := (mem_inner (r := y.1) (s := y.2)).mp hy
          exact hnodup.1 (beq_iff_eq.mp heq ▸ hrest.1)
        rw [if_pos rfl, hnone, List.append_nil]
      · have hne : x ≠ r := fun heq => hnodup.1 (heq ▸ hmem)
        rw [if_neg hne, List.nil_append]
        exact ih hnodup.2 hmem

/-- Counting the pairs from the other side. -/
theorem length_inner_eq (condition : ρ → σ → Truth) (rows : List ρ) (others : List σ) :
    (inner condition rows others).length =
      (others.map fun s => rows.countP fun r => (condition r s).holds).sum := by
  induction rows with
  | nil => simp [inner]
  | cons r rest ih =>
      have hcons : inner condition (r :: rest) others =
          ((others.filter fun s => (condition r s).holds).map fun s => (r, s)) ++ inner condition rest others := rfl
      rw [hcons, List.length_append, ih, List.length_map, ← List.countP_eq_length_filter]
      clear ih hcons
      induction others with
      | nil => rfl
      | cons s others ih =>
          simp only [List.map_cons, List.sum_cons, List.countP_cons]
          simp only [List.countP_cons] at ih
          omega

/-- **A join with exactly one partner for each row of the other side keeps their number.** -/
theorem length_inner (h : ∀ s ∈ others, (rows.countP fun r => (condition r s).holds) = 1) :
    (inner condition rows others).length = others.length := by
  rw [length_inner_eq, List.map_congr_left h]
  simp

/-- Rows with distinct keys: one of them has the key of `r`. -/
theorem countP_key [DecidableEq κ] {key : ρ → κ} (hkeys : (rows.map key).Nodup) {r : ρ} (hr : r ∈ rows) :
    (rows.countP fun x => decide (key x = key r)) = 1 := by
  have hcount : (rows.map key).count (key r) = 1 := List.count_eq_one_of_mem hkeys (List.mem_map_of_mem hr)
  rw [List.count, List.countP_map] at hcount
  rw [← hcount]
  exact List.countP_congr fun x _ => by simp

/-- The groups of a list make up the list. -/
theorem sum_groups [DecidableEq κ] (key : ρ → κ) (rows : List ρ) :
    ((rows.map key).dedup.map fun k => (rows.filter fun r => key r == k).length).sum = rows.length := by
  rw [← List.length_map (f := key), ← List.sum_map_count_dedup_eq_length (rows.map key)]
  refine congrArg List.sum (List.map_congr_left fun k _ => ?_)
  rw [List.count, List.countP_map, ← List.countP_eq_length_filter]
  rfl

end Lib.Joins
