/-
Windows: the rows of each partition, listed in order.

`partitionBy(key).orderBy(le)` meets the rows of a partition in some order that `le` allows;
where two rows are tied, either may come first.  A `Window` is one such arrangement, with
every partition's rows complete and in order.

When tied rows are equal there is only one: `Window.partitions_perm` says that two windows
over the same rows have the same partitions, each listed in the same order.
-/
import Mathlib.Data.List.Perm.Basic
import Mathlib.Data.List.Sort
import Mathlib.Data.List.Flatten
import Mathlib.Data.List.Dedup

namespace Lib

variable {α κ : Type}

/-- An arrangement of `xs` by partition and order. -/
structure Window (key : α → κ) (le : α → α → Prop) (xs : List α) where
  partitions : List (List α)
  perm : partitions.flatten.Perm xs
  nonempty : ∀ p ∈ partitions, p ≠ []
  together : ∀ p ∈ partitions, ∀ a ∈ p, ∀ b ∈ p, key a = key b
  apart : partitions.Pairwise fun p q => ∀ a ∈ p, ∀ b ∈ q, key a ≠ key b
  sorted : ∀ p ∈ partitions, p.Pairwise le

namespace Window

variable {key : α → κ} {le : α → α → Prop} {xs : List α} (w w' : Window key le xs)

theorem mem_of_mem {p : List α} {a : α} (hp : p ∈ w.partitions) (ha : a ∈ p) : a ∈ xs :=
  w.perm.mem_iff.mp (List.mem_flatten.mpr ⟨p, hp, ha⟩)

theorem exists_partition {a : α} (ha : a ∈ xs) : ∃ p ∈ w.partitions, a ∈ p :=
  List.mem_flatten.mp (w.perm.mem_iff.mpr ha)

/-- A partition holds the rows of its key, all of them. -/
theorem filter_flatten [DecidableEq κ] {a : α} : ∀ {ps : List (List α)} {p : List α},
    (∀ q ∈ ps, ∀ x ∈ q, ∀ y ∈ q, key x = key y) →
    (ps.Pairwise fun p q => ∀ x ∈ p, ∀ y ∈ q, key x ≠ key y) → p ∈ ps → a ∈ p →
    ps.flatten.filter (key · = key a) = p := by
  intro ps
  induction ps with
  | nil => intro p _ _ hp; cases hp
  | cons q rest ih =>
      intro p htogether hapart hp ha
      obtain ⟨hq, hrest⟩ := List.pairwise_cons.mp hapart
      rw [List.flatten_cons, List.filter_append]
      rcases List.mem_cons.mp hp with rfl | hmem
      · have hhere : p.filter (key · = key a) = p :=
          List.filter_eq_self.mpr fun x hx => by
            simpa using htogether p (List.mem_cons_self ..) x hx a ha
        have hthere : rest.flatten.filter (key · = key a) = [] := by
          refine List.filter_eq_nil_iff.mpr fun x hx => ?_
          obtain ⟨r, hr, hxr⟩ := List.mem_flatten.mp hx
          simpa using (hq r hr a ha x hxr).symm
        rw [hhere, hthere, List.append_nil]
      · have hhere : q.filter (key · = key a) = [] :=
          List.filter_eq_nil_iff.mpr fun x hx => by simpa using hq p hmem x hx a ha
        rw [hhere, List.nil_append]
        exact ih (fun r hr => htogether r (List.mem_cons_of_mem _ hr)) hrest hmem ha

theorem partition_perm [DecidableEq κ] {p : List α} {a : α} (hp : p ∈ w.partitions) (ha : a ∈ p) :
    p.Perm (xs.filter (key · = key a)) := by
  rw [← filter_flatten w.together w.apart hp ha]
  exact w.perm.filter _

theorem nodup : w.partitions.Nodup := by
  refine w.apart.imp_of_mem fun {p q} hp _ hne heq => ?_
  subst heq
  obtain ⟨a, ha⟩ := List.exists_mem_of_ne_nil p (w.nonempty p hp)
  exact hne a ha a ha rfl

variable {w w'}

theorem partitions_subset [DecidableEq κ]
    (anti : ∀ a ∈ xs, ∀ b ∈ xs, le a b → le b a → a = b) : w.partitions ⊆ w'.partitions := by
  intro p hp
  obtain ⟨a, ha⟩ := List.exists_mem_of_ne_nil p (w.nonempty p hp)
  obtain ⟨q, hq, haq⟩ := w'.exists_partition (w.mem_of_mem hp ha)
  have hperm : p.Perm q := (w.partition_perm hp ha).trans (w'.partition_perm hq haq).symm
  have heq : p = q := by
    refine hperm.eq_of_pairwise (fun x y hx hy hxy hyx => ?_) (w.sorted p hp) (w'.sorted q hq)
    exact anti x (w.mem_of_mem hp hx) y (w'.mem_of_mem hq hy) hxy hyx
  exact heq ▸ hq

/-- **Where ties are between equal rows, there is one arrangement.** -/
theorem partitions_perm [DecidableEq κ]
    (anti : ∀ a ∈ xs, ∀ b ∈ xs, le a b → le b a → a = b) : w.partitions.Perm w'.partitions :=
  (List.perm_ext_iff_of_nodup w.nodup w'.nodup).mpr fun _ =>
    ⟨fun h => partitions_subset anti h, fun h => partitions_subset anti h⟩

end Window

/-! ### Making one -/

section
variable [DecidableEq κ] (key : α → κ) (le : α → α → Prop) [DecidableRel le]

end

end Lib
