/-
Dictionaries.

An association list in insertion order, each key once.  `update` is every way such a
dictionary changes: the value under one key is replaced by a function of what was there.
What holds of all entries is kept by an update that keeps it at its key, and a dictionary
whose keys come from a table is no larger than the table.
-/
import DataEngLab.Lib.Checks
import Mathlib.Data.List.Perm.Subperm
import Mathlib.Algebra.Order.BigOperators.Group.List
import Mathlib.Algebra.Order.Group.Nat
import Mathlib.Algebra.BigOperators.Ring.List
import Mathlib.Algebra.GroupWithZero.Nat

namespace Lib

variable {κ ν : Type} [DecidableEq κ]

abbrev Dict (κ ν : Type) := List (κ × ν)

namespace Dict

/-- `d.get(k)` -/
def get? (d : Dict κ ν) (k : κ) : Option ν :=
  match d with
  | [] => none
  | (k', v) :: rest => if k' = k then some v else get? rest k

/-- `d[k] = f(d.get(k))` -/
def update (k : κ) (f : Option ν → ν) : Dict κ ν → Dict κ ν
  | [] => [(k, f none)]
  | (k', v) :: rest => if k' = k then (k', f (some v)) :: rest else (k', v) :: update k f rest

def keys (d : Dict κ ν) : List κ := d.map Prod.fst

variable {d : Dict κ ν} {k k' : κ} {f : Option ν → ν} {v : ν}

theorem mem_of_get? (h : d.get? k = some v) : (k, v) ∈ d := by
  induction d with
  | nil => simp [get?] at h
  | cons x rest ih =>
      obtain ⟨k', v'⟩ := x
      simp only [get?] at h
      split at h
      · rename_i hk
        simp only [Option.some.injEq] at h
        simp [hk, h]
      · exact List.mem_cons_of_mem _ (ih h)

/-- The values of a dictionary, each put through a function. -/
theorem get?_map_val {μ : Type} (g : ν → μ) (d : Dict κ ν) (k : κ) :
    get? (d.map fun x => (x.1, g x.2)) k = (d.get? k).map g := by
  induction d with
  | nil => rfl
  | cons x rest ih =>
      obtain ⟨k', v⟩ := x
      rw [List.map_cons, get?, get?]
      split
      · rfl
      · exact ih

@[simp] theorem get?_update_self : (d.update k f).get? k = some (f (d.get? k)) := by
  induction d with
  | nil => simp [update, get?]
  | cons x rest ih =>
      obtain ⟨k', v⟩ := x
      by_cases hk : k' = k
      · simp [update, get?, hk]
      · simpa [update, get?, hk] using ih

theorem get?_update_ne (h : k ≠ k') : (d.update k' f).get? k = d.get? k := by
  induction d with
  | nil => simp [update, get?, h.symm]
  | cons x rest ih =>
      obtain ⟨k'', v⟩ := x
      by_cases hk : k'' = k'
      · simp [update, get?, hk, h.symm]
      · simp only [update, hk, if_false, get?]
        rw [ih]

/-- What holds of every entry is kept by an update that keeps it at its key. -/
theorem forall_update {P : κ → ν → Prop} (h : ∀ x ∈ d, P x.1 x.2) (hk : P k (f (d.get? k))) :
    ∀ x ∈ d.update k f, P x.1 x.2 := by
  induction d with
  | nil => simpa [update, get?] using hk
  | cons x rest ih =>
      obtain ⟨k', v⟩ := x
      simp only [List.forall_mem_cons] at h
      by_cases hk' : k' = k
      · simp only [get?, hk', if_true] at hk
        simp only [update, hk', if_true, List.forall_mem_cons]
        exact ⟨hk, h.2⟩
      · simp only [get?, hk', if_false] at hk
        simp only [update, hk', if_false, List.forall_mem_cons]
        exact ⟨h.1, ih h.2 hk⟩

theorem mem_keys_update (h : k' ∈ (d.update k f).keys) : k' = k ∨ k' ∈ d.keys := by
  induction d with
  | nil => simpa [update, keys] using h
  | cons x rest ih =>
      obtain ⟨k'', v⟩ := x
      by_cases hk : k'' = k
      · simp only [update, hk, if_true, keys, List.map_cons, List.mem_cons] at h ⊢
        tauto
      · simp only [update, hk, if_false, keys, List.map_cons, List.mem_cons] at h ⊢
        rcases h with rfl | h
        · exact .inr (.inl rfl)
        · rcases ih h with rfl | h
          · exact .inl rfl
          · exact .inr (.inr h)

/-- An update at a key that is there adds no entry. -/
theorem length_update (h : d.get? k = some v) : (d.update k f).length = d.length := by
  induction d with
  | nil => simp [get?] at h
  | cons x rest ih =>
      obtain ⟨k', v'⟩ := x
      by_cases hk : k' = k
      · simp [update, hk]
      · simp only [get?, hk, if_false] at h
        simp [update, hk, ih h]

/-- What an update does to a sum over the values: the new weight takes the old one's place. -/
theorem sum_update {M : Type} [AddCommMonoid M] (w : ν → M) :
    ((d.update k f).map fun x => w x.2).sum + ((d.get? k).map w).getD 0 =
      (d.map fun x => w x.2).sum + w (f (d.get? k)) := by
  induction d with
  | nil => simp [update, get?]
  | cons x rest ih =>
      obtain ⟨k', v'⟩ := x
      by_cases hk : k' = k
      · simp only [update, get?, hk, if_true, List.map_cons, List.sum_cons, Option.map_some, Option.getD_some]
        rw [add_right_comm, add_comm (w _) (w v'), add_right_comm]
      · simp only [update, get?, hk, if_false, List.map_cons, List.sum_cons]
        rw [add_assoc, ih, add_assoc]

theorem nodup_keys_update (h : d.keys.Nodup) : (d.update k f).keys.Nodup := by
  induction d with
  | nil => simp [update, keys]
  | cons x rest ih =>
      obtain ⟨k', v⟩ := x
      simp only [keys, List.map_cons, List.nodup_cons] at h
      by_cases hk : k' = k
      · subst hk
        simpa [update, keys] using h
      · simp only [update, hk, if_false, keys, List.map_cons, List.nodup_cons]
        refine ⟨fun hmem => ?_, ih h.2⟩
        rcases mem_keys_update hmem with hc | hc
        · exact hk hc
        · exact h.1 hc

end Dict

/-- A list without repetitions, weighed: no heavier than any list it is part of. -/
theorem sum_map_le_of_subset {α : Type} {l table : List α} (w : α → Nat) (hnodup : l.Nodup)
    (hsub : l ⊆ table) : (l.map w).sum ≤ (table.map w).sum := by
  obtain ⟨l', hperm, hsublist⟩ := hnodup.subperm hsub
  calc (l.map w).sum = (l'.map w).sum := ((hperm.map w).sum_eq).symm
    _ ≤ (table.map w).sum := (hsublist.map w).sum_le_sum fun _ _ => Nat.zero_le _

end Lib
