/-
`MERGE INTO`, and last-write-wins tables.

A merge compares every row of the target with every row of the source.  A target row that
matches two source rows is an error; otherwise each matched target row is updated and each
source row that matched nothing is inserted, null keys included, since they match nothing.

A merge keeps the keys of the rows it finds, so a key that stands in too many rows stays
there: `le_countKey`.  When the source has every key once and none of them null, the merge
is an upsert, and a table that holds the last row of each key of what was written before
holds the last row of each key afterwards: `LastWrites.upsert`.
-/
import DataEngLab.Lib.Sql

namespace Lib

variable {ρ κ : Type}

/-- `WHEN MATCHED THEN UPDATE SET … WHEN NOT MATCHED THEN INSERT *`, rows of one type on both sides. -/
structure Merge (ρ : Type) where
  on : ρ → ρ → Truth
  update : ρ → ρ → ρ

namespace Merge

variable (m : Merge ρ)

/-- The source rows that a target row matches. -/
def matched (source : List ρ) (t : ρ) : List ρ := source.filter fun s => (m.on t s).holds

/-- A target row after the merge. -/
def updated (source : List ρ) (t : ρ) : ρ :=
  match m.matched source t with
  | [] => t
  | s :: _ => m.update t s

/-- The source rows that no target row matches. -/
def unmatched (target source : List ρ) : List ρ := source.filter fun s => !target.any fun t => (m.on t s).holds

/-- The target after the merge, or the error of a target row with two matches. -/
def run (target source : List ρ) : Option (List ρ) :=
  if target.all fun t => (m.matched source t).length ≤ 1 then
    some (target.map (m.updated source) ++ m.unmatched target source)
  else none

end Merge

/-! ### Merges on a key -/

/-- Rows match when both have the same key, and an update keeps the key. -/
structure Merge.Keyed (m : Merge ρ) (key : ρ → Option κ) : Prop where
  matched : ∀ {t s}, m.on t s = some true ↔ ∃ k, key t = some k ∧ key s = some k
  update : ∀ t s, key (m.update t s) = key t

variable [DecidableEq κ] {m : Merge ρ} {key : ρ → Option κ} {target source table : List ρ}

/-- The rows with a key. -/
def withKey (key : ρ → Option κ) (k : Option κ) (rows : List ρ) : List ρ := rows.filter fun r => key r = k

@[simp] theorem withKey_append (k : Option κ) (xs ys : List ρ) :
    withKey key k (xs ++ ys) = withKey key k xs ++ withKey key k ys := List.filter_append ..

namespace Merge.Keyed

variable (h : m.Keyed key)
include h

theorem matched_none {t : ρ} (ht : key t = none) : m.matched source t = [] := by
  rw [Merge.matched, List.filter_eq_nil_iff]
  intro s _ hs
  obtain ⟨k, hk, -⟩ := h.matched.mp (Truth.holds_iff.mp hs)
  simp [ht] at hk

theorem matched_some {t : ρ} {k : κ} (ht : key t = some k) : m.matched source t = withKey key (some k) source := by
  refine List.filter_congr fun s _ => ?_
  rw [Bool.eq_iff_iff, Truth.holds_iff, h.matched, decide_eq_true_eq]
  constructor
  · rintro ⟨k', hk', hs⟩
    rw [hs, ← hk', ht]
  · exact fun hs => ⟨k, ht, hs⟩

@[simp] theorem key_updated (t : ρ) : key (m.updated source t) = key t := by
  unfold Merge.updated
  split
  · rfl
  · exact h.update _ _

theorem withKey_updated (k : Option κ) :
    withKey key k (target.map (m.updated source)) = (withKey key k target).map (m.updated source) := by
  rw [withKey, List.filter_map]
  congr 1
  refine List.filter_congr fun t _ => ?_
  simp [h.key_updated]

/-- A null key matches nothing. -/
theorem unmatched_none : withKey key none (m.unmatched target source) = withKey key none source := by
  rw [withKey, Merge.unmatched, List.filter_filter]
  refine List.filter_congr fun s _ => ?_
  by_cases hs : key s = none
  · simp only [hs, decide_true, Bool.true_and, Bool.not_eq_true', List.any_eq_false]
    intro t _ ht
    obtain ⟨k, -, hk⟩ := h.matched.mp (Truth.holds_iff.mp ht)
    simp [hs] at hk
  · simp [hs]

theorem unmatched_some {k : κ} : withKey key (some k) (m.unmatched target source) =
    if withKey key (some k) target = [] then withKey key (some k) source else [] := by
  rw [withKey, Merge.unmatched, List.filter_filter]
  split
  · rename_i hnone
    refine List.filter_congr fun s _ => ?_
    by_cases hs : key s = some k
    · simp only [hs, decide_true, Bool.true_and, Bool.not_eq_true', List.any_eq_false]
      intro t ht hon
      obtain ⟨k', hk', hs'⟩ := h.matched.mp (Truth.holds_iff.mp hon)
      rw [hs, Option.some.injEq] at hs'
      subst hs'
      exact (List.filter_eq_nil_iff.mp hnone t ht) (by simpa using hk')
    · simp [hs]
  · rename_i hsome
    rw [List.filter_eq_nil_iff]
    intro s _ hs
    simp only [Bool.and_eq_true, decide_eq_true_eq, Bool.not_eq_true', List.any_eq_false] at hs
    refine hsome (List.filter_eq_nil_iff.mpr fun t ht hkey => hs.2 t ht ?_)
    exact Truth.holds_iff.mpr (h.matched.mpr ⟨k, by simpa using hkey, hs.1⟩)

/-- A key stands in at least as many rows as before. -/
theorem le_withKey (hrun : m.run target source = some table) (k : Option κ) :
    (withKey key k target).length ≤ (withKey key k table).length := by
  unfold Merge.run at hrun
  split at hrun
  · rw [← Option.some.inj hrun, withKey_append, h.withKey_updated, List.length_append, List.length_map]
    exact Nat.le_add_right _ _
  · cases hrun

/-- Every null key of the source is inserted. -/
theorem inserts_null (hrun : m.run target source = some table) :
    (withKey key none source).length ≤ (withKey key none table).length := by
  unfold Merge.run at hrun
  split at hrun
  · rw [← Option.some.inj hrun, withKey_append, h.unmatched_none, List.length_append]
    exact Nat.le_add_left _ _
  · cases hrun

/-- A key that the source has twice is an error, or stands in two rows. -/
theorem repeats_key {k : κ} (htwice : 2 ≤ (withKey key (some k) source).length)
    (hrun : m.run target source = some table) : 2 ≤ (withKey key (some k) table).length := by
  unfold Merge.run at hrun
  split at hrun
  · rename_i hall
    rw [← Option.some.inj hrun, withKey_append, h.unmatched_some]
    split
    · rw [List.length_append]
      omega
    · rename_i hne
      obtain ⟨t, ht⟩ := List.exists_mem_of_ne_nil _ hne
      have hkey : key t = some k := by simpa using (List.mem_filter.mp ht).2
      have hone := List.all_eq_true.mp hall t (List.mem_filter.mp ht).1
      rw [h.matched_some hkey, decide_eq_true_eq] at hone
      omega
  · cases hrun

end Merge.Keyed

/-! ### Last write wins -/

/-- The last row with a key. -/
def lastRow (key : ρ → Option κ) (k : κ) (rows : List ρ) : Option ρ := (withKey key (some k) rows).getLast?

theorem lastRow_append (k : κ) (xs ys : List ρ) :
    lastRow key k (xs ++ ys) = (lastRow key k ys).or (lastRow key k xs) := by
  rw [lastRow, withKey_append, List.getLast?_append]
  rfl

/-- The table holds one row for each key of `rows`, the last one with it, and no other row. -/
structure LastWrites (key : ρ → Option κ) (rows table : List ρ) : Prop where
  keyed : withKey key none table = []
  last : ∀ k, withKey key (some k) table = (lastRow key k rows).toList

theorem LastWrites.congr {rows rows' : List ρ} (h : LastWrites key rows table)
    (hrows : ∀ k, lastRow key k rows' = lastRow key k rows) : LastWrites key rows' table :=
  ⟨h.keyed, fun k => by rw [hrows, h.last]⟩

theorem LastWrites.length_le {rows : List ρ} (h : LastWrites key rows table) (k : κ) :
    (withKey key (some k) table).length ≤ 1 := by
  rw [h.last]
  cases hrow : lastRow key k rows with
  | none => simp
  | some r => simp

/-- Every row has a key, and no two rows have the same. -/
structure DistinctKeys (key : ρ → Option κ) (rows : List ρ) : Prop where
  keyed : withKey key none rows = []
  distinct : ∀ k, (withKey key (some k) rows).length ≤ 1

/-- **A merge of distinct keys is an upsert.**  `sets` says that an update of a row of the source's key
gives the source's row. -/
theorem LastWrites.upsert (h : m.Keyed key) (sets : ∀ {t s k}, key t = some k → key s = some k → m.update t s = s)
    {rows : List ρ} (ht : LastWrites key rows target) (hs : DistinctKeys key source) :
    ∃ table, m.run target source = some table ∧ LastWrites key (rows ++ source) table := by
  have hall : (target.all fun t => (m.matched source t).length ≤ 1) = true := by
    rw [List.all_eq_true]
    intro t _
    rw [decide_eq_true_eq]
    cases hkey : key t with
    | none => rw [h.matched_none hkey]; simp
    | some k => rw [h.matched_some hkey]; exact hs.distinct k
  refine ⟨_, by rw [Merge.run, if_pos hall], ?_, fun k => ?_⟩
  · rw [withKey_append, h.withKey_updated, ht.keyed, h.unmatched_none, hs.keyed]
    rfl
  · rw [withKey_append, h.withKey_updated, h.unmatched_some, lastRow_append, ht.last]
    cases hsource : withKey key (some k) source with
    | nil =>
        have hnone : lastRow key k source = none := by rw [lastRow, hsource]; rfl
        rw [hnone, Option.none_or]
        have hsame : ∀ t ∈ (lastRow key k rows).toList, m.updated source t = t := by
          intro t htl
          rw [← ht.last, withKey, List.mem_filter] at htl
          rw [Merge.updated, h.matched_some (by simpa using htl.2), hsource]
        rw [List.map_congr_left hsame, List.map_id']
        simp
    | cons s rest =>
        have hone := hs.distinct k
        rw [hsource, List.length_cons] at hone
        obtain rfl : rest = [] := List.length_eq_zero_iff.mp (by omega)
        have hskey : key s = some k := by
          have : s ∈ withKey key (some k) source := by rw [hsource]; simp
          simpa using (List.mem_filter.mp this).2
        have hlast : lastRow key k source = some s := by rw [lastRow, hsource]; rfl
        rw [hlast, Option.some_or]
        cases hold : lastRow key k rows with
        | none => simp
        | some t =>
            have htkey : key t = some k := by
              have : t ∈ withKey key (some k) target := by rw [ht.last, hold]; simp
              simpa using (List.mem_filter.mp this).2
            simp [Merge.updated, h.matched_some htkey, hsource, sets htkey hskey]

end Lib
