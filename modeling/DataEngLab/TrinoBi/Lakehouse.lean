/-
The two Gold tables behind the task, and what its queries make of them.

A table has a current state and the states it had before; each state has a snapshot
identifier of its own, and a commit puts a state in front under an identifier the table has
not used (`Table.commit`).  A table only grows, so two looks that find the same identifier
have found the same state, and so has every look in between (`Table.Older.between`).

The queries are the SQL of the registry read as functions of the two states.  `NULL` is
`none`; a sum over no value is `NULL`; a join on equality keeps no row whose key is `NULL`.
-/
import DataEngLab.TrinoBi.Contracts
import Mathlib.Data.List.Infix
import Mathlib.Data.List.Nodup
import Mathlib.Data.List.Sort

namespace TrinoBi

open Lib

/-! ### Tables -/

/-- What a commit puts in place at once. -/
structure TableState (ρ : Type) where
  snapshotId : Int
  properties : List (Str × Str)
  columns : List (Str × Str)
  rows : List ρ

/-- A table and its history, the newest state first. -/
structure Table (ρ : Type) where
  current : TableState ρ
  past : List (TableState ρ)
  distinct : ((current :: past).map TableState.snapshotId).Nodup

namespace Table

variable {ρ : Type}

def states (t : Table ρ) : List (TableState ρ) := t.current :: t.past

/-- `next` becomes the current state. -/
def commit (t : Table ρ) (next : TableState ρ)
    (h : next.snapshotId ∉ t.states.map TableState.snapshotId) : Table ρ where
  current := next
  past := t.states
  distinct := List.nodup_cons.mpr ⟨h, t.distinct⟩

/-- `t` is what `u` was at some earlier moment. -/
def Older (t u : Table ρ) : Prop := t.states <:+ u.states

variable {t u v : Table ρ}

theorem Older.refl (t : Table ρ) : t.Older t := List.suffix_refl _

theorem Older.trans (h : t.Older u) (h' : u.Older v) : t.Older v := List.IsSuffix.trans h h'

theorem older_commit (t : Table ρ) {next : TableState ρ}
    (h : next.snapshotId ∉ t.states.map TableState.snapshotId) : t.Older (t.commit next h) :=
  List.suffix_cons _ _

theorem Older.mem (h : t.Older u) : t.current ∈ u.states := h.subset (List.mem_cons_self ..)

/-- A table that shows the identifier it showed before has not changed. -/
theorem Older.states_eq (h : t.Older u) (hid : t.current.snapshotId = u.current.snapshotId) :
    t.states = u.states := by
  obtain ⟨newer, hnewer⟩ := h
  cases newer with
  | nil => exact hnewer
  | cons x rest =>
      have hx : x = u.current := (List.cons.inj hnewer).1
      have hlater : t.current ∈ u.past := by
        rw [← (List.cons.inj hnewer).2]
        exact List.mem_append_right _ (List.mem_cons_self ..)
      have hnotin : u.current.snapshotId ∉ u.past.map TableState.snapshotId :=
        (List.nodup_cons.mp u.distinct).1
      exact absurd (hid ▸ List.mem_map_of_mem hlater) hnotin

/-- **What two looks with one identifier enclose.** -/
theorem Older.between (h : t.Older u) (h' : u.Older v)
    (hid : t.current.snapshotId = v.current.snapshotId) : u.current = t.current := by
  have hsame : t.states = v.states := (h.trans h').states_eq hid
  have hle : u.states.length ≤ t.states.length := hsame ▸ h'.length_le
  have heq : t.states = u.states := List.IsSuffix.eq_of_length_le h hle
  exact (List.cons.inj heq).1.symm

end Table

/-! ### Rows -/

/-- The columns of `dim_customer` the queries read. -/
structure DimCustomer where
  custkey : Option Int
  mktsegment : Option Str

/-- The columns of `fct_orders` the queries read; the revenue is in hundredths. -/
structure FctOrder where
  custkey : Option Int
  revenue : Option Int
  lineCount : Option Int

abbrev Dim := TableState DimCustomer
abbrev Fct := TableState FctOrder

/-! ### Queries -/

/-- A number of hundredths as Trino spells a `decimal(38,2)`. -/
def hundredths (n : Int) : Str :=
  (if n < 0 then [45] else []) ++ decDigits (n.natAbs / 100) ++ 46 :: padDigits 2 (n.natAbs % 100)

/-- `sum(...)`, with `NULL` left out. -/
def sumOf (values : List (Option Int)) : Option Int :=
  match values.filterMap id with
  | [] => none
  | xs => some xs.sum

def cell (f : Int → Json) : Option Int → Json
  | none => .null
  | some n => f n

def decimalCell : Option Int → Json := cell fun n => .str (hundredths n)

def bigintCell : Option Int → Json := cell .int

def textCell : Option Str → Json
  | none => .null
  | some s => .str s

/-- `f.o_custkey = c.c_custkey` -/
def joins (f : FctOrder) (c : DimCustomer) : Bool := f.custkey.isSome && f.custkey == c.custkey

/-- `fct_orders f LEFT JOIN dim_customer c` -/
def leftJoin (dim : Dim) (fct : Fct) : List (FctOrder × Option DimCustomer) :=
  fct.rows.flatMap fun f =>
    match dim.rows.filter (joins f) with
    | [] => [(f, none)]
    | cs => cs.map fun c => (f, some c)

/-- `fct_orders f JOIN dim_customer c` -/
def innerJoin (dim : Dim) (fct : Fct) : List (FctOrder × DimCustomer) :=
  fct.rows.flatMap fun f => (dim.rows.filter (joins f)).map fun c => (f, c)

def dimCustomer : Str := lit "dim_customer"

def fctOrders : Str := lit "fct_orders"

def propertyRows (table : Str) (properties : List (Str × Str)) : Rows :=
  ((properties.filter (·.1 ∈ provenanceKeys)).insertionSort fun a b => a.1 ≤ b.1).map fun p =>
    [.str table, .str p.1, .str p.2]

def columnRows (table : Str) (columns : List (Str × Str)) : Rows :=
  columns.map fun c => [.str table, .str c.1, .str c.2]

/-- The one row of `TPCH_SOURCE_TOTALS`. -/
def sourceTotalsRow (dim : Dim) (fct : Fct) : List Json :=
  let joined := leftJoin dim fct
  [.int joined.length, decimalCell (sumOf (joined.map (·.1.revenue))),
    bigintCell (sumOf (joined.map (·.1.lineCount))),
    .int (joined.countP fun x => (x.2.bind (·.custkey)).isNone)]

/-- `ORDER BY`, with `NULL` last. -/
def segmentLe : Option Str → Option Str → Bool
  | _, none => true
  | none, some _ => false
  | some a, some b => a ≤ b

/-- The rows of `TPCH_SEGMENT_REVENUE`. -/
def segmentRevenueRows (dim : Dim) (fct : Fct) : Rows :=
  let joined := innerJoin dim fct
  let segments := ((joined.map (·.2.mktsegment)).dedup).insertionSort fun a b => segmentLe a b = true
  segments.map fun segment =>
    let group := joined.filter (·.2.mktsegment == segment)
    [textCell segment, decimalCell (sumOf (group.map (·.1.revenue))),
      bigintCell (sumOf (group.map (·.1.lineCount))), .int group.length]

/-- The rows of a query over the two states it read. -/
def rowsOf (name : QueryName) (dim : Dim) (fct : Fct) : Rows :=
  match name with
  | .tpchProperties => propertyRows dimCustomer dim.properties ++ propertyRows fctOrders fct.properties
  | .tpchSnapshots =>
      [[.str dimCustomer, .int dim.snapshotId], [.str fctOrders, .int fct.snapshotId]]
  | .tpchSchemas => columnRows dimCustomer dim.columns ++ columnRows fctOrders fct.columns
  | .tpchSourceTotals => [sourceTotalsRow dim fct]
  | .tpchSegmentRevenue => segmentRevenueRows dim fct

end TrinoBi
