/-
Spark data frames: a schema and a bag of rows.

A cell is `NULL` or a value of a type, and a frame carries the proof that every row has a
cell of the right type for each of its columns.  Whether a column is declared nullable is
part of the schema and says nothing of the rows, as in Spark.

Rows are compared as Spark groups them: two NaN are one value and so are the two zeros, so
`exceptAll` works on keys (`Row.key`).  `sameRows` says that neither of two frames has a row
the other lacks, counted with repetition; `sameRows_iff` makes that a permutation.
-/
import DataEngLab.Lib.Text
import Mathlib.Data.List.Perm.Basic
import Mathlib.Data.List.Count
import Mathlib.Data.Rat.Defs

namespace Lib

inductive DataType where
  | string
  | long
  | integer
  | double
  | timestamp
  | timestampNtz
  | date
  | decimal (precision scale : Nat)
  | other (name : String)
deriving DecidableEq

/-- A `double`, up to which bits a NaN has. -/
inductive Double where
  | nan
  | infinite (negative : Bool)
  | negativeZero
  | finite (value : ℚ)
deriving DecidableEq

/-- A timestamp is a number of microseconds, a date of days, and a decimal of units of its last
place. -/
inductive Cell where
  | null
  | string (s : Str)
  | long (n : Int)
  | integer (n : Int)
  | double (d : Double)
  | timestamp (micros : Int)
  | timestampNtz (micros : Int)
  | date (days : Int)
  | decimal (units : Int)
  | other (n : Nat)
deriving DecidableEq

structure Field where
  name : String
  type : DataType
  nullable : Bool
deriving DecidableEq

abbrev Schema := List Field

abbrev Row := List Cell

/-- The cell may stand in a column of this type. -/
def Cell.fits : DataType → Cell → Bool
  | _, .null => true
  | .string, .string _ => true
  | .long, .long _ => true
  | .integer, .integer _ => true
  | .double, .double _ => true
  | .timestamp, .timestamp _ => true
  | .timestampNtz, .timestampNtz _ => true
  | .date, .date _ => true
  | .decimal _ _, .decimal _ => true
  | .other _, .other _ => true
  | _, _ => false

def Conforms (schema : Schema) (row : Row) : Prop :=
  List.Forall₂ (fun f c => Cell.fits f.type c = true) schema row

structure Frame where
  schema : Schema
  rows : List Row
  conforms : ∀ r ∈ rows, Conforms schema r

/-- The names and types of the columns. -/
def Schema.columns (schema : Schema) : List (String × DataType) := schema.map fun f => (f.name, f.type)

/-- `F.col(name)` of a row. -/
def Schema.cell (schema : Schema) (name : String) (row : Row) : Cell :=
  ((schema.map Field.name).zip row).lookup name |>.getD .null

namespace Frame

def count (f : Frame) : Nat := f.rows.length

/-- `frame.where(p)` -/
def filter (f : Frame) (p : Row → Bool) : Frame where
  schema := f.schema
  rows := f.rows.filter p
  conforms r hr := f.conforms r (List.mem_of_mem_filter hr)

/-- `frame.unionByName(other)` of frames with one schema. -/
def union (f g : Frame) (h : f.schema = g.schema) : Frame where
  schema := f.schema
  rows := f.rows ++ g.rows
  conforms r hr := (List.mem_append.mp hr).elim (f.conforms r) fun hg => h ▸ g.conforms r hg

end Frame

/-! ### Comparison -/

/-- The value a cell is grouped under. -/
def Cell.key : Cell → Cell
  | .double .negativeZero => .double (.finite 0)
  | c => c

def Row.key (r : Row) : Row := r.map Cell.key

theorem Cell.key_of_fits {t : DataType} (ht : t ≠ .double) {c : Cell} (h : Cell.fits t c = true) :
    c.key = c := by
  cases c with
  | double d => cases t <;> simp_all [Cell.fits]
  | _ => rfl

/-- Without doubles a row is grouped under itself. -/
theorem Row.key_of_conforms {schema : Schema} {row : Row} (h : Conforms schema row)
    (hschema : ∀ f ∈ schema, f.type ≠ .double) : Row.key row = row := by
  induction h with
  | nil => rfl
  | cons hc _ ih =>
      simp only [Row.key, List.map_cons] at ih ⊢
      rw [Cell.key_of_fits (hschema _ List.mem_cons_self) hc,
        ih fun f hf => hschema f (List.mem_cons_of_mem _ hf)]

/-- `expected.exceptAll(actual)`: the keys that are left. -/
def exceptAll (expected actual : List Row) : List Row := (expected.map Row.key).diff (actual.map Row.key)

/-- Neither has a row the other lacks. -/
def sameRows (expected actual : List Row) : Bool :=
  (exceptAll expected actual).isEmpty && (exceptAll actual expected).isEmpty

theorem diff_eq_nil {α : Type} [BEq α] [LawfulBEq α] {xs ys : List α} :
    xs.diff ys = [] ↔ ∀ x, xs.count x ≤ ys.count x := by
  constructor
  · intro h x
    have hc := List.count_diff x xs ys
    rw [h, List.count_nil] at hc
    omega
  · intro h
    refine List.eq_nil_iff_forall_not_mem.mpr fun x hx => ?_
    have hpos := List.count_pos_iff.mpr hx
    rw [List.count_diff] at hpos
    have := h x
    omega

theorem exceptAll_isEmpty {xs ys : List Row} : (exceptAll xs ys).isEmpty = true ↔
    ∀ r, (xs.map Row.key).count r ≤ (ys.map Row.key).count r := by
  rw [List.isEmpty_iff, exceptAll, diff_eq_nil]

/-- **No row is left on either side exactly when the bags are equal.** -/
theorem sameRows_iff {xs ys : List Row} :
    sameRows xs ys = true ↔ (xs.map Row.key).Perm (ys.map Row.key) := by
  rw [sameRows, Bool.and_eq_true, exceptAll_isEmpty, exceptAll_isEmpty, List.perm_iff_count]
  constructor
  · rintro ⟨h, h'⟩ r
    exact Nat.le_antisymm (h r) (h' r)
  · exact fun h => ⟨fun r => (h r).le, fun r => (h r).ge⟩

/-- Between frames without doubles the rows themselves are compared. -/
theorem Frame.perm_of_sameRows {f g : Frame} (hf : ∀ c ∈ f.schema, c.type ≠ .double)
    (hg : ∀ c ∈ g.schema, c.type ≠ .double) (h : sameRows f.rows g.rows = true) :
    f.rows.Perm g.rows := by
  have hkey : ∀ frame : Frame, (∀ c ∈ frame.schema, c.type ≠ .double) →
      frame.rows.map Row.key = frame.rows := fun frame hframe =>
    (List.map_congr_left fun r hr => Row.key_of_conforms (frame.conforms r hr) hframe).trans
      (List.map_id _)
  have hperm := sameRows_iff.mp h
  rwa [hkey f hf, hkey g hg] at hperm

end Lib
