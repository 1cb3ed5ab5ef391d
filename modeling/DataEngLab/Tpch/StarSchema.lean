/-
The TPC-H star schema.

`validateSources` checks three frames: their columns, that no key is `NULL` or there twice,
and that no foreign key is without its row.  `fact` joins orders and lines and has one row
for each group.  The frames are read by the names of their columns, into rows whose values
may be `NULL`.

The sum of a `decimal(15,2)` is a `decimal(25,2)`, and a sum that is longer ends the query
(`spark.sql.ansi.enabled`, the default of the Spark version the project is built for).  The
sum here is taken in the order of the rows; Spark may take it in another.
-/
import DataEngLab.Lib.Checks
import DataEngLab.Lib.Frames
import DataEngLab.Lib.Joins

namespace Tpch

open Lib

inductive Exn where
  /-- `require` failed -/
  | illegalArgument (message : String)
  /-- a decimal does not fit its type -/
  | arithmeticOverflow
deriving DecidableEq

def require (c : Bool) (message : String) : Except Exn Unit := Lib.require c (.illegalArgument message)

def customerColumns : List (String × DataType) :=
  [("c_custkey", .long), ("c_name", .string), ("c_nationkey", .integer), ("c_mktsegment", .string)]

def orderColumns : List (String × DataType) :=
  [("o_orderkey", .long), ("o_custkey", .long), ("o_orderdate", .date)]

def lineColumns : List (String × DataType) :=
  [("l_orderkey", .long), ("l_linenumber", .long), ("l_extendedprice", .decimal 15 2)]

/-! ### Rows -/

structure Customer where
  custkey : Option Int
  name : Option Str
  nationkey : Option Int
  mktsegment : Option Str
deriving DecidableEq

structure Order where
  orderkey : Option Int
  custkey : Option Int
  orderdate : Option Int
deriving DecidableEq

/-- A row of `lineitem`; the price is in hundredths. -/
structure Line where
  orderkey : Option Int
  linenumber : Option Int
  extendedprice : Option Int
deriving DecidableEq

def longOf : Cell → Option Int
  | .long n => some n
  | _ => none

def integerOf : Cell → Option Int
  | .integer n => some n
  | _ => none

def stringOf : Cell → Option Str
  | .string s => some s
  | _ => none

def dateOf : Cell → Option Int
  | .date days => some days
  | _ => none

def decimalOf : Cell → Option Int
  | .decimal units => some units
  | _ => none

def customersOf (frame : Frame) : List Customer :=
  frame.rows.map fun row =>
    let cell := fun name => frame.schema.cell name row
    ⟨longOf (cell "c_custkey"), stringOf (cell "c_name"), integerOf (cell "c_nationkey"), stringOf (cell "c_mktsegment")⟩

def ordersOf (frame : Frame) : List Order :=
  frame.rows.map fun row =>
    let cell := fun name => frame.schema.cell name row
    ⟨longOf (cell "o_orderkey"), longOf (cell "o_custkey"), dateOf (cell "o_orderdate")⟩

def linesOf (frame : Frame) : List Line :=
  frame.rows.map fun row =>
    let cell := fun name => frame.schema.cell name row
    ⟨longOf (cell "l_orderkey"), longOf (cell "l_linenumber"), decimalOf (cell "l_extendedprice")⟩

/-! ### Validation -/

def requireColumns (frame : Frame) (expected : List (String × DataType)) (source : String) : Except Exn Unit := do
  let _ ← checkAll (fun c => do
    require ((frame.schema.map Field.name).contains c.1) (source ++ " is missing " ++ c.1)
    require (frame.schema.columns.lookup c.1 == some c.2) (source ++ " has invalid type for " ++ c.1)) expected

def requireKeys {ρ : Type} (rows : List ρ) (keys : ρ → List (Option Int)) (source : String) : Except Exn Unit := do
  require (!rows.any fun r => (keys r).any Option.isNone) (source ++ " has null keys")
  require (decide (rows.map keys).Nodup) (source ++ " has duplicate keys")

/-- `orders("o_custkey") === customer("c_custkey")` -/
def ofCustomer (o : Order) (c : Customer) : Truth := Sql.eq o.custkey c.custkey

/-- `lineitem("l_orderkey") === orders("o_orderkey")` -/
def ofOrder (o : Order) (l : Line) : Truth := Sql.eq o.orderkey l.orderkey

def validateSources (customer orders lineitem : Frame) : Except Exn Unit := do
  requireColumns customer customerColumns "customer"
  requireColumns orders orderColumns "orders"
  requireColumns lineitem lineColumns "lineitem"
  requireKeys (customersOf customer) (fun c => [c.custkey]) "customer"
  requireKeys (ordersOf orders) (fun o => [o.orderkey]) "orders"
  requireKeys (linesOf lineitem) (fun l => [l.orderkey, l.linenumber]) "lineitem"
  require (Joins.leftAnti ofCustomer (ordersOf orders) (customersOf customer)).isEmpty
    "orders reference missing customers"
  require (Joins.leftAnti (fun l o => ofOrder o l) (linesOf lineitem) (ordersOf orders)).isEmpty
    "lineitems reference missing orders"

/-! ### The tables -/

/-- `customer.select(...)` -/
def dimension (customer : Frame) : List Customer := customersOf customer

/-- A row of `fct_orders`. -/
structure FactRow where
  order : Order
  revenue : Option Int
  lineCount : Nat
deriving DecidableEq

/-- The digits of a `decimal(25,2)`. -/
def sumPrecision : Nat := 25

/-- One more value of a sum. -/
def addDecimal (sum : Option Int) (value : Option Int) : Except Exn (Option Int) :=
  match value with
  | none => .ok sum
  | some n =>
      let next := sum.getD 0 + n
      if next.natAbs < 10 ^ sumPrecision then .ok (some next) else .error .arithmeticOverflow

/-- `F.sum` of a `decimal(15,2)` column. -/
def sumDecimal (values : List (Option Int)) : Except Exn (Option Int) := values.foldlM addDecimal none

/-- The row of a group of the join. -/
def factRow (joined : List (Order × Line)) (order : Order) : Except Exn FactRow := do
  let group := joined.filter fun x => x.1 == order
  let revenue ← sumDecimal (group.map fun x => x.2.extendedprice)
  return ⟨order, revenue, group.length⟩

def fact (orders : List Order) (lineitem : List Line) : Except Exn (List FactRow) :=
  let joined := Joins.inner ofOrder orders lineitem
  checkAll (factRow joined) (joined.map Prod.fst).dedup

end Tpch
