/-
`run_tpch_bi`: seven queries, one after another, and the artifact.

A query is not one look at the lakehouse.  The engine resolves each table it names at a
moment of its own, in an order of its choosing, and the client may fail before the result
has arrived; `execute` says so in calls.
-/
import DataEngLab.Lib.Prog
import DataEngLab.TrinoBi.Lakehouse

namespace TrinoBi

open Lib

/-- What goes on between the task and the engine. -/
inductive Call where
  /-- whether `dim_customer` is resolved first -/
  | order
  | readDim
  | readFct
  /-- the query over the states it was resolved to: its identifier, or what the client raises -/
  | finish (name : QueryName) (dim : Dim) (fct : Fct)

abbrev Answer : Call → Type
  | .order => Bool
  | .readDim => Dim
  | .readFct => Fct
  | .finish _ _ _ => Except Exn Str

abbrev Task (α : Type) : Type := Proc Call Answer Exn α

/-- Both tables, each at its moment. -/
def readTables : Task (Dim × Fct) := do
  let dimFirst ← Proc.perform (R := Answer) .order
  if dimFirst then
    let dim ← Proc.perform (R := Answer) .readDim
    let fct ← Proc.perform (R := Answer) .readFct
    return (dim, fct)
  else
    let fct ← Proc.perform (R := Answer) .readFct
    let dim ← Proc.perform (R := Answer) .readDim
    return (dim, fct)

/-- `client.execute(name)` -/
def execute (name : QueryName) : Task QueryResult := do
  let (dim, fct) ← readTables
  let reply ← Proc.perform (R := Answer) (.finish name dim fct)
  let queryId ← Proc.lift reply
  return ⟨queryId, rowsOf name dim fct⟩

/-! ### Readers of the results -/

/-- `row[0] in result`, and for which table. -/
def tableName (label : String) : Json → Except Exn Bool
  | .str name =>
      if name = dimCustomer then .ok true
      else if name = fctOrders then .ok false
      else .error (.contract (label ++ " row shape is invalid"))
  | value => .error (if hashable value then .contract (label ++ " row shape is invalid") else .typeError)

/-- The rest of a row that starts with the name of a table. -/
def tableRow (width : Nat) (label : String) (row : List Json) : Except Exn (Bool × List Json) := do
  require (row.length == width) (.contract (label ++ " row shape is invalid"))
  match row with
  | name :: rest =>
      let isDim ← tableName label name
      return (isDim, rest)
  | [] => .error (.contract (label ++ " row shape is invalid"))

/-- `_partition` over the two tables of the task. -/
def partition (rows : Rows) (width : Nat) (label : String) : Except Exn (Both Rows) := do
  let named ← checkAll (tableRow width label) rows
  let dim := (named.filter (·.1)).map (·.2)
  let fct := (named.filter (!·.1)).map (·.2)
  require (dim ≠ [] && fct ≠ []) (.contract (label ++ " is missing a required table"))
  return ⟨dim, fct⟩

/-- The snapshot of one table. -/
def snapshotOf (values : Rows) : Except Exn Int :=
  match values with
  | [[.int n]] => do
      require (0 < n) (.contract "TPC-H snapshot must be a positive integer")
      return n
  | [_] => throw (.contract "TPC-H snapshot must be a positive integer")
  | _ => throw (.contract "TPC-H snapshot must contain one row per table")

def snapshotMap (rows : Rows) : Except Exn Snapshots := do
  let grouped ← partition rows 2 "TPC-H snapshot"
  let dim ← snapshotOf grouped.dimCustomer
  let fct ← snapshotOf grouped.fctOrders
  return ⟨dim, fct⟩

def schemaMap (rows : Rows) : Except Exn (Both Rows) := partition rows 3 "TPC-H schema"

/-- `tasks._property_map` -/
def propertyRowsByTable (rows : Rows) : Except Exn (Both Rows) := partition rows 3 "TPC-H provenance"

/-- `_positive_integer` -/
def positiveInteger (value : Json) (label : String) : Except Exn Int :=
  match value with
  | .int n => do
      require (0 < n) (.contract (label ++ " must be positive"))
      return n
  | _ => throw (.contract (label ++ " must be positive"))

section
variable (py : Python)

/-- The revenue of the totals is a positive decimal of scale two. -/
def checkRevenue (value : Json) : Except Exn Unit := do
  let result ← orElse (decimalOf py value) (.contract "TPC-H source revenue must be a finite decimal")
  match result with
  | .finite d =>
      require d.positive (.contract "TPC-H source revenue must be a positive scale-2 decimal")
      let quantized ← orElse (d.quantize (-2)) .invalidOperation
      require (quantized.same d) (.contract "TPC-H source revenue must be a positive scale-2 decimal")
  | _ => throw (.contract "TPC-H source revenue must be a positive scale-2 decimal")

def validateSourceTotals (rows : Rows) : Except Exn SourceTotals :=
  match rows with
  | [[orders, revenue, lines, unmatched]] => do
      let orderCount ← positiveInteger orders "TPC-H source order count"
      let lineCount ← positiveInteger lines "TPC-H source line count"
      require (orderCount ≤ lineCount) (.contract "TPC-H source line count must be at least order count")
      checkRevenue py revenue
      match unmatched with
      | .int 0 => return ⟨orderCount, revenue, lineCount, 0⟩
      | _ => throw (.contract "TPC-H customer join is incomplete")
  | _ => throw (.contract "TPC-H source totals must contain exactly one row")

def provenanceOf (rows : Rows) : Except Exn Provenance := do
  let byTable ← propertyRowsByTable rows
  validateTpchProvenance py byTable.dimCustomer byTable.fctOrders

def schemasOf (rows : Rows) : Except Exn (Both Rows) := do
  let schemas ← schemaMap rows
  validateTpchSchemas py schemas.dimCustomer schemas.fctOrders
  return schemas

/-- `run_tpch_bi` -/
def runTpchBi : Task Artifact := do
  let propertiesBefore ← execute .tpchProperties
  let provenance ← Proc.lift (provenanceOf py propertiesBefore.rows)
  let snapshotsBeforeResult ← execute .tpchSnapshots
  let snapshotsBefore ← Proc.lift (snapshotMap snapshotsBeforeResult.rows)
  let schemasResult ← execute .tpchSchemas
  let schemas ← Proc.lift (schemasOf py schemasResult.rows)
  let totalsResult ← execute .tpchSourceTotals
  let sourceTotals ← Proc.lift (validateSourceTotals py totalsResult.rows)
  let result ← execute .tpchSegmentRevenue
  let propertiesAfter ← execute .tpchProperties
  let provenanceAfter ← Proc.lift (provenanceOf py propertiesAfter.rows)
  let snapshotsAfterResult ← execute .tpchSnapshots
  let snapshotsAfter ← Proc.lift (snapshotMap snapshotsAfterResult.rows)
  Proc.lift (buildTpchArtifact py provenance schemas result.rows sourceTotals snapshotsBefore
    snapshotsAfter provenanceAfter
    [propertiesBefore.queryId, snapshotsBeforeResult.queryId, schemasResult.queryId,
      totalsResult.queryId, result.queryId, propertiesAfter.queryId, snapshotsAfterResult.queryId])

end

end TrinoBi
