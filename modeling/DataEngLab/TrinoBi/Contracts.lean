/-
The result contracts of the TPC-H business-intelligence task.

A query gives rows of decoded JSON cells.  Every function here checks the shape it relies
on before it reads a cell, and the last one, `buildTpchArtifact`, compares what was read
before the result with what was read after it and reconciles the result with the totals of
its sources.

Two things of Python are parameters: the text of a float (`repr`), and when two keys of a
set are equal.  Lower case is one too; the types it is applied to are ASCII.
-/
import DataEngLab.Lib.Checks
import DataEngLab.Lib.Decimal
import DataEngLab.Lib.Digest
import DataEngLab.Lib.JsonRaw

namespace TrinoBi

open Lib

/-- What the functions raise; `client` is an exception of the Trino client. -/
inductive Exn where
  | contract (message : String)
  | invalidOperation
  | typeError
  | keyError
  | client

/-- Parts of Python whose result depends on floats or on the Unicode tables. -/
structure Python where
  floatText : Str → Str
  sameKey : Json → Json → Bool
  lower : Str → Str

/-- The queries of the task. -/
inductive QueryName where
  | tpchProperties
  | tpchSnapshots
  | tpchSchemas
  | tpchSourceTotals
  | tpchSegmentRevenue
deriving DecidableEq

abbrev Rows := List (List Json)

structure QueryResult where
  queryId : Str
  rows : Rows

def provenanceKeys : List Str :=
  ["data_eng_lab.dataset", "data_eng_lab.dataset.scale", "data_eng_lab.dataset.plan_id",
    "data_eng_lab.dataset.publication_id", "data_eng_lab.dataset.manifest_sha256"].map lit

def tpchDimSchema : List (Str × Str) :=
  [("c_custkey", "bigint"), ("c_name", "varchar"), ("c_nationkey", "integer"),
    ("c_mktsegment", "varchar")].map fun c => (lit c.1, lit c.2)

def tpchFactSchema : List (Str × Str) :=
  [("o_orderkey", "bigint"), ("o_custkey", "bigint"), ("o_orderdate", "date"),
    ("revenue", "decimal(25,2)"), ("line_count", "bigint")].map fun c => (lit c.1, lit c.2)

def tpchResultColumns : List (String × String) :=
  [("market_segment", "varchar"), ("total_revenue", "decimal(38, 2)"), ("line_count", "bigint"),
    ("order_count", "bigint")]

def tpchArtifactMaxBytes : Nat := 64 * 1024

/-- `not s.strip()` -/
def isBlank (s : Str) : Bool := s.all isPythonSpace

section
variable (py : Python)

/-! ### Provenance -/

/-- A dictionary, its keys in the order they were first set. -/
abbrev Provenance := List (Str × Str)

def hashable : Json → Bool
  | .arr _ => false
  | .obj _ => false
  | _ => true

def allDistinct (same : α → α → Bool) : List α → Bool
  | [] => true
  | x :: xs => !xs.any (same x) && allDistinct same xs

def provenanceKey : Json → Except Exn Str
  | .str k =>
      if k ∈ provenanceKeys then .ok k
      else .error (.contract "TPC-H provenance key is not one of the exact five keys")
  | _ => .error (.contract "TPC-H provenance key is not one of the exact five keys")

def provenanceValue : Json → Except Exn Str
  | .str v => if isBlank v then .error (.contract "TPC-H provenance contains a blank value") else .ok v
  | _ => .error (.contract "TPC-H provenance contains a blank value")

/-- One turn of the loop over the rows. -/
def addProperty (result : Provenance) (row : List Json) : Except Exn Provenance :=
  match row with
  | [key, value] => do
      let key ← provenanceKey key
      require (!result.any (·.1 == key)) (.contract "TPC-H provenance contains a duplicate key")
      let value ← provenanceValue value
      return result ++ [(key, value)]
  | _ => .error (.contract "TPC-H provenance row shape is invalid")

/-- `contracts._property_map` -/
def propertyMap (rows : Rows) : Except Exn Provenance := do
  let observedKeys := rows.filterMap fun row => match row with
    | [key, _] => some key
    | _ => none
  require (observedKeys.all hashable) .typeError
  require (allDistinct py.sameKey observedKeys) (.contract "TPC-H provenance contains a duplicate key")
  require (rows.length == provenanceKeys.length)
    (.contract "TPC-H provenance must contain exactly five rows")
  let result ← rows.foldlM addProperty []
  checkAll (fun key => do
    let value ← orElse (result.lookup key) .keyError
    return (key, value)) provenanceKeys

/-- `[0-9a-f]{12}4[0-9a-f]{3}[89ab][0-9a-f]{15}` -/
def publicationPattern : Pattern :=
  Pattern.times 12 isHex ++ [(· == 52)] ++ Pattern.times 3 isHex ++ [isVariant] ++ Pattern.times 15 isHex

/-- The values of a provenance map have the form of identities. -/
def identityForm (dim : Provenance) : Bool :=
  let value (key : String) := (dim.lookup (lit key)).getD []
  value "data_eng_lab.dataset" == lit "tpch" &&
    ["tiny", "small", "medium"].any (fun s => value "data_eng_lab.dataset.scale" == lit s) &&
    isSha256 (value "data_eng_lab.dataset.plan_id") &&
    publicationPattern.fullmatch (value "data_eng_lab.dataset.publication_id") &&
    isSha256 (value "data_eng_lab.dataset.manifest_sha256")

def validateTpchProvenance (dimRows factRows : Rows) : Except Exn Provenance := do
  let dim ← propertyMap py dimRows
  let fact ← propertyMap py factRows
  require (dim == fact) (.contract "TPC-H provenance maps do not match")
  require (identityForm dim) (.contract "TPC-H provenance identity is malformed")
  return dim

/-! ### Schemas -/

/-- `contracts._schema` -/
def schemaOf (rows : Rows) : Except Exn (List (Str × Str)) :=
  checkAll (fun row => match row with
    | [.str name, .str type] => .ok (name, py.lower type)
    | _ => .error (.contract "table schema row is invalid")) rows

def validateTpchSchemas (dimRows factRows : Rows) : Except Exn Unit := do
  let dim ← schemaOf py dimRows
  require (dim == tpchDimSchema) (.contract "dim_customer schema does not match #107")
  let fact ← schemaOf py factRows
  require (fact == tpchFactSchema) (.contract "fct_orders schema does not match #107")

/-! ### Numbers -/

/-- `contracts._integer` -/
def integer (value : Json) (label : String) (positive : Bool) : Except Exn Int :=
  match value with
  | .int n => do
      require (!positive || decide (0 < n)) (.contract (label ++ " must be positive"))
      return n
  | _ => .error (.contract (label ++ " must be an integer"))

/-- `Decimal(str(value))`; `none` is `InvalidOperation`. -/
def decimalOf : Json → Option Decimal
  | .int n => Decimal.ofText (printInt n)
  | .float text => Decimal.ofText (py.floatText text)
  | .str s => Decimal.ofText s
  | _ => none

/-- `contracts._decimal` with `scale=2, positive=True`, as all its callers here have it. -/
def decimal (value : Json) (label : String) : Except Exn Dec := do
  let result ← orElse (decimalOf py value) (.contract (label ++ " must be a finite decimal"))
  match result with
  | .finite d =>
      let quantized ← orElse (d.quantize (-2)) .invalidOperation
      require (quantized.same d) (.contract (label ++ " has invalid scale"))
      require d.positive (.contract (label ++ " must be positive"))
      return d
  | _ => .error (.contract (label ++ " must be finite"))

/-! ### The artifact -/

structure Snapshots where
  dimCustomer : Int
  fctOrders : Int
deriving DecidableEq

/-- `contracts._snapshots`; both tables are there by the type. -/
def checkSnapshots (value : Snapshots) : Except Exn Snapshots := do
  require (0 < value.dimCustomer) (.contract "dim_customer snapshot must be positive")
  require (0 < value.fctOrders) (.contract "fct_orders snapshot must be positive")
  return value

structure SourceTotals where
  factOrderCount : Int
  factRevenue : Json
  factLineCount : Int
  unmatchedOrders : Int

structure ResultRow where
  segment : Str
  totalRevenue : Str
  lineCount : Int
  orderCount : Int

/-- The rows taken so far and their sums. -/
structure Tally where
  rows : List ResultRow
  revenue : Dec
  lines : Int
  orders : Int

def Tally.start : Tally := ⟨[], ⟨false, 0, 0⟩, 0, 0⟩

def segmentOf : Json → Except Exn Str
  | .str s => if isBlank s then .error (.contract "market segment must be nonblank") else .ok s
  | _ => .error (.contract "market segment must be nonblank")

/-- One turn of the loop over the result rows. -/
def addRow (t : Tally) (row : List Json) : Except Exn Tally :=
  match row with
  | [segment, revenue, lines, orders] => do
      let segment ← segmentOf segment
      require (!t.rows.any (·.segment == segment)) (.contract "market segments must be unique")
      let revenue ← decimal py revenue "total revenue"
      let lineCount ← integer lines "line_count" true
      let orderCount ← integer orders "order_count" true
      require (orderCount ≤ lineCount) (.contract "line_count must be at least order_count")
      let fixed ← orElse (revenue.quantize (-2)) .invalidOperation
      return ⟨t.rows ++ [⟨segment, fixed.fixed, lineCount, orderCount⟩], t.revenue.add revenue,
        t.lines + lineCount, t.orders + orderCount⟩
  | _ => .error (.contract "TPC-H result row shape is invalid")

/-- The totals of the sources and the sums over the result agree. -/
def reconcile (t : Tally) (sourceTotals : SourceTotals) : Except Exn Unit := do
  require (sourceTotals.unmatchedOrders == 0) (.contract "TPC-H customer join is incomplete")
  let sourceRevenue ← decimal py sourceTotals.factRevenue "source revenue"
  require (t.revenue.same sourceRevenue) (.contract "TPC-H result revenue does not reconcile")
  require (0 < sourceTotals.factLineCount) (.contract "source line count must be positive")
  require (t.lines == sourceTotals.factLineCount)
    (.contract "TPC-H result line_count does not reconcile")
  require (0 < sourceTotals.factOrderCount) (.contract "source order count must be positive")
  require (t.orders == sourceTotals.factOrderCount)
    (.contract "TPC-H result order count does not reconcile")

/-- `contracts._query_ids` -/
def checkQueryIds (values : List Str) : Except Exn (List Str) := do
  require (values ≠ [] && !values.any isBlank) (.contract "query IDs must be nonblank strings")
  require (allDistinct (· == ·) values) (.contract "query IDs must be unique")
  return values

structure Artifact where
  rows : List ResultRow
  provenance : Provenance
  snapshots : Snapshots
  queryIds : List Str
  resultSha256 : Str

def ResultRow.json (r : ResultRow) : Json :=
  .arr [.str r.segment, .str r.totalRevenue, .int r.lineCount, .int r.orderCount]

def columnsJson : Json :=
  .arr (tpchResultColumns.map fun c =>
    .obj (members [("name", .str (lit c.1)), ("type", .str (lit c.2))]))

def rowsJson (rows : List ResultRow) : Json := .arr (rows.map ResultRow.json)

def Artifact.json (a : Artifact) : Json :=
  .obj (members [("artifact_version", .int 1), ("pipeline", .str (lit "tpch_bi_query")),
    ("columns", columnsJson), ("rows", rowsJson a.rows), ("row_count", .int a.rows.length),
    ("source", .obj (members [("provenance", .obj (a.provenance.map fun p => (p.1, .str p.2))),
      ("snapshots", .obj (members [("dim_customer", .int a.snapshots.dimCustomer),
        ("fct_orders", .int a.snapshots.fctOrders)]))])),
    ("query_ids", .arr (a.queryIds.map Json.str)), ("result_sha256", .str a.resultSha256)])

/-- `contracts.canonical_json_bytes`; nothing in an artifact is a float. -/
def canonicalJsonBytes (value : Json) : Except Exn Bytes :=
  orElse (canonicalJson value) (.contract "artifact is not canonical JSON")

/-- `contracts._finish_artifact`; the fields are the allowed ones by the type. -/
def finishArtifact (a : Artifact) (maxBytes : Nat) : Except Exn Artifact := do
  let payload ← canonicalJsonBytes (.obj (members [("columns", columnsJson), ("rows", rowsJson a.rows)]))
  let done := { a with resultSha256 := sha256 payload }
  let body ← canonicalJsonBytes done.json
  require (body.length ≤ maxBytes) (.contract "artifact exceeds its byte bound")
  return done

/-- The tables whose rows a query lists, apart. -/
structure Both (α : Type) where
  dimCustomer : α
  fctOrders : α

def buildTpchArtifact (provenance : Provenance) (schemas : Both Rows) (rows : Rows)
    (sourceTotals : SourceTotals) (snapshotsBefore snapshotsAfter : Snapshots)
    (provenanceAfter : Provenance) (queryIds : List Str) : Except Exn Artifact := do
  validateTpchSchemas py schemas.dimCustomer schemas.fctOrders
  require (provenanceAfter == provenance) (.contract "TPC-H provenance changed during the task")
  let before ← checkSnapshots snapshotsBefore
  let after ← checkSnapshots snapshotsAfter
  require (after == before) (.contract "TPC-H snapshot changed during the task")
  require (rows.length == 5) (.contract "TPC-H result must contain five market segments")
  let tally ← rows.foldlM (addRow py) Tally.start
  reconcile py tally sourceTotals
  let queryIds ← checkQueryIds queryIds
  finishArtifact ⟨tally.rows.insertionSort fun a b => a.segment ≤ b.segment, provenance, before, queryIds,
    []⟩ tpchArtifactMaxBytes

end

end TrinoBi
