/-
The store of the quality run, and the Spark store over a catalog.

The pipeline is written against `QualityStore`.  Two stores are given.  `directStore` makes
one call for each operation, so its answers are any answers at all: what is proved of it is
proved of every store.  `sparkQualityStore` is the store of the program, over the calls of
`QualityStorageBackend`; here it is the backend whose answers are arbitrary.
-/
import DataEngLab.Quality.Transforms

namespace Quality

open Lib

/-- A table of the catalog, or a file frame: its rows are counted in a `Long`. -/
structure Table extends Frame where
  countable : rows.length < 2 ^ 63

theorem countable_nil : ([] : List Row).length < 2 ^ 63 := by decide

abbrev Properties := List (Str × Str)

/-- `QualityProperties.forRun` -/
def forRun (runId : Str) (snapshotId : Int) : Except Thrown Properties := do
  require (isSha256 runId) (lit "quality run ID is invalid")
  require (0 < snapshotId) (lit "source snapshot must be positive")
  return [(lit "data_eng_lab.quality.binding", lit "iceberg_snapshot"),
    (lit "data_eng_lab.quality.source_table", sourceTable),
    (lit "data_eng_lab.quality.source_snapshot_id", printInt snapshotId),
    (lit "data_eng_lab.quality.rule_version", ruleVersion),
    (lit "data_eng_lab.quality.run_id", runId)]

structure QualityStore {S : Type} (A : S → Type) where
  ensureFactsTable : Place → Run A Unit
  captureSource : Place → Run A (Option SourceSnapshot)
  readBronze : Place → Run A Table
  replaceSilver : Place → Str → Frame → Properties → Run A Unit
  readSilver : Place → Str → Run A Table
  mergeFacts : Place → List QualityFact → Run A Unit
  readFacts : Place → Str → Run A Frame

/-! ### Any store -/

inductive StoreCall where
  | ensureFactsTable
  | captureSource
  | readBronze
  | replaceSilver (identifier : Str) (frame : Frame) (properties : Properties)
  | readSilver (identifier : Str)
  | mergeFacts (values : List QualityFact)
  | readFacts (runId : Str)

def StoreAnswer : StoreCall → Type
  | .ensureFactsTable => Unit
  | .captureSource => Option SourceSnapshot
  | .readBronze => Table
  | .replaceSilver _ _ _ => Unit
  | .readSilver _ => Table
  | .mergeFacts _ => Unit
  | .readFacts _ => Frame

def directStore : QualityStore StoreAnswer where
  ensureFactsTable p := ask p StoreCall.ensureFactsTable
  captureSource p := ask p StoreCall.captureSource
  readBronze p := ask p StoreCall.readBronze
  replaceSilver p identifier frame properties :=
    ask p (StoreCall.replaceSilver identifier frame properties)
  readSilver p identifier := ask p (StoreCall.readSilver identifier)
  mergeFacts p values := ask p (StoreCall.mergeFacts values)
  readFacts p runId := ask p (StoreCall.readFacts runId)

/-! ### The Spark store -/

/-- The calls of `QualityStorageBackend`; a query is collected where the store collects it. -/
inductive BackendCall where
  | tableExists (identifier : Str)
  | table (identifier : Str)
  | querySnapshots
  | queryProperties (identifier : Str)
  | queryFacts (runId : Str)
  | createNamespace (identifier : Str)
  | createFactsTable
  | replace (identifier : Str) (frame : Frame)
  | setProperties (identifier : Str) (values : Properties)
  | mergeFacts (values : List QualityFact)

/-- A row of the snapshots of `main`: the time is in microseconds. -/
structure SnapshotRow where
  snapshotId : Option Int
  committedAt : Option Int

def BackendAnswer : BackendCall → Type
  | .tableExists _ => Bool
  | .table _ => Table
  | .querySnapshots => List SnapshotRow
  | .queryProperties _ => List (Str × Str)
  | .queryFacts _ => Frame
  | _ => Unit

namespace Backend

def tableExists (p : Place) (identifier : Str) : Run BackendAnswer Bool :=
  ask p (BackendCall.tableExists identifier)

def table (p : Place) (identifier : Str) : Run BackendAnswer Table :=
  ask p (BackendCall.table identifier)

def querySnapshots (p : Place) : Run BackendAnswer (List SnapshotRow) :=
  ask p BackendCall.querySnapshots

def queryProperties (p : Place) (identifier : Str) : Run BackendAnswer (List (Str × Str)) :=
  ask p (BackendCall.queryProperties identifier)

def queryFacts (p : Place) (runId : Str) : Run BackendAnswer Frame :=
  ask p (BackendCall.queryFacts runId)

def createNamespace (p : Place) (identifier : Str) : Run BackendAnswer Unit :=
  ask p (BackendCall.createNamespace identifier)

def createFactsTable (p : Place) : Run BackendAnswer Unit := ask p BackendCall.createFactsTable

def replace (p : Place) (identifier : Str) (frame : Frame) : Run BackendAnswer Unit :=
  ask p (BackendCall.replace identifier frame)

def setProperties (p : Place) (identifier : Str) (values : Properties) : Run BackendAnswer Unit :=
  ask p (BackendCall.setProperties identifier values)

def mergeFacts (p : Place) (values : List QualityFact) : Run BackendAnswer Unit :=
  ask p (BackendCall.mergeFacts values)

end Backend

def sourceSchemaMismatch : QualityFailure :=
  ⟨lit "source_schema", .schemaMismatch, lit "Bronze source schema does not match", by decide, by decide⟩

theorem validCategory_sourceMetadata : validCategory (lit "source_metadata") = true := by decide

def sourceMetadataInvalid : QualityFailure :=
  ⟨lit "source_metadata", .readbackMismatch, lit "Bronze main snapshot metadata is invalid",
    validCategory_sourceMetadata, by decide⟩

/-- The schema check of `captureSource`, which turns a failed `require` into a failure of the run. -/
def requireSourceSchema (source : Frame) : Except Thrown Unit :=
  match assertExactSchema source with
  | .error (.illegalArgument _) => .error (.failure sourceSchemaMismatch)
  | r => r

/-- The snapshot the rows of `main` name; the unboxed `NULL` is zero. -/
def mainSnapshot : List SnapshotRow → Except Thrown (Option SourceSnapshot)
  | [] => .ok none
  | [⟨snapshotId, some committedAt⟩] =>
      if snapshotId.getD 0 ≤ 0 then .error (.failure sourceMetadataInvalid)
      else .ok (some ⟨snapshotId.getD 0, committedAt * 1000, schemaSha256⟩)
  | _ => .error (.failure sourceMetadataInvalid)

def silverTables : List Str := [cleanTable, quarantineTable]

def readProperties (p : Place) (identifier : Str) : Run BackendAnswer Properties := do
  Proc.lift (require (silverTables.contains identifier) (lit "quality Silver table is invalid"))
  let pairs ← Backend.queryProperties p identifier
  Proc.lift (require (decide (pairs.map Prod.fst).Nodup) (lit "quality Silver properties are duplicated"))
  return pairs.filter fun pair => (lit "data_eng_lab.quality.").isPrefixOf pair.1

/-- `runIds.size == 1 && runIds.head.matches("[0-9a-f]{64}")` -/
def oneRun : List QualityFact → Bool
  | [] => false
  | value :: rest => rest.all (·.qualityRunId == value.qualityRunId) && isSha256 value.qualityRunId

/-- The facts of a batch may be merged. -/
def requireBatch (values : List QualityFact) : Except Thrown Unit := do
  require (!values.isEmpty && values.length ≤ rules.length) (lit "quality facts batch is invalid")
  require (oneRun values) (lit "quality facts must bind to one run")
  require (decide (values.map fun value => (value.qualityRunId, value.ruleId)).Nodup)
    (lit "quality facts keys must be unique")
  require (values.all fun value => expectedRuleIds.contains value.ruleId)
    (lit "quality fact rule is invalid")
  values.forM fun value => do
    requireRuleStatusDiagnostic value.ruleId value.status value.diagnosticCode
    require (value.severity == severity value.status) (lit "quality fact severity is invalid")

def ensureFactsTable (p : Place) : Run BackendAnswer Unit := do
  let tableExists ← Backend.tableExists p factsTable
  match tableExists with
  | false => do
      Backend.createNamespace p (lit "lakehouse.gold")
      Backend.createFactsTable p
  | true => do
      let frame ← Backend.table p factsTable
      Proc.lift (require (frame.schema == factsSchema) (lit "quality facts schema is invalid"))

def captureSource (p : Place) : Run BackendAnswer (Option SourceSnapshot) := do
  let tableExists ← Backend.tableExists p sourceTable
  match tableExists with
  | false => return none
  | true => do
      let source ← Backend.table p sourceTable
      Proc.lift (requireSourceSchema source.toFrame)
      let rows ← Backend.querySnapshots p
      Proc.lift (mainSnapshot rows)

def readBronze (p : Place) : Run BackendAnswer Table := do
  let frame ← Backend.table p sourceTable
  Proc.lift (assertExactSchema frame.toFrame)
  return frame

def replaceSilver (p : Place) (identifier : Str) (frame : Frame) (properties : Properties) :
    Run BackendAnswer Unit := do
  Proc.lift (require (silverTables.contains identifier) (lit "quality Silver table is invalid"))
  Proc.lift (assertExactSchema frame)
  Backend.replace p identifier frame
  Backend.setProperties p identifier properties
  let observed ← readProperties p identifier
  Proc.lift (require (observed.isPerm properties) (lit "quality Silver properties mismatch"))

def readSilver (p : Place) (identifier : Str) : Run BackendAnswer Table := do
  Proc.lift (require (silverTables.contains identifier) (lit "quality Silver table is invalid"))
  let frame ← Backend.table p identifier
  Proc.lift (assertExactSchema frame.toFrame)
  return frame

def mergeFacts (p : Place) (values : List QualityFact) : Run BackendAnswer Unit := do
  Proc.lift (requireBatch values)
  Backend.mergeFacts p values

def readFacts (p : Place) (runId : Str) : Run BackendAnswer Frame := do
  Proc.lift (require (isSha256 runId) (lit "quality run ID is invalid"))
  Backend.queryFacts p runId

def sparkQualityStore : QualityStore BackendAnswer :=
  ⟨ensureFactsTable, captureSource, readBronze, replaceSilver, readSilver, mergeFacts, readFacts⟩

end Quality
