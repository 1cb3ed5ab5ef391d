/-
The queries of the dashboards: `latest.sql` and `trend.sql` up to their complete runs.

Both join the facts to the rules they expect, group them by run, and keep the groups that meet
the same conditions.  They differ in what they select of a group.  A condition of `HAVING`
speaks of aggregates; what it asks of the fact of one rule is a `count_if(...) = 1`, and what it
asks of two facts compares their columns by `max(CASE WHEN ... END)`.

The rows of the table are read as `factFrame` writes them (`QualityFact.columns_cells`).
-/
import DataEngLab.Lib.Sql
import DataEngLab.Quality.Contract

namespace Quality

open Lib

/-! ### Rows -/

/-- A row of the facts table as a query reads it: a time is in microseconds, and a value in units of
the ninth decimal place. -/
structure FactRow where
  qualityRunId : Str
  logicalDate : Int
  dataIntervalEnd : Int
  datasetId : Str
  bindingType : Str
  upstreamDagId : Str
  sourceTable : Str
  sourceSnapshotId : Option Int
  sourceSnapshotCommittedAt : Option Int
  sourceSchemaSha256 : Option Str
  layer : Str
  ruleId : Str
  ruleVersion : Str
  owner : Str
  metricName : Str
  metricNumerator : Option Int
  metricDenominator : Option Int
  metricValue : Option Int
  warnThreshold : Option Str
  failThreshold : Str
  severity : Str
  status : Str
  diagnosticCode : Str
deriving DecidableEq

/-- The columns of a fact that was written. -/
def QualityFact.columns (f : QualityFact) : FactRow where
  qualityRunId := f.qualityRunId
  logicalDate := f.logicalDate / 1000
  dataIntervalEnd := f.dataIntervalEnd / 1000
  datasetId := f.datasetId
  bindingType := f.bindingType
  upstreamDagId := f.upstreamDagId
  sourceTable := f.sourceTable
  sourceSnapshotId := f.sourceSnapshotId
  sourceSnapshotCommittedAt := f.sourceSnapshotCommittedAt.map (· / 1000)
  sourceSchemaSha256 := f.sourceSchemaSha256
  layer := f.layer.text
  ruleId := f.ruleId.text
  ruleVersion := f.ruleVersion
  owner := f.owner
  metricName := f.metricName
  metricNumerator := f.metricNumerator
  metricDenominator := f.metricDenominator
  metricValue := f.metricValue
  warnThreshold := f.warnThreshold
  failThreshold := f.failThreshold
  severity := f.severity.text
  status := f.status.text
  diagnosticCode := f.diagnosticCode.text

/-- The cells the columns are read from. -/
def FactRow.cells (r : FactRow) : Row :=
  [.string r.qualityRunId, .timestamp r.logicalDate, .timestamp r.dataIntervalEnd,
    .string r.datasetId, .string r.bindingType, .string r.upstreamDagId, .string r.sourceTable,
    optionCell .long r.sourceSnapshotId, optionCell .timestamp r.sourceSnapshotCommittedAt,
    optionCell .string r.sourceSchemaSha256, .string r.layer, .string r.ruleId,
    .string r.ruleVersion, .string r.owner, .string r.metricName,
    optionCell .long r.metricNumerator, optionCell .long r.metricDenominator,
    optionCell .decimal r.metricValue, optionCell .string r.warnThreshold, .string r.failThreshold,
    .string r.severity, .string r.status, .string r.diagnosticCode]

/-- A fact is read as it was written. -/
theorem QualityFact.columns_cells (f : QualityFact) : f.columns.cells = f.row := by
  cases h : f.sourceSnapshotCommittedAt <;>
    simp [FactRow.cells, QualityFact.columns, QualityFact.row, timestampCell, optionCell, h]

/-! ### The expected rules -/

structure ExpectedRule where
  ruleId : Str
  ruleVersion : Str
  layer : Str
  owner : Str
  metricName : Str
  warnThreshold : Option Str
  failThreshold : Str
deriving DecidableEq

/-- `expected_rules` -/
def expectedRules : List ExpectedRule :=
  [⟨lit "bronze.source_available.v1", lit "nyc_taxi_quality_v1", lit "Bronze", lit "Data Engineering",
      lit "source_row_count", none, lit "rows=0"⟩,
    ⟨lit "bronze.schema.v1", lit "nyc_taxi_quality_v1", lit "Bronze", lit "Data Engineering",
      lit "schema_match_ratio", none, lit "ratio<1.000000000"⟩,
    ⟨lit "bronze.snapshot_freshness.v1", lit "nyc_taxi_quality_v1", lit "Bronze",
      lit "Data Engineering", lit "snapshot_age_seconds", none, lit "seconds>21600"⟩,
    ⟨lit "bronze.invalid_ratio.v1", lit "nyc_taxi_quality_v1", lit "Bronze",
      lit "Data Quality Engineering", lit "invalid_row_ratio", some (lit "ratio>0.010000000"),
      lit "ratio>0.050000000"⟩,
    ⟨lit "silver.partition_conservation.v1", lit "nyc_taxi_quality_v1", lit "Silver",
      lit "Data Quality Engineering", lit "partition_row_ratio", none, lit "ratio!=1.000000000"⟩,
    ⟨lit "silver.clean_nonempty.v1", lit "nyc_taxi_quality_v1", lit "Silver",
      lit "Data Quality Engineering", lit "clean_row_count", none, lit "rows=0"⟩,
    ⟨lit "silver.quarantine_ratio.v1", lit "nyc_taxi_quality_v1", lit "Silver",
      lit "Data Quality Engineering", lit "quarantine_row_ratio", some (lit "ratio>0.010000000"),
      lit "ratio>0.050000000"⟩,
    ⟨lit "silver.output_readback.v1", lit "nyc_taxi_quality_v1", lit "Silver",
      lit "Data Platform Engineering", lit "readback_check_ratio", none, lit "ratio<1.000000000"⟩]

/-- The condition of the join. -/
def joins (f : FactRow) (e : ExpectedRule) : Truth :=
  Truth.all [Sql.eq (some f.ruleId) (some e.ruleId), Sql.eq (some f.ruleVersion) (some e.ruleVersion),
    Sql.eq (some f.layer) (some e.layer), Sql.eq (some f.owner) (some e.owner),
    Sql.eq (some f.metricName) (some e.metricName), Sql.same f.warnThreshold e.warnThreshold,
    Sql.eq (some f.failThreshold) (some e.failThreshold)]

/-- A row of the join; a fact that no rule expects has none. -/
abbrev Joined := FactRow × Option ExpectedRule

def leftJoin (table : List FactRow) : List Joined :=
  table.flatMap fun f => match expectedRules.filter fun e => (joins f e).holds with
    | [] => [(f, none)]
    | found => found.map fun e => (f, some e)

/-! ### What is asked of a fact -/

namespace FactRow

def judged (f : FactRow) (status severity diagnostic : String) : Truth :=
  Truth.all [Sql.eq (some f.status) (some (lit status)), Sql.eq (some f.severity) (some (lit severity)),
    Sql.eq (some f.diagnosticCode) (some (lit diagnostic))]

def passes (f : FactRow) : Truth := f.judged "pass" "info" "ok"

def isRule (f : FactRow) (ruleId : String) : Truth := Sql.eq (some f.ruleId) (some (lit ruleId))

/-- `f.metric_value = cast(f.metric_numerator AS decimal(38, 9))` -/
def counts (f : FactRow) : Truth := Sql.eq f.metricValue (Sql.toDecimal f.metricNumerator 9)

/-- `f.metric_value = cast(1 AS decimal(38, 9))` -/
def isWhole (f : FactRow) : Truth := Sql.eq f.metricValue (Sql.toDecimal (some 1) 9)

def sourceAvailable (f : FactRow) : Truth :=
  Truth.all [f.isRule "bronze.source_available.v1", Sql.above f.metricNumerator (some 0),
    some f.metricDenominator.isNone, f.counts, f.passes]

/-- A rule with a number of checks that all held. -/
def allHeld (ruleId : String) (checks : Int) (f : FactRow) : Truth :=
  Truth.all [f.isRule ruleId, Sql.eq f.metricNumerator (some checks),
    Sql.eq f.metricDenominator (some checks), f.isWhole, f.passes]

def schema (f : FactRow) : Truth := allHeld "bronze.schema.v1" 20 f

def snapshotFreshness (f : FactRow) : Truth :=
  Truth.all [f.isRule "bronze.snapshot_freshness.v1", Sql.le f.metricNumerator (some 21600),
    Sql.eq f.metricDenominator (some 21600),
    Sql.eq f.metricNumerator
      (Sql.wholeSeconds (Sql.dateDiffMillis f.sourceSnapshotCommittedAt (some f.dataIntervalEnd))),
    f.counts, f.passes]

/-- A ratio of two counts, with the status its value has. -/
def ratio (ruleId : String) (f : FactRow) : Truth :=
  Truth.all [f.isRule ruleId, Sql.le (some 0) f.metricNumerator,
    Sql.le f.metricNumerator f.metricDenominator, Sql.above f.metricDenominator (some 0),
    Sql.eq f.metricValue (Sql.divide (Sql.toDecimal f.metricNumerator 9) 9 f.metricDenominator 0),
    (Truth.all [Sql.le f.metricValue (some 10000000), f.passes]).or
      (Truth.all [Sql.above f.metricValue (some 10000000), Sql.le f.metricValue (some 50000000),
        f.judged "warn" "warning" "threshold_warn"])]

def invalidRatio (f : FactRow) : Truth := ratio "bronze.invalid_ratio.v1" f

def partitionConservation (f : FactRow) : Truth :=
  Truth.all [f.isRule "silver.partition_conservation.v1", Sql.above f.metricNumerator (some 0),
    Sql.eq f.metricNumerator f.metricDenominator, f.isWhole, f.passes]

def cleanNonempty (f : FactRow) : Truth :=
  Truth.all [f.isRule "silver.clean_nonempty.v1", Sql.above f.metricNumerator (some 0),
    Sql.above f.metricDenominator (some 0), f.counts, f.passes]

def quarantineRatio (f : FactRow) : Truth := ratio "silver.quarantine_ratio.v1" f

def outputReadback (f : FactRow) : Truth := allHeld "silver.output_readback.v1" 8 f

end FactRow

/-! ### What is asked of a group -/

/-- A column of the facts that is never `NULL`. -/
def required {α : Type} (column : FactRow → α) (r : Joined) : Option α := some (column r.1)

/-- A column of the facts that may be `NULL`. -/
def nullable {α : Type} (column : FactRow → Option α) (r : Joined) : Option α := column r.1

/-- `count(column) = 8 AND count(DISTINCT column) = 1` -/
def oneValue {α : Type} [DecidableEq α] (column : Joined → Option α) (rows : List Joined) : Truth :=
  Truth.all [some (Sql.count column rows == 8), some (Sql.countDistinct column rows == 1)]

/-- The same, and `min(column) = value`. -/
def isValue (column : Joined → Option Str) (value : Str) (rows : List Joined) : Truth :=
  Truth.all [oneValue column rows, Sql.eq (Sql.minOf column rows) (some value)]

/-- `count_if(condition) = 1` -/
def once (condition : FactRow → Truth) (rows : List Joined) : Truth :=
  some (Sql.countIf (fun r : Joined => condition r.1) rows == 1)

/-- `max(CASE WHEN f.rule_id = ruleId THEN column END)` -/
def ofRule (ruleId : String) (column : FactRow → Option Int) (rows : List Joined) : Option Int :=
  Sql.maxOf (Sql.caseWhen (fun r : Joined => r.1.ruleId) (lit ruleId) (nullable column)) rows

/-- The digest of the dates and the snapshot of a group. -/
def runDigest (rows : List Joined) : Option Str := do
  let logicalDate ← Sql.maxOf (required FactRow.logicalDate) rows
  let snapshotId ← Sql.maxOf (nullable FactRow.sourceSnapshotId) rows
  return sha256Text (lit "nyc_taxi" ++ 10 :: Sql.formatDatetime logicalDate ++ 10 ::
    printInt snapshotId ++ 10 :: lit "nyc_taxi_quality_v1")

/-- `a + b` -/
def plus : Option Int → Option Int → Option Int
  | some x, some y => some (x + y)
  | _, _ => none

def numbered (rows : List Joined) : Truth :=
  Truth.all [some (rows.length == 8), some (Sql.count (fun r : Joined => r.2) rows == 8),
    some (Sql.countDistinct (required FactRow.ruleId) rows == 8)]

def bound (rows : List Joined) : Truth :=
  Truth.all [isValue (required FactRow.datasetId) (lit "nyc_taxi") rows,
    isValue (required FactRow.bindingType) (lit "iceberg_snapshot") rows,
    isValue (required FactRow.upstreamDagId) (lit "nyc_taxi_etl") rows,
    isValue (required FactRow.sourceTable) (lit "lakehouse.bronze.nyc_taxi_trips") rows,
    oneValue (nullable FactRow.sourceSnapshotId) rows,
    Sql.above (Sql.minOf (nullable FactRow.sourceSnapshotId) rows) (some 0),
    oneValue (nullable FactRow.sourceSnapshotCommittedAt) rows,
    isValue (nullable FactRow.sourceSchemaSha256)
      (lit "5a8d2916cc5967c0eeb8318136c1262156cd616105dad67a713f1cb1cc872fc5") rows,
    oneValue (required FactRow.logicalDate) rows, oneValue (required FactRow.dataIntervalEnd) rows]

def conditions : List (FactRow → Truth) :=
  [FactRow.sourceAvailable, FactRow.schema, FactRow.snapshotFreshness, FactRow.invalidRatio,
    FactRow.partitionConservation, FactRow.cleanNonempty, FactRow.quarantineRatio,
    FactRow.outputReadback]

def sourceRows (rows : List Joined) : Option Int :=
  ofRule "bronze.source_available.v1" FactRow.metricNumerator rows

def linked (rows : List Joined) : Truth :=
  Truth.all [
    Sql.eq (sourceRows rows) (ofRule "bronze.invalid_ratio.v1" FactRow.metricDenominator rows),
    Sql.eq (sourceRows rows) (ofRule "silver.partition_conservation.v1" FactRow.metricNumerator rows),
    Sql.eq (sourceRows rows) (ofRule "silver.clean_nonempty.v1" FactRow.metricDenominator rows),
    Sql.eq (sourceRows rows) (ofRule "silver.quarantine_ratio.v1" FactRow.metricDenominator rows),
    Sql.eq (ofRule "bronze.invalid_ratio.v1" FactRow.metricNumerator rows)
      (ofRule "silver.quarantine_ratio.v1" FactRow.metricNumerator rows),
    Sql.eq (plus (ofRule "silver.clean_nonempty.v1" FactRow.metricNumerator rows)
      (ofRule "silver.quarantine_ratio.v1" FactRow.metricNumerator rows)) (sourceRows rows)]

/-- The `HAVING` of both queries. -/
def complete (qualityRunId : Str) (rows : List Joined) : Truth :=
  Truth.all ([numbered rows, bound rows, Sql.eq (some qualityRunId) (runDigest rows)] ++
    conditions.map (fun condition => once condition rows) ++ [linked rows])

/-! ### Complete runs -/

/-- The groups that meet the conditions, and what is selected of them. -/
def completeRuns {α : Type} (select : Str → List Joined → α) (table : List FactRow) : List α :=
  let joined := leftJoin table
  (joined.map fun r => r.1.qualityRunId).dedup.filterMap fun qualityRunId =>
    let rows := joined.filter fun r => r.1.qualityRunId = qualityRunId
    if (complete qualityRunId rows).holds then some (select qualityRunId rows) else none

structure LatestRow where
  qualityRunId : Str
  logicalDate : Option Int
  sourceSnapshotId : Option Int
deriving DecidableEq

structure TrendRow where
  qualityRunId : Str
  logicalDate : Option Int
  sourceSnapshotId : Option Int
  sourceRowCount : Option Int
  invalidRowCount : Option Int
  invalidRatio : Option Int
  cleanRowCount : Option Int
  quarantineRowCount : Option Int
  quarantineRatio : Option Int
  overallStatus : Str
deriving DecidableEq

def selectLatest (qualityRunId : Str) (rows : List Joined) : LatestRow where
  qualityRunId := qualityRunId
  logicalDate := Sql.maxOf (required FactRow.logicalDate) rows
  sourceSnapshotId := Sql.maxOf (nullable FactRow.sourceSnapshotId) rows

def selectTrend (qualityRunId : Str) (rows : List Joined) : TrendRow where
  qualityRunId := qualityRunId
  logicalDate := Sql.maxOf (required FactRow.logicalDate) rows
  sourceSnapshotId := Sql.maxOf (nullable FactRow.sourceSnapshotId) rows
  sourceRowCount := sourceRows rows
  invalidRowCount := ofRule "bronze.invalid_ratio.v1" FactRow.metricNumerator rows
  invalidRatio := ofRule "bronze.invalid_ratio.v1" FactRow.metricValue rows
  cleanRowCount := ofRule "silver.clean_nonempty.v1" FactRow.metricNumerator rows
  quarantineRowCount := ofRule "silver.quarantine_ratio.v1" FactRow.metricNumerator rows
  quarantineRatio := ofRule "silver.quarantine_ratio.v1" FactRow.metricValue rows
  overallStatus :=
    if 0 < Sql.countIf (fun r : Joined => Sql.eq (some r.1.status) (some (lit "warn"))) rows
    then lit "warn" else lit "pass"

/-- `complete_runs` of `latest.sql` -/
def latestRuns (table : List FactRow) : List LatestRow := completeRuns selectLatest table

/-- `complete_runs` of `trend.sql` -/
def trendRuns (table : List FactRow) : List TrendRow := completeRuns selectTrend table

theorem mem_completeRuns {α : Type} {select : Str → List Joined → α} {table : List FactRow} {row : α} :
    row ∈ completeRuns select table ↔
      ∃ qualityRunId, let rows := (leftJoin table).filter fun r => r.1.qualityRunId = qualityRunId
        rows ≠ [] ∧ complete qualityRunId rows = some true ∧ row = select qualityRunId rows := by
  simp only [completeRuns, List.mem_filterMap, List.mem_dedup, List.mem_map]
  refine exists_congr fun qualityRunId => ?_
  have hne : ((leftJoin table).filter fun r => r.1.qualityRunId = qualityRunId) ≠ [] ↔
      ∃ r ∈ leftJoin table, r.1.qualityRunId = qualityRunId := by
    rw [Ne, List.filter_eq_nil_iff]
    simp
  rw [hne]
  refine and_congr_right fun _ => ?_
  rw [← Truth.holds_iff]
  split_ifs with h
  · exact ⟨fun hs => ⟨h, (Option.some.inj hs).symm⟩, fun hs => congrArg some hs.2.symm⟩
  · exact ⟨(fun hs => nomatch hs), fun hs => absurd hs.1 h⟩

end Quality
