/-
The quality run.

`run` is `QualityPipeline.run`, cut into the parts it has: take the snapshot of the source,
read and count it, judge it, split it, write and read back the two Silver tables, look at
the snapshot again, judge the outcome, and publish the facts.  A part that rejects the
source tries to record a fact about it first; what goes wrong with the record itself is
ignored unless it is fatal.

The source passes strings for rules, statuses and diagnostics to `fact`, which looks them up
and refuses a combination that is not in the table.  Here the strings are of closed types and
the refusal is the same.
-/
import DataEngLab.Quality.Store

namespace Quality

open Lib

variable {S : Type} {A : S → Type} {α : Type}

structure RunResult where
  qualityRunId : Str
  status : Status
  sourceCount : Nat
  cleanCount : Nat
  quarantineCount : Nat
deriving DecidableEq

/-! ### Facts -/

/-- What `fact` measures: a numerator, a denominator and a value, each of which may be absent. -/
structure Metric where
  numerator : Option Int
  denominator : Option Int
  value : Option Int

def Metric.none : Metric := ⟨.none, .none, .none⟩

/-- The fact of a rule with everything that the arguments and the snapshot give. -/
def factOf (arguments : Arguments) (snapshot : Option SourceSnapshot) (runId : Str)
    (rule : RuleDefinition) (metric : Metric) (status : Status) (diagnostic : Diagnostic) :
    QualityFact where
  qualityRunId := runId
  logicalDate := arguments.logicalDate.nanos
  dataIntervalEnd := arguments.dataIntervalEnd.nanos
  datasetId := datasetId
  bindingType := lit "iceberg_snapshot"
  upstreamDagId := arguments.upstreamDagId
  sourceTable := sourceTable
  sourceSnapshotId := snapshot.map SourceSnapshot.id
  sourceSnapshotCommittedAt := snapshot.map SourceSnapshot.committedAt
  sourceSchemaSha256 := snapshot.map SourceSnapshot.schemaSha256
  layer := rule.layer
  ruleId := rule.ruleId
  ruleVersion := ruleVersion
  owner := rule.owner
  metricName := rule.metricName
  metricNumerator := metric.numerator
  metricDenominator := metric.denominator
  metricValue := metric.value
  warnThreshold := rule.warnThreshold
  failThreshold := rule.failThreshold
  severity := severity status
  status := status
  diagnosticCode := diagnostic

def fact (arguments : Arguments) (snapshot : Option SourceSnapshot) (ruleId : RuleId) (metric : Metric)
    (status : Status) (diagnostic : Diagnostic) : Run A QualityFact := do
  note ruleId status diagnostic
  let rule ← Proc.lift (orElse (rules.find? fun rule => rule.ruleId == ruleId)
    (.illegalArgument (lit "Quality rule is unavailable")))
  Proc.lift (requireRuleStatusDiagnostic ruleId status diagnostic)
  let runId ← Proc.lift (qualityRunId arguments.logicalDate (snapshot.map SourceSnapshot.id))
  return factOf arguments snapshot runId rule metric status diagnostic

def persistDiagnostic (store : QualityStore A) (facts : List QualityFact) : Run A Unit :=
  if facts.isEmpty then pure ()
  else tryCatch (store.mergeFacts .diagnostics facts) fun thrown => match thrown with
    | .fatal => throw .fatal
    | _ => pure ()

/-- A single fact without a metric is recorded. -/
def recordFailure (store : QualityStore A) (arguments : Arguments) (snapshot : Option SourceSnapshot)
    (ruleId : RuleId) (metric : Metric) (diagnostic : Diagnostic) : Run A Unit := do
  let diagnosed ← fact arguments snapshot ruleId metric .fail diagnostic
  persistDiagnostic store [diagnosed]

/-- `diagnosticFailure`, which throws a failure with the same category, code and message. -/
def diagnosticFailure (store : QualityStore A) (arguments : Arguments)
    (snapshot : Option SourceSnapshot) (ruleId : RuleId) (f : QualityFailure) : Run A α := do
  recordFailure store arguments snapshot ruleId .none f.diagnosticCode
  throw (.failure f)

/-! ### The snapshot of the source -/

def factsUnavailable : QualityFailure :=
  ⟨lit "facts_store", .readbackMismatch, lit "Quality facts storage is unavailable", by decide, by decide⟩

def metadataUnavailable : QualityFailure :=
  ⟨lit "source_metadata", .readbackMismatch, lit "Bronze snapshot metadata is unavailable",
    validCategory_sourceMetadata, by decide⟩

def sourceMissing : QualityFailure :=
  ⟨lit "source_missing", .sourceMissing, lit "Bronze source is missing", by decide, by decide⟩

def sourceStale : QualityFailure :=
  ⟨lit "source_stale", .sourceStale, lit "Bronze source is stale", by decide, by decide⟩

/-- The rule a failed capture is recorded under. -/
def captureRule (f : QualityFailure) : RuleId :=
  if f.category = lit "source_schema" then .schema else .sourceAvailable

def captureSnapshot (store : QualityStore A) (arguments : Arguments) :
    Run A (Option SourceSnapshot) :=
  onFailure (controlled metadataUnavailable (store.captureSource .capture)) fun f =>
    recordFailure store arguments none (captureRule f) .none f.diagnosticCode

/-- A value with nine decimal places, in units of the last. -/
def scale9 (n : Int) : Int := n * 1000000000

def ageMetric (arguments : Arguments) (snapshot : SourceSnapshot) : Metric :=
  let age := ageSeconds snapshot.committedAt arguments.dataIntervalEnd.nanos
  ⟨some age, some 21600, some (scale9 age)⟩

def requireFresh (store : QualityStore A) (arguments : Arguments) (snapshot : SourceSnapshot) :
    Run A Unit :=
  match freshnessStatus snapshot.committedAt arguments.dataIntervalEnd.nanos with
  | .stale => do
      let diagnosed ← fact arguments (some snapshot) .snapshotFreshness (ageMetric arguments snapshot)
        .stale .sourceStale
      persistDiagnostic store [diagnosed]
      throw (.failure sourceStale)
  | _ => pure ()

/-- From `ensureFactsTable` to the freshness of the snapshot. -/
def openSource (store : QualityStore A) (arguments : Arguments) : Run A SourceSnapshot := do
  controlled factsUnavailable (store.ensureFactsTable .ensureFacts)
  let captured ← captureSnapshot store arguments
  match captured with
  | none => do
      let diagnosed ← fact arguments none .sourceAvailable .none .missing .sourceMissing
      persistDiagnostic store [diagnosed]
      throw (.failure sourceMissing)
  | some snapshot => do
      requireFresh store arguments snapshot
      return snapshot

/-! ### The source -/

def sourceUnreadable : QualityFailure :=
  ⟨lit "source_read", .readbackMismatch, lit "Bronze source read failed", by decide, by decide⟩

def sourceUncounted : QualityFailure :=
  ⟨lit "source_read", .readbackMismatch, lit "Bronze source count failed", by decide, by decide⟩

def sourceUnjudged : QualityFailure :=
  ⟨lit "source_read", .readbackMismatch, lit "Bronze invalid-row count failed", by decide, by decide⟩

def sourceEmpty : QualityFailure :=
  ⟨lit "source_empty", .thresholdFail, lit "Bronze source is empty", by decide, by decide⟩

def sourceThreshold : QualityFailure :=
  ⟨lit "source_threshold", .thresholdFail, lit "Bronze invalid ratio exceeds the fail threshold",
    by decide, by decide⟩

/-- The Bronze frame, with its schema checked once more. -/
def readSource (store : QualityStore A) (arguments : Arguments) (snapshot : SourceSnapshot) :
    Run A Table := do
  let bronze ← onFailure (controlled sourceUnreadable (store.readBronze .readBronze)) fun f =>
    recordFailure store arguments (some snapshot) .sourceAvailable .none f.diagnosticCode
  onFailure (controlled sourceSchemaMismatch (Proc.lift (assertExactSchema bronze.toFrame))) fun f =>
    recordFailure store arguments (some snapshot) .schema ⟨some 0, some 20, some 0⟩ f.diagnosticCode
  return bronze

def requireNonempty (store : QualityStore A) (arguments : Arguments) (snapshot : SourceSnapshot)
    (sourceCount : Nat) : Run A Unit :=
  match sourceCount with
  | 0 => do
      recordFailure store arguments (some snapshot) .sourceAvailable ⟨some 0, none, some 0⟩ .thresholdFail
      throw (.failure sourceEmpty)
  | _ + 1 => pure ()

def countSource (store : QualityStore A) (arguments : Arguments) (snapshot : SourceSnapshot)
    (bronze : Frame) : Run A Nat := do
  let sourceCount ← onFailure (controlled sourceUncounted (action .countBronze bronze.count)) fun f =>
    recordFailure store arguments (some snapshot) .sourceAvailable .none f.diagnosticCode
  requireNonempty store arguments snapshot sourceCount
  return sourceCount

def countInvalid (store : QualityStore A) (arguments : Arguments) (snapshot : SourceSnapshot)
    (bronze : Frame) (sourceCount : Nat) : Run A Nat :=
  onFailure (controlled sourceUnjudged (invalidCount .countInvalid bronze)) fun f =>
    recordFailure store arguments (some snapshot) .invalidRatio ⟨none, some sourceCount, none⟩
      f.diagnosticCode

def countMetric (n : Nat) (denominator : Option Nat) : Metric :=
  ⟨some n, denominator.map Int.ofNat, some (scale9 n)⟩

def ratioMetric (o : SignalObservation) : Metric :=
  ⟨some o.numerator, some o.denominator, some o.metricValue⟩

def wholeMetric (n d : Int) : Metric := ⟨some n, some d, some 1000000000⟩

def bronzeFacts (arguments : Arguments) (snapshot : SourceSnapshot) (sourceCount : Nat)
    (invalid : SignalObservation) : Run A (List QualityFact) := do
  let available ← fact arguments (some snapshot) .sourceAvailable (countMetric sourceCount none) .pass .ok
  let schema ← fact arguments (some snapshot) .schema (wholeMetric 20 20) .pass .ok
  let fresh ← fact arguments (some snapshot) .snapshotFreshness (ageMetric arguments snapshot) .pass .ok
  let ratio ← fact arguments (some snapshot) .invalidRatio (ratioMetric invalid) invalid.status
    invalid.diagnosticCode
  return [available, schema, fresh, ratio]

def requireBelowFail (store : QualityStore A) (invalid : SignalObservation) (facts : List QualityFact) :
    Run A Unit :=
  match invalid.status with
  | .fail => do
      persistDiagnostic store facts
      throw (.failure sourceThreshold)
  | _ => pure ()

/-- The invalid rows, and the four facts about the source. -/
def judgeSource (store : QualityStore A) (arguments : Arguments) (snapshot : SourceSnapshot)
    (bronze : Frame) (sourceCount : Nat) : Run A (List QualityFact) := do
  let invalid ← countInvalid store arguments snapshot bronze sourceCount
  let observation ← Proc.lift (ratioObservation .invalidRatio invalid sourceCount)
  let facts ← bronzeFacts arguments snapshot sourceCount observation
  requireBelowFail store observation facts
  return facts

/-! ### The Silver tables -/

def partitionFailed : QualityFailure :=
  ⟨lit "partition_validation", .partitionMismatch, lit "Quality partition validation failed", by decide,
    by decide⟩

def cleanUnwritten : QualityFailure :=
  ⟨lit "silver_write", .readbackMismatch, lit "Clean Silver write failed", by decide, by decide⟩

def cleanUnread : QualityFailure :=
  ⟨lit "silver_readback", .readbackMismatch, lit "Clean Silver readback failed", by decide, by decide⟩

def quarantineUnwritten : QualityFailure :=
  ⟨lit "silver_write", .readbackMismatch, lit "Quarantine Silver write failed", by decide, by decide⟩

def quarantineUnread : QualityFailure :=
  ⟨lit "silver_readback", .readbackMismatch, lit "Quarantine Silver readback failed", by decide,
    by decide⟩

def readbackFailed : QualityFailure :=
  ⟨lit "silver_readback", .readbackMismatch, lit "Silver partition readback failed", by decide, by decide⟩

def silverUncounted : QualityFailure :=
  ⟨lit "silver_readback", .readbackMismatch, lit "Silver output count failed", by decide, by decide⟩

/-- The split of the source, checked to be one. -/
def partitionSource (store : QualityStore A) (arguments : Arguments) (snapshot : SourceSnapshot)
    (bronze : Frame) (sourceCount : Nat) : Run A SplitResult := do
  let parts ← controlled partitionFailed (Proc.lift (split bronze))
  onFailure (controlled partitionFailed
    (assertPartition .partition bronze parts.clean parts.quarantine)) fun f =>
      recordFailure store arguments (some snapshot) .partitionConservation
        ⟨none, some sourceCount, none⟩ f.diagnosticCode
  return parts

/-- A step after the split: what goes wrong is recorded under the readback rule. -/
def guarded (store : QualityStore A) (arguments : Arguments) (snapshot : SourceSnapshot)
    (otherwise : QualityFailure) (operation : Run A α) : Run A α :=
  onFailure (controlled otherwise operation) fun f =>
    recordFailure store arguments (some snapshot) .outputReadback .none f.diagnosticCode

/-- Both tables are replaced and read back, and the pair is checked against the source. -/
def writeSilver (store : QualityStore A) (arguments : Arguments) (snapshot : SourceSnapshot)
    (bronze : Frame) (parts : SplitResult) (properties : Properties) : Run A (Table × Table) := do
  guarded store arguments snapshot cleanUnwritten
    (store.replaceSilver .writeClean cleanTable parts.clean properties)
  let clean ← guarded store arguments snapshot cleanUnread (store.readSilver .readClean cleanTable)
  guarded store arguments snapshot quarantineUnwritten
    (store.replaceSilver .writeQuarantine quarantineTable parts.quarantine properties)
  let quarantine ← guarded store arguments snapshot quarantineUnread
    (store.readSilver .readQuarantine quarantineTable)
  guarded store arguments snapshot readbackFailed
    (assertPartition .readback bronze clean.toFrame quarantine.toFrame)
  return (clean, quarantine)

def countSilver (store : QualityStore A) (arguments : Arguments) (snapshot : SourceSnapshot)
    (clean quarantine : Frame) : Run A (Nat × Nat) :=
  guarded store arguments snapshot silverUncounted do
    let cleanCount ← action .countSilver clean.count
    let quarantineCount ← action .countSilver quarantine.count
    return (cleanCount, quarantineCount)

/-! ### The outcome -/

def recheckFailed : QualityFailure :=
  ⟨lit "source_metadata", .readbackMismatch, lit "Bronze snapshot recheck failed",
    validCategory_sourceMetadata, by decide⟩

def sourceChanged : QualityFailure :=
  ⟨lit "source_changed", .readbackMismatch, lit "Bronze source changed during the quality run",
    by decide, by decide⟩

def silverThreshold : QualityFailure :=
  ⟨lit "silver_threshold", .thresholdFail, lit "Silver quality checks failed", by decide, by decide⟩

/-- The snapshot is what it was. -/
def recheckSource (store : QualityStore A) (arguments : Arguments) (snapshot : SourceSnapshot) :
    Run A Unit := do
  let postSnapshot ← guarded store arguments snapshot recheckFailed (store.captureSource .recheck)
  match decide (postSnapshot = some snapshot) with
  | true => pure ()
  | false => diagnosticFailure store arguments (some snapshot) .outputReadback sourceChanged

def silverFacts (arguments : Arguments) (snapshot : SourceSnapshot)
    (sourceCount cleanCount quarantineCount : Nat) : Run A (List QualityFact) := do
  let observation ← Proc.lift (ratioObservation .quarantineRatio quarantineCount sourceCount)
  let conservation ← fact arguments (some snapshot) .partitionConservation
    (wholeMetric (cleanCount + quarantineCount) sourceCount) .pass .ok
  let nonempty ← fact arguments (some snapshot) .cleanNonempty (countMetric cleanCount sourceCount)
    (if 0 < cleanCount then .pass else .fail) (if 0 < cleanCount then .ok else .outputEmpty)
  let ratio ← fact arguments (some snapshot) .quarantineRatio (ratioMetric observation)
    observation.status observation.diagnosticCode
  let readback ← fact arguments (some snapshot) .outputReadback (wholeMetric 8 8) .pass .ok
  return [conservation, nonempty, ratio, readback]

/-- The status of the run; a run that failed is recorded. -/
def judgeOutcome (store : QualityStore A) (facts : List QualityFact) : Run A Status := do
  let status ← Proc.lift (overallStatus (facts.map QualityFact.status))
  match status with
  | .fail => do
      persistDiagnostic store facts
      throw (.failure silverThreshold)
  | _ => return status

/-! ### The facts -/

def factsUnwritten : QualityFailure :=
  ⟨lit "facts_write", .readbackMismatch, lit "Quality facts MERGE failed", by decide, by decide⟩

def factsUnread : QualityFailure :=
  ⟨lit "facts_readback", .readbackMismatch, lit "Quality facts readback failed", by decide, by decide⟩

def factsDiffer : QualityFailure :=
  ⟨lit "facts_readback", .readbackMismatch,
    lit "Quality facts readback does not match the intended rows", by decide, by decide⟩

/-- `a && b && c`, each an action that runs only when those before it held. -/
def requireFactsReadback (frame : Frame) (expected : List QualityFact) : Run A Unit := do
  Proc.lift (Lib.require (frame.schema == factsSchema) (.failure factsDiffer))
  let intended := factFrame expected
  let observedCount ← action .matchFacts frame.count
  Proc.lift (Lib.require (observedCount == expected.length) (.failure factsDiffer))
  let extra ← action .matchFacts (exceptAll frame.rows intended.rows)
  Proc.lift (Lib.require extra.isEmpty (.failure factsDiffer))
  let omitted ← action .matchFacts (exceptAll intended.rows frame.rows)
  Proc.lift (Lib.require omitted.isEmpty (.failure factsDiffer))

def publishFacts (store : QualityStore A) (runId : Str) (facts : List QualityFact) : Run A Unit := do
  controlled factsUnwritten (store.mergeFacts .writeFacts facts)
  let readback ← controlled factsUnread (store.readFacts .readFacts runId)
  controlled factsDiffer (requireFactsReadback readback facts)

/-! ### The run -/

/-- What is known when the source has been judged and split. -/
structure Prepared where
  snapshot : SourceSnapshot
  bronze : Table
  sourceCount : Nat
  facts : List QualityFact
  parts : SplitResult

/-- Up to the check that the split is a partition: nothing has been written to Silver. -/
def prepare (store : QualityStore A) (arguments : Arguments) : Run A Prepared := do
  let snapshot ← openSource store arguments
  let bronze ← readSource store arguments snapshot
  let sourceCount ← countSource store arguments snapshot bronze.toFrame
  let facts ← judgeSource store arguments snapshot bronze.toFrame sourceCount
  let parts ← partitionSource store arguments snapshot bronze.toFrame sourceCount
  return ⟨snapshot, bronze, sourceCount, facts, parts⟩

/-- From the first write to the end. -/
def publish (store : QualityStore A) (arguments : Arguments) (p : Prepared) : Run A RunResult := do
  let runId ← Proc.lift (qualityRunId arguments.logicalDate (some p.snapshot.id))
  let properties ← Proc.lift (forRun runId p.snapshot.id)
  let silver ← writeSilver store arguments p.snapshot p.bronze.toFrame p.parts properties
  let counts ← countSilver store arguments p.snapshot silver.1.toFrame silver.2.toFrame
  recheckSource store arguments p.snapshot
  let outcome ← silverFacts arguments p.snapshot p.sourceCount counts.1 counts.2
  let status ← judgeOutcome store (p.facts ++ outcome)
  publishFacts store runId (p.facts ++ outcome)
  return ⟨runId, status, p.sourceCount, counts.1, counts.2⟩

def run (store : QualityStore A) (arguments : Arguments) : Run A RunResult := do
  let p ← prepare store arguments
  publish store arguments p

end Quality
