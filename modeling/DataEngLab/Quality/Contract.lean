/-
The contract of the NYC taxi quality run: its rules, statuses and diagnostics, the schemas
of what it reads and writes, its arguments, and the arithmetic of its signals.

The closed vocabularies of the source are types here, so a rule, a status or a diagnostic
code that is not in the vocabulary cannot be written.  The table of the combinations that a
fact may carry (`ruleStatusDiagnostics`) is data, and it is checked where the source checks
it: when a fact is built.

A point in time is a number of nanoseconds since 1970, which is what `Instant` and
`Timestamp` hold.  The two instants of the arguments are whole seconds of the years 0000 to
9999; the first of these years is leap and has the calendar of the year 4.
-/
import DataEngLab.Lib.Checks
import DataEngLab.Lib.Digest
import DataEngLab.Lib.Frames
import DataEngLab.Lib.Rounding
import DataEngLab.Lib.Utc

namespace Quality

open Lib

/-! ### Vocabularies -/

inductive RuleId where
  | sourceAvailable
  | schema
  | snapshotFreshness
  | invalidRatio
  | partitionConservation
  | cleanNonempty
  | quarantineRatio
  | outputReadback
deriving DecidableEq

def RuleId.text : RuleId → Str
  | .sourceAvailable => lit "bronze.source_available.v1"
  | .schema => lit "bronze.schema.v1"
  | .snapshotFreshness => lit "bronze.snapshot_freshness.v1"
  | .invalidRatio => lit "bronze.invalid_ratio.v1"
  | .partitionConservation => lit "silver.partition_conservation.v1"
  | .cleanNonempty => lit "silver.clean_nonempty.v1"
  | .quarantineRatio => lit "silver.quarantine_ratio.v1"
  | .outputReadback => lit "silver.output_readback.v1"

inductive Status where
  | pass
  | warn
  | fail
  | stale
  | missing
deriving DecidableEq

def Status.text : Status → Str
  | .pass => lit "pass"
  | .warn => lit "warn"
  | .fail => lit "fail"
  | .stale => lit "stale"
  | .missing => lit "missing"

/-- `DiagnosticCodes` -/
inductive Diagnostic where
  | ok
  | thresholdWarn
  | thresholdFail
  | sourceMissing
  | sourceStale
  | schemaMismatch
  | partitionMismatch
  | outputEmpty
  | readbackMismatch
deriving DecidableEq

def Diagnostic.text : Diagnostic → Str
  | .ok => lit "ok"
  | .thresholdWarn => lit "threshold_warn"
  | .thresholdFail => lit "threshold_fail"
  | .sourceMissing => lit "source_missing"
  | .sourceStale => lit "source_stale"
  | .schemaMismatch => lit "schema_mismatch"
  | .partitionMismatch => lit "partition_mismatch"
  | .outputEmpty => lit "output_empty"
  | .readbackMismatch => lit "readback_mismatch"

inductive Severity where
  | info
  | warning
  | error
deriving DecidableEq

def Severity.text : Severity → Str
  | .info => lit "info"
  | .warning => lit "warning"
  | .error => lit "error"

/-! ### What is thrown -/

/-- `category.matches("[a-z0-9_]{1,64}")` -/
def validCategory (category : Str) : Bool :=
  1 ≤ category.length && category.length ≤ 64 &&
    category.all fun c => isDigit c || (97 ≤ c && c ≤ 122) || c == 95

/-- `message.nonEmpty && message.length <= 160` -/
def validMessage (message : Str) : Bool := !message.isEmpty && message.length ≤ 160

/-- The exception of the run itself; its constructor refuses a category or a message of the
wrong form. -/
structure QualityFailure where
  category : Str
  diagnosticCode : Diagnostic
  message : Str
  category_ok : validCategory category = true
  message_ok : validMessage message = true

/-- What a call can throw: the run's own exception, a failed `require`, any other exception
that `NonFatal` matches, and one it does not match. -/
inductive Thrown where
  | failure (f : QualityFailure)
  | illegalArgument (message : Str)
  | nonFatal
  | fatal

/-- `require(condition, message)` -/
def require (condition : Bool) (message : Str) : Except Thrown Unit :=
  Lib.require condition (.illegalArgument message)

/-! ### Rules -/

inductive Layer where
  | bronze
  | silver
deriving DecidableEq

def Layer.text : Layer → Str
  | .bronze => lit "Bronze"
  | .silver => lit "Silver"

structure RuleDefinition where
  ruleId : RuleId
  layer : Layer
  owner : Str
  metricName : Str
  warnThreshold : Option Str
  failThreshold : Str

def rules : List RuleDefinition :=
  [⟨.sourceAvailable, .bronze, lit "Data Engineering", lit "source_row_count", none, lit "rows=0"⟩,
    ⟨.schema, .bronze, lit "Data Engineering", lit "schema_match_ratio", none,
      lit "ratio<1.000000000"⟩,
    ⟨.snapshotFreshness, .bronze, lit "Data Engineering", lit "snapshot_age_seconds", none,
      lit "seconds>21600"⟩,
    ⟨.invalidRatio, .bronze, lit "Data Quality Engineering", lit "invalid_row_ratio",
      some (lit "ratio>0.010000000"), lit "ratio>0.050000000"⟩,
    ⟨.partitionConservation, .silver, lit "Data Quality Engineering", lit "partition_row_ratio", none,
      lit "ratio!=1.000000000"⟩,
    ⟨.cleanNonempty, .silver, lit "Data Quality Engineering", lit "clean_row_count", none,
      lit "rows=0"⟩,
    ⟨.quarantineRatio, .silver, lit "Data Quality Engineering", lit "quarantine_row_ratio",
      some (lit "ratio>0.010000000"), lit "ratio>0.050000000"⟩,
    ⟨.outputReadback, .silver, lit "Data Platform Engineering", lit "readback_check_ratio", none,
      lit "ratio<1.000000000"⟩]

/-- The position of a rule in the table. -/
def RuleId.index : RuleId → Fin 8
  | .sourceAvailable => 0
  | .schema => 1
  | .snapshotFreshness => 2
  | .invalidRatio => 3
  | .partitionConservation => 4
  | .cleanNonempty => 5
  | .quarantineRatio => 6
  | .outputReadback => 7

def RuleId.definition (ruleId : RuleId) : RuleDefinition := rules.get (ruleId.index.cast rfl)

@[simp] theorem RuleId.definition_ruleId (ruleId : RuleId) : ruleId.definition.ruleId = ruleId := by
  cases ruleId <;> rfl

/-- `rules.find(_.ruleId == ruleId)` -/
theorem find_rule (ruleId : RuleId) :
    rules.find? (fun rule => rule.ruleId == ruleId) = some ruleId.definition := by
  cases ruleId <;> rfl

def expectedRuleIds : List RuleId := rules.map RuleDefinition.ruleId

def statusDiagnostic : Status → Diagnostic → Bool
  | .pass, d => d == .ok
  | .warn, d => d == .thresholdWarn
  | .missing, d => d == .sourceMissing
  | .stale, d => d == .sourceStale
  | .fail, d => [Diagnostic.thresholdFail, .schemaMismatch, .partitionMismatch, .outputEmpty,
      .readbackMismatch].contains d

def requireStatusDiagnostic (status : Status) (diagnostic : Diagnostic) : Except Thrown Unit :=
  require (statusDiagnostic status diagnostic)
    (lit "quality status and diagnostic code do not match")

def ruleStatusDiagnostics : List (RuleId × Status × Diagnostic) :=
  [(.sourceAvailable, .pass, .ok),
    (.sourceAvailable, .missing, .sourceMissing),
    (.sourceAvailable, .fail, .thresholdFail),
    (.sourceAvailable, .fail, .readbackMismatch),
    (.schema, .pass, .ok),
    (.schema, .fail, .schemaMismatch),
    (.snapshotFreshness, .pass, .ok),
    (.snapshotFreshness, .stale, .sourceStale),
    (.invalidRatio, .pass, .ok),
    (.invalidRatio, .warn, .thresholdWarn),
    (.invalidRatio, .fail, .thresholdFail),
    (.invalidRatio, .fail, .readbackMismatch),
    (.partitionConservation, .pass, .ok),
    (.partitionConservation, .fail, .partitionMismatch),
    (.cleanNonempty, .pass, .ok),
    (.cleanNonempty, .fail, .outputEmpty),
    (.quarantineRatio, .pass, .ok),
    (.quarantineRatio, .warn, .thresholdWarn),
    (.quarantineRatio, .fail, .thresholdFail),
    (.outputReadback, .pass, .ok),
    (.outputReadback, .fail, .readbackMismatch)]

def requireRuleStatusDiagnostic (ruleId : RuleId) (status : Status) (diagnostic : Diagnostic) :
    Except Thrown Unit := do
  requireStatusDiagnostic status diagnostic
  require (ruleStatusDiagnostics.contains (ruleId, status, diagnostic))
    (lit "quality rule status and diagnostic code do not match")

/-- A fact may carry these three. -/
def Allowed (ruleId : RuleId) (status : Status) (diagnostic : Diagnostic) : Prop :=
  (ruleId, status, diagnostic) ∈ ruleStatusDiagnostics

instance (ruleId : RuleId) (status : Status) (diagnostic : Diagnostic) :
    Decidable (Allowed ruleId status diagnostic) :=
  inferInstanceAs (Decidable ((ruleId, status, diagnostic) ∈ ruleStatusDiagnostics))

/-- Every entry of the table passes the check of the status alone. -/
theorem statusDiagnostic_of_allowed {ruleId : RuleId} {status : Status} {diagnostic : Diagnostic}
    (h : Allowed ruleId status diagnostic) : statusDiagnostic status diagnostic = true := by
  have hall : ∀ x ∈ ruleStatusDiagnostics, statusDiagnostic x.2.1 x.2.2 = true := by decide
  exact hall _ h

theorem requireRuleStatusDiagnostic_ok {ruleId : RuleId} {status : Status} {diagnostic : Diagnostic}
    {u : Unit} : requireRuleStatusDiagnostic ruleId status diagnostic = .ok u ↔
      Allowed ruleId status diagnostic := by
  simp only [requireRuleStatusDiagnostic, requireStatusDiagnostic, require, bind_eq_ok,
    require_eq_ok, List.contains_iff_mem, exists_const]
  constructor
  · exact fun h => h.2
  · exact fun h => ⟨statusDiagnostic_of_allowed h, h⟩

/-- The check fails as a failed `require` does. -/
theorem requireRuleStatusDiagnostic_error {ruleId : RuleId} {status : Status}
    {diagnostic : Diagnostic} (h : ¬ Allowed ruleId status diagnostic) :
    ∃ message, requireRuleStatusDiagnostic ruleId status diagnostic =
      .error (.illegalArgument message) := by
  simp only [requireRuleStatusDiagnostic, requireStatusDiagnostic, require]
  cases hs : statusDiagnostic status diagnostic with
  | false => exact ⟨_, rfl⟩
  | true =>
      have hc : ruleStatusDiagnostics.contains (ruleId, status, diagnostic) = false := by
        rw [← Bool.not_eq_true, List.contains_iff_mem]
        exact h
      rw [hc]
      exact ⟨_, rfl⟩

/-! ### Statuses -/

/-- `StatusPriority` -/
def Status.priority : Status → Nat
  | .pass => 0
  | .warn => 1
  | .fail => 2
  | .stale => 3
  | .missing => 4

/-- `statuses.maxBy(StatusPriority)`: the first of the worst. -/
def worst : Status → List Status → Status
  | s, [] => s
  | s, t :: rest => worst (if s.priority < t.priority then t else s) rest

def overallStatus : List Status → Except Thrown Status
  | [] => .error (.illegalArgument (lit "quality status is invalid"))
  | s :: rest => .ok (worst s rest)

def severity : Status → Severity
  | .pass => .info
  | .warn => .warning
  | .fail | .stale | .missing => .error

/-! ### Ratios -/

/-- `BigDecimal(n) / BigDecimal(d)`: the coefficient of 34 digits, a half to the even one, and the
scale. -/
def quotient (n d : Nat) : Nat × Nat :=
  let s := 33 + digitCount d - digitCount n
  let s := if n * 10 ^ s < d * 10 ^ 33 then s + 1 else s
  (divHalfEven (n * 10 ^ s) d, s)

/-- `setScale(9, HALF_UP)` of a coefficient and its scale, in units of the ninth place. -/
def setScale9 (c s : Nat) : Nat :=
  if 9 ≤ s then divHalfUp c (10 ^ (s - 9)) else c * 10 ^ (9 - s)

/-- A ratio of two counts, in units of the ninth place. -/
def ratioValue (numerator denominator : Nat) : Nat :=
  let q := quotient numerator denominator
  setScale9 q.1 q.2

def ratio (numerator denominator : Nat) : Except Thrown Nat := do
  require (0 < denominator) (lit "quality ratio denominator must be positive")
  return ratioValue numerator denominator

/-! ### Time -/

/-- Nanoseconds since 1970-01-01T00:00:00Z. -/
abbrev Nanos := Int

/-- The seconds of the year 0000. -/
def yearZero : Nat := 31622400

/-- A whole second of the years 0000 to 9999, counted from the first of them. -/
structure WholeSecond where
  second : Nat
  le_max : second ≤ maxSecond + yearZero

theorem WholeSecond.ext_second {a b : WholeSecond} (h : a.second = b.second) : a = b := by
  cases a; cases b; simp_all

def WholeSecond.nanos (t : WholeSecond) : Nanos := ((t.second : Int) - 62167219200) * 1000000000

/-- `Instant.toString` -/
def WholeSecond.text (t : WholeSecond) : Str :=
  if h : yearZero ≤ t.second then
    formatUtc ⟨t.second - yearZero, Nat.sub_le_of_le_add t.le_max⟩
  else
    lit "0000" ++ (formatUtc ⟨t.second + daysBeforeYear 4 * 86400, by
      have : daysBeforeYear 4 = 1095 := rfl
      simp only [yearZero, maxSecond, not_le] at h ⊢
      omega⟩).drop 4

/-- `Instant.parse` of a text that `TimestampPattern` matches and that is printed the same. -/
def parseInstant (value : Str) : Option WholeSecond :=
  if value.take 4 = lit "0000" then
    (parseUtc (lit "0004" ++ value.drop 4)).bind fun t =>
      if h : t.second - daysBeforeYear 4 * 86400 < yearZero then
        some ⟨t.second - daysBeforeYear 4 * 86400, Nat.le_add_left_of_le h.le⟩
      else none
  else
    (parseUtc value).map fun t => ⟨t.second + yearZero, Nat.add_le_add_right t.le_max _⟩

def timestampPattern : Pattern :=
  Pattern.times 4 isDigit ++ Pattern.text (lit "-") ++ Pattern.times 2 isDigit ++
    Pattern.text (lit "-") ++ Pattern.times 2 isDigit ++ Pattern.text (lit "T") ++
    Pattern.times 2 isDigit ++ Pattern.text (lit ":") ++ Pattern.times 2 isDigit ++
    Pattern.text (lit ":") ++ Pattern.times 2 isDigit ++ Pattern.text (lit "Z")

/-- Whatever is wrong with the text, the message is the same. -/
def strictInstant (value : Str) : Except Thrown WholeSecond :=
  if timestampPattern.fullmatch value then
    match parseInstant value with
    | some parsed =>
        if parsed.text = value then .ok parsed
        else .error (.illegalArgument (lit "timestamp must be strict whole-second UTC"))
    | none => .error (.illegalArgument (lit "timestamp must be strict whole-second UTC"))
  else .error (.illegalArgument (lit "timestamp must be strict whole-second UTC"))

/-! ### Arguments -/

def datasetId : Str := lit "nyc_taxi"

def ruleVersion : Str := lit "nyc_taxi_quality_v1"

def sourceTable : Str := lit "lakehouse.bronze.nyc_taxi_trips"

def cleanTable : Str := lit "lakehouse.silver.nyc_taxi_clean"

def quarantineTable : Str := lit "lakehouse.silver.nyc_taxi_quarantine"

def factsTable : Str := lit "lakehouse.gold.nyc_taxi_quality_facts"

def upstreamDagId : Str := lit "nyc_taxi_etl"

structure Arguments where
  logicalDate : WholeSecond
  dataIntervalEnd : WholeSecond
  upstreamDagId : Str

/-- `^[\x20-\x7e]{1,128}$` -/
def printableAscii (value : Str) : Bool :=
  1 ≤ value.length && value.length ≤ 128 && value.all fun c => 32 ≤ c && c ≤ 126

/-- The options in order, each with its value, and nothing else. -/
def parseArguments : List Str → Except Thrown Arguments
  | [option1, value1, option2, value2, option3, value3] => do
      require ([option1, option2, option3] ==
          [lit "--logical-date", lit "--data-interval-end", lit "--upstream-dag-id"])
        (lit "quality arguments must use exact order")
      require ([value1, value2, value3].all printableAscii)
        (lit "quality argument values must be bounded printable ASCII")
      require (value3 == upstreamDagId) (lit "upstream DAG must be nyc_taxi_etl")
      let logicalDate ← strictInstant value1
      let dataIntervalEnd ← strictInstant value2
      return ⟨logicalDate, dataIntervalEnd, value3⟩
  | _ => .error (.illegalArgument (lit "exact quality arguments are required"))

/-! ### Snapshots and facts -/

structure SourceSnapshot where
  id : Int
  committedAt : Nanos
  schemaSha256 : Str
deriving DecidableEq

/-- `sha256(value)` of an ASCII text. -/
def sha256Text (value : Str) : Str := sha256 (asciiBytes value)

def identity : Option Int → Str
  | some id => printInt id
  | none => lit "missing"

/-- The text a run's identifier is the digest of. -/
def runIdText (logicalDate : WholeSecond) (snapshot : Option Int) : Str :=
  datasetId ++ 10 :: logicalDate.text ++ 10 :: identity snapshot ++ 10 :: ruleVersion

def qualityRunId (logicalDate : WholeSecond) (snapshot : Option Int) : Except Thrown Str := do
  require (snapshot.all fun id => 0 < id) (lit "source snapshot must be positive")
  return sha256Text (runIdText logicalDate snapshot)

theorem qualityRunId_ok {logicalDate : WholeSecond} {snapshot : Option Int} {runId : Str} :
    qualityRunId logicalDate snapshot = .ok runId ↔
      (∀ id, snapshot = some id → 0 < id) ∧ runId = sha256Text (runIdText logicalDate snapshot) := by
  simp only [qualityRunId, require, bind_eq_ok, require_eq_ok, exists_const, pure_eq_ok,
    Option.all_eq_true, decide_eq_true_eq]
  exact and_congr_right fun _ => eq_comm

/-- A row of the facts table; a value is in units of the ninth decimal place. -/
structure QualityFact where
  qualityRunId : Str
  logicalDate : Nanos
  dataIntervalEnd : Nanos
  datasetId : Str
  bindingType : Str
  upstreamDagId : Str
  sourceTable : Str
  sourceSnapshotId : Option Int
  sourceSnapshotCommittedAt : Option Nanos
  sourceSchemaSha256 : Option Str
  layer : Layer
  ruleId : RuleId
  ruleVersion : Str
  owner : Str
  metricName : Str
  metricNumerator : Option Int
  metricDenominator : Option Int
  metricValue : Option Int
  warnThreshold : Option Str
  failThreshold : Str
  severity : Severity
  status : Status
  diagnosticCode : Diagnostic
deriving DecidableEq

/-! ### Schemas -/

def bronzeSchema : Schema :=
  [⟨"VendorID", .long, true⟩, ⟨"tpep_pickup_datetime", .timestampNtz, true⟩,
    ⟨"tpep_dropoff_datetime", .timestampNtz, true⟩, ⟨"passenger_count", .double, true⟩,
    ⟨"trip_distance", .double, true⟩, ⟨"RatecodeID", .double, true⟩,
    ⟨"store_and_fwd_flag", .string, true⟩, ⟨"PULocationID", .long, true⟩,
    ⟨"DOLocationID", .long, true⟩, ⟨"payment_type", .long, true⟩, ⟨"fare_amount", .double, true⟩,
    ⟨"extra", .double, true⟩, ⟨"mta_tax", .double, true⟩, ⟨"tip_amount", .double, true⟩,
    ⟨"tolls_amount", .double, true⟩, ⟨"improvement_surcharge", .double, true⟩,
    ⟨"total_amount", .double, true⟩, ⟨"congestion_surcharge", .double, true⟩,
    ⟨"airport_fee", .double, true⟩, ⟨"trip_date", .date, true⟩]

def factsSchema : Schema :=
  [⟨"quality_run_id", .string, false⟩, ⟨"logical_date", .timestamp, false⟩,
    ⟨"data_interval_end", .timestamp, false⟩, ⟨"dataset_id", .string, false⟩,
    ⟨"binding_type", .string, false⟩, ⟨"upstream_dag_id", .string, false⟩,
    ⟨"source_table", .string, false⟩, ⟨"source_snapshot_id", .long, true⟩,
    ⟨"source_snapshot_committed_at", .timestamp, true⟩, ⟨"source_schema_sha256", .string, true⟩,
    ⟨"layer", .string, false⟩, ⟨"rule_id", .string, false⟩, ⟨"rule_version", .string, false⟩,
    ⟨"owner", .string, false⟩, ⟨"metric_name", .string, false⟩, ⟨"metric_numerator", .long, true⟩,
    ⟨"metric_denominator", .long, true⟩, ⟨"metric_value", .decimal 38 9, true⟩,
    ⟨"warn_threshold", .string, true⟩, ⟨"fail_threshold", .string, false⟩,
    ⟨"severity", .string, false⟩, ⟨"status", .string, false⟩, ⟨"diagnostic_code", .string, false⟩]

/-- `DataType.typeName` of the types `BronzeSchema` uses. -/
def typeName : DataType → Str
  | .string => lit "string"
  | .long => lit "long"
  | .integer => lit "integer"
  | .double => lit "double"
  | .timestamp => lit "timestamp"
  | .timestampNtz => lit "timestamp_ntz"
  | .date => lit "date"
  | .decimal _ _ => lit "decimal"
  | .other name => lit name

def jsonString (value : Str) : Str :=
  34 :: value.flatMap (fun c => if c = 92 then [92, 92] else if c = 34 then [92, 34] else [c]) ++ [34]

def fieldJson (field : Field) : Str :=
  lit "\x7b\"name\":" ++ jsonString (lit field.name) ++ lit ",\"nullable\":" ++
    lit (if field.nullable then "true" else "false") ++ lit ",\"type\":" ++
    jsonString (typeName field.type) ++ lit "\x7d"

def canonicalSchemaJson : Str :=
  91 :: [44].intercalate (bronzeSchema.map fieldJson) ++ [93]

def schemaSha256 : Str := sha256Text canonicalSchemaJson

theorem schemaSha256_eq :
    schemaSha256 = lit "5a8d2916cc5967c0eeb8318136c1262156cd616105dad67a713f1cb1cc872fc5" := by
  decide +kernel

/-! ### Rows of facts -/

def optionCell {α : Type} (f : α → Cell) : Option α → Cell
  | some a => f a
  | none => .null

/-- A timestamp column keeps microseconds. -/
def timestampCell (t : Nanos) : Cell := .timestamp (t / 1000)

/-- The row `factFrame` makes of a fact. -/
def QualityFact.row (f : QualityFact) : Row :=
  [.string f.qualityRunId, timestampCell f.logicalDate, timestampCell f.dataIntervalEnd,
    .string f.datasetId, .string f.bindingType, .string f.upstreamDagId, .string f.sourceTable,
    optionCell .long f.sourceSnapshotId, optionCell timestampCell f.sourceSnapshotCommittedAt,
    optionCell .string f.sourceSchemaSha256, .string f.layer.text, .string f.ruleId.text,
    .string f.ruleVersion, .string f.owner, .string f.metricName,
    optionCell .long f.metricNumerator, optionCell .long f.metricDenominator,
    optionCell .decimal f.metricValue, optionCell .string f.warnThreshold, .string f.failThreshold,
    .string f.severity.text, .string f.status.text, .string f.diagnosticCode.text]

theorem optionCell_fits {α : Type} {t : DataType} {f : α → Cell} (h : ∀ a, Cell.fits t (f a) = true) :
    ∀ o : Option α, Cell.fits t (optionCell f o) = true
  | some a => h a
  | none => by cases t <;> rfl

theorem QualityFact.row_conforms (f : QualityFact) : Conforms factsSchema f.row := by
  have hl := optionCell_fits (t := .long) (f := Cell.long) fun _ => rfl
  have hs := optionCell_fits (t := .string) (f := Cell.string) fun _ => rfl
  have ht := optionCell_fits (t := .timestamp) (f := timestampCell) fun _ => rfl
  have hd := optionCell_fits (t := .decimal 38 9) (f := Cell.decimal) fun _ => rfl
  have hstring : ∀ s, Cell.fits .string (.string s) = true := fun _ => rfl
  have htime : ∀ t, Cell.fits .timestamp (timestampCell t) = true := fun _ => rfl
  simp only [Conforms, factsSchema, QualityFact.row, List.forall₂_cons, hl, hs, ht, hd, hstring,
    htime, List.Forall₂.nil, and_self]

/-- `factFrame(spark, values)` -/
def factFrame (values : List QualityFact) : Frame where
  schema := factsSchema
  rows := values.map QualityFact.row
  conforms r hr := by
    obtain ⟨f, -, rfl⟩ := List.mem_map.mp hr
    exact f.row_conforms

end Quality
