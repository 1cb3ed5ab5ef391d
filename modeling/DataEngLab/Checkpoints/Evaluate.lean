/-
The retention evaluator.

`evaluateRetention` collects refusal codes from four evaluators and calls the checkpoint
eligible when there are none.  The facts it is given are not trusted to have the types
their fields declare, so every field is a `PyVal`, and every evaluator tests the type
before it uses the value.

The evaluators guard each other: a comparison between two clocks is made only when both
are exact UTC instants, and the code that reports a bad clock is raised elsewhere.  What
has to be shown is that no such comparison is lost, whichever values are malformed.  Each
evaluator therefore gets one lemma that says everything its silence means, and
`eligible_sound` only puts the four together.
-/
import DataEngLab.Checkpoints.Policy
import DataEngLab.Checkpoints.Records

namespace Checkpoints

open Lib

/-- A value at run time, as far as the evaluator can tell values apart. -/
inductive PyVal where
  | none
  | bool (b : Bool)
  | int (n : Int)
  | str (s : Str)
  | mapping (kvs : List (PyVal × PyVal))
  | datetime (d : Datetime)
  | other

namespace PyVal

def str? : PyVal → Option Str
  | str s => some s
  | _ => Option.none

def int? : PyVal → Option Int
  | int n => some n
  | _ => Option.none

/-- `value is True` -/
def isTrue : PyVal → Bool
  | bool b => b
  | _ => false

/-- `type(value) is bool` -/
def isBool : PyVal → Bool
  | bool _ => true
  | _ => false

/-- `value == s` -/
def isText (s : Str) : PyVal → Bool
  | str t => t == s
  | _ => false

/-- The instant of an exact UTC `datetime`: `_is_exact_utc` and the value it admits. -/
def exactUtc? : PyVal → Option Instant
  | datetime d => d.instant?
  | _ => Option.none

/-- `isinstance(value, Mapping) and dict(value) == generation`; the keys of both are distinct. -/
def isGeneration (generation : List (String × Str)) : PyVal → Bool
  | mapping kvs => kvs.length == generation.length &&
      generation.all fun g => kvs.any fun kv => kv.1.isText (lit g.1) && kv.2.isText g.2
  | _ => false

theorem isText_iff {s : Str} {v : PyVal} : v.isText s = true ↔ v = str s := by
  cases v <;> simp [isText]

theorem isTrue_iff {v : PyVal} : v.isTrue = true ↔ v = bool true := by
  cases v <;> simp [isTrue]

theorem str?_eq_some {v : PyVal} {s : Str} : v.str? = some s ↔ v = str s := by
  cases v <;> simp [str?]

theorem isGeneration_iff {g : List (String × Str)} {v : PyVal} : v.isGeneration g = true ↔
    ∃ kvs, v = mapping kvs ∧ kvs.length = g.length ∧
      ∀ x ∈ g, (str (lit x.1), str x.2) ∈ kvs := by
  cases v with
  | mapping kvs =>
      simp only [isGeneration, Bool.and_eq_true, beq_iff_eq, List.all_eq_true, List.any_eq_true,
        isText_iff, mapping.injEq, exists_eq_left', and_congr_right_iff]
      intro _
      constructor
      · intro h x hx
        obtain ⟨⟨k, v⟩, hm, rfl, rfl⟩ := h x hx
        exact hm
      · intro h x hx
        exact ⟨_, h x hx, rfl, rfl⟩
  | _ => simp [isGeneration]

end PyVal

/-! ### Facts -/

structure LeaseFacts where
  checkpointId : PyVal
  keyPrefix : PyVal
  state : PyVal
  acquiredAt : PyVal
  heartbeatAt : PyVal
  expiresAt : PyVal
  etag : PyVal
  conflicting : PyVal
  malformed : PyVal

structure TerminalFacts where
  state : PyVal
  occurredAt : PyVal
  recoveryApproved : PyVal
  sourceAvailable : PyVal
  sinkDispositionApproved : PyVal
  retirementReview : PyVal
  generation : PyVal
  exclusiveRun : PyVal
  successful : PyVal

structure InventorySummary where
  objectCount : PyVal
  totalBytes : PyVal
  newestLastModified : PyVal
  inventorySha256 : PyVal
  changedSincePlan : PyVal
  partialRetryConfined : PyVal

structure EvaluationInput where
  keyPrefix : PyVal
  evaluatedAt : PyVal
  lease : Option LeaseFacts
  terminal : Option TerminalFacts
  inventory : InventorySummary

structure RetentionDecision where
  eligible : Bool
  refusalCodes : List String
  retentionAnchor : Option Instant
  eligibleAfter : Option Instant
  policySha256 : Str
  planJson : Str
  planSha256 : Str

/-! ### Evaluators -/

/-- `if c: refusal_codes.append(code)` -/
def refuse (c : Bool) (code : String) : List String := if c then [code] else []

@[simp] theorem refuse_eq_nil {c : Bool} {code : String} : refuse c code = [] ↔ c = false := by
  cases c <;> simp [refuse]

/-- `_is_future_clock`, of exact instants. -/
def isFutureClock (value evaluatedAt : Instant) (toleranceSeconds : Nat) : Bool :=
  evaluatedAt.second + toleranceSeconds < value.second

/-- The check made of every clock but the evaluator's own: exact, and not in the future. -/
def evaluateClock (policy : CheckpointPolicy) (evaluatedAt : Option Instant) (value : PyVal) :
    List String :=
  match value.exactUtc? with
  | none => ["invalid_utc_timestamp"]
  | some t => refuse (evaluatedAt.any fun e => isFutureClock t e policy.lease.futureToleranceSeconds)
      "future_clock"

def leaseClockValid (policy : CheckpointPolicy) (acquired heartbeat expires : Instant) : Bool :=
  acquired ≤ heartbeat && heartbeat ≤ expires &&
    expires.second - heartbeat.second == policy.lease.ttlSeconds

def evaluateLeaseState (evaluatedAt : Option Instant) (lease : LeaseFacts) : List String :=
  refuse lease.state.str?.isNone "invalid_fact_type" ++
    if lease.state.isText (lit "active") then
      match evaluatedAt, lease.expiresAt.exactUtc? with
      | some e, some expires => [if e ≤ expires then "lease_active" else "lease_expired_active_uncertain"]
      | _, _ => ["lease_active"]
    else refuse (!(["stopped", "completed", "retired"].any fun s => lease.state.isText (lit s)))
      "lease_state_invalid"

def evaluateLease (policy : CheckpointPolicy) (facts : EvaluationInput) (matched : MatchedCheckpoint)
    (entry : CheckpointEntry) (lease : LeaseFacts) (terminal : Option TerminalFacts) : List String :=
  let evaluatedAt := facts.evaluatedAt.exactUtc?
  let terminalState := terminal.bind fun t => t.state.str?
  refuse (!lease.malformed.isBool || !lease.conflicting.isBool) "invalid_fact_type" ++
  refuse lease.malformed.isTrue "lease_malformed" ++
  refuse lease.conflicting.isTrue "lease_conflicting" ++
  refuse (!lease.checkpointId.isText (lit matched.checkpointId) ||
    !lease.keyPrefix.isText matched.keyPrefix) "lease_identity_mismatch" ++
  refuse (!lease.etag.str?.any fun etag => !etag.isEmpty && etag.length ≤ 128) "lease_etag_invalid" ++
  evaluateClock policy evaluatedAt lease.acquiredAt ++
  evaluateClock policy evaluatedAt lease.heartbeatAt ++
  evaluateClock policy evaluatedAt lease.expiresAt ++
  (match lease.acquiredAt.exactUtc?, lease.heartbeatAt.exactUtc?, lease.expiresAt.exactUtc? with
    | some a, some h, some x => refuse (!leaseClockValid policy a h x) "lease_clock_invalid"
    | _, _, _ => []) ++
  evaluateLeaseState evaluatedAt lease ++
  refuse (!entry.durability.leaseStates.any fun s =>
    lease.state.isText (lit s) && terminalState == some (lit s)) "invalid_lease_terminal_state" ++
  (match lease.heartbeatAt.exactUtc?, terminal.bind fun t => t.occurredAt.exactUtc? with
    | some h, some o => refuse (o < h) "lease_terminal_clock_conflict"
    | _, _ => [])

/-- `_SHA256.fullmatch`, of any value. -/
def PyVal.isSha256 (v : PyVal) : Bool := v.str?.any Lib.isSha256

/-- An integer, not a Boolean, from 1 to the bound. -/
def PyVal.isWithin (bound : Nat) : PyVal → Bool
  | .int n => 1 ≤ n && n ≤ (bound : Int)
  | _ => false

def evaluateInventory (policy : CheckpointPolicy) (facts : EvaluationInput)
    (inventory : InventorySummary) : List String :=
  refuse (!inventory.objectCount.isWithin policy.bounds.maxObjects ||
    !inventory.totalBytes.isWithin policy.bounds.maxBytes ||
    !inventory.inventorySha256.isSha256) "inventory_invalid" ++
  evaluateClock policy facts.evaluatedAt.exactUtc? inventory.newestLastModified ++
  refuse (!inventory.changedSincePlan.isBool || !inventory.partialRetryConfined.isBool)
    "invalid_fact_type" ++
  refuse inventory.changedSincePlan.isTrue "inventory_changed" ++
  refuse (!inventory.partialRetryConfined.isTrue) "partial_retry_broadened"

/-- `registry_retirement_review_*` and `retirement_review_mismatch` -/
def evaluateReview (entry : CheckpointEntry) (terminal : TerminalFacts) : List String :=
  match entry.retirementReview with
  | none => ["registry_retirement_review_missing"]
  | some review =>
      if review.isEmpty then ["registry_retirement_review_missing"]
      else if !safeReview review then ["registry_retirement_review_invalid"]
      else refuse (!terminal.retirementReview.isText review) "retirement_review_mismatch"

def evaluateRetirement (policy : CheckpointPolicy) (facts : EvaluationInput) (entry : CheckpointEntry)
    (terminal : TerminalFacts) : List String :=
  refuse (!terminal.retirementReview.str?.any fun r => !r.isEmpty) "retirement_review_missing" ++
  (match entry.retiredAt with
    | none => ["retirement_clock_missing"]
    | some t => refuse (facts.evaluatedAt.exactUtc?.any fun e =>
        isFutureClock t e policy.lease.futureToleranceSeconds) "future_clock") ++
  evaluateReview entry terminal

def evaluateTerminal (policy : CheckpointPolicy) (facts : EvaluationInput) (entry : CheckpointEntry)
    (matched : MatchedCheckpoint) (terminal : TerminalFacts) : List String :=
  evaluateClock policy facts.evaluatedAt.exactUtc? terminal.occurredAt ++
  refuse terminal.state.str?.isNone "invalid_fact_type" ++
  refuse (!entry.terminalStates.any fun s => terminal.state.isText (lit s)) "invalid_terminal_state" ++
  ([terminal.recoveryApproved, terminal.sourceAvailable, terminal.sinkDispositionApproved,
    terminal.exclusiveRun, terminal.successful].flatMap fun v => refuse (!v.isBool) "invalid_fact_type") ++
  refuse (!terminal.recoveryApproved.isTrue) "recovery_not_approved" ++
  refuse (!terminal.sourceAvailable.isTrue) "source_unavailable" ++
  refuse (!terminal.sinkDispositionApproved.isTrue) "sink_disposition_not_approved" ++
  match entry.durability, entry.lifecycle with
  | .durableStream, .retired => evaluateRetirement policy facts entry terminal
  | .durableStream, .active => []
  | .generationReproducibility, _ =>
      refuse (!terminal.generation.isGeneration matched.generation) "generation_identity_mismatch"
  | .disposableAcceptance, _ =>
      refuse (!terminal.generation.isGeneration matched.generation) "generation_identity_mismatch" ++
      refuse (!terminal.exclusiveRun.isTrue) "exclusive_run_required" ++
      refuse (!terminal.successful.isTrue) "successful_run_required"

/-- The instants the retention period is counted from; `none` when one of them is not exact. -/
def anchorClocks (entry : CheckpointEntry) (lease : Option LeaseFacts) (terminal : Option TerminalFacts)
    (inventory : InventorySummary) : Option (List Instant) :=
  ([inventory.newestLastModified.exactUtc?] ++ (lease.map fun l => l.heartbeatAt.exactUtc?).toList ++
    (terminal.map fun t => t.occurredAt.exactUtc?).toList ++
    (if entry.durability = .durableStream ∧ entry.lifecycle = .retired then [entry.retiredAt] else [])
  ).mapM id

def laterOf (a b : Instant) : Instant := if a ≤ b then b else a

def retentionAnchor (entry : CheckpointEntry) (lease : Option LeaseFacts)
    (terminal : Option TerminalFacts) (inventory : InventorySummary) : Option Instant :=
  match anchorClocks entry lease terminal inventory with
  | some (t :: ts) => some (ts.foldl laterOf t)
  | _ => none

/-- What keeps the period itself from having passed. -/
def evaluatePeriod (entry : CheckpointEntry) (evaluatedAt anchor eligibleAfter : Option Instant) :
    List String :=
  refuse (anchor.isSome && eligibleAfter.isNone) "clock_overflow" ++
    if entry.durability = .durableStream ∧ entry.lifecycle = .active then ["registry_active_durable"]
    else
      match evaluatedAt, eligibleAfter with
      | some e, some after => refuse (e < after) "retention_quarantine"
      | _, _ => []

/-- Every code an evaluation appends, repetitions included. -/
def refusalCodes (policy : CheckpointPolicy) (facts : EvaluationInput) (matched : MatchedCheckpoint)
    (entry : CheckpointEntry) : List String :=
  let anchor := retentionAnchor entry facts.lease facts.terminal facts.inventory
  refuse facts.evaluatedAt.exactUtc?.isNone "invalid_utc_timestamp" ++
  (match facts.lease with
    | none => ["lease_missing"]
    | some lease => evaluateLease policy facts matched entry lease facts.terminal) ++
  evaluateInventory policy facts facts.inventory ++
  (match facts.terminal with
    | none => ["terminal_missing"]
    | some terminal => evaluateTerminal policy facts entry matched terminal ++
        match terminal.occurredAt.exactUtc?, facts.inventory.newestLastModified.exactUtc? with
        | some o, some n => refuse (o < n) "object_after_terminal"
        | _, _ => []) ++
  evaluatePeriod entry facts.evaluatedAt.exactUtc? anchor
    (anchor.bind fun a => a.add entry.retentionSeconds)

/-! ### The decision -/

def optionalUtc (t : Option Instant) : Json :=
  match t with
  | some t => .str (formatUtc t)
  | none => .null

def numbersJson (fields : List (String × Nat)) : Json :=
  .obj (fields.map fun f => (lit f.1, .int f.2))

def CheckpointEntry.payload (e : CheckpointEntry) : Json :=
  .obj ([(lit "checkpoint_id", textJson e.checkpointId)] ++
    (e.texts.map fun f => (lit f.1, textJson f.2)) ++
    [(lit "lifecycle", textJson e.lifecycle.text),
      (lit "terminal_states", .arr (e.terminalStates.map textJson)),
      (lit "retention_seconds", .int e.retentionSeconds)] ++
    (if e.durability = .durableStream then
      [(lit "retired_at", optionalUtc e.retiredAt),
        (lit "retirement_review", (e.retirementReview.map Json.str).getD .null)]
    else []) ++
    match e.scales with
    | some scales => [(lit "scales", .arr (scales.map textJson))]
    | none => [])

def CheckpointPolicy.payload (policy : CheckpointPolicy) : Json :=
  .obj [(lit "version", .int policy.version), (lit "bucket", textJson policy.bucket),
    (lit "control_prefix", textJson policy.controlPrefix),
    (lit "lease", numbersJson policy.lease.fields), (lit "bounds", numbersJson policy.bounds.fields),
    (lit "checkpoints", .arr (policy.entries.map CheckpointEntry.payload))]

/-- `_policy_sha256`; the numbers of a policy always print. -/
def policySha256 (policy : CheckpointPolicy) : Str :=
  sha256 (asciiBytes ((dumps policy.payload).getD []))

def intJson (v : PyVal) : Json :=
  match v with
  | .int n => .int n
  | _ => .null

def planPayload (facts : EvaluationInput) (matched : MatchedCheckpoint) (codes : List String)
    (anchor eligibleAfter : Option Instant) (policySha : Str) : Json :=
  let inventory := facts.inventory
  .obj
    [(lit "checkpoint_id", textJson matched.checkpointId),
      (lit "decision", textJson (if codes.isEmpty then "eligible" else "refused")),
      (lit "eligible_after", optionalUtc eligibleAfter),
      (lit "evaluated_at", optionalUtc facts.evaluatedAt.exactUtc?),
      (lit "inventory", .obj
        [(lit "newest_last_modified", optionalUtc inventory.newestLastModified.exactUtc?),
          (lit "object_count", intJson inventory.objectCount),
          (lit "sha256", if inventory.inventorySha256.isSha256 then
            (inventory.inventorySha256.str?.map Json.str).getD .null else .null),
          (lit "total_bytes", intJson inventory.totalBytes)]),
      (lit "policy_sha256", .str policySha), (lit "prefix", .str matched.keyPrefix),
      (lit "refusal_codes", .arr (codes.map textJson)),
      (lit "retention_anchor", optionalUtc anchor)]

/-- `policy.match_prefix` of a value of any type. -/
def CheckpointPolicy.matchValue (policy : CheckpointPolicy) (value : PyVal) :
    Except PolicyFailure MatchedCheckpoint :=
  match value with
  | .str keyPrefix => policy.matchPrefix keyPrefix
  | _ => .error (.policy "unsafe_prefix")

def evaluateRetention (policy : CheckpointPolicy) (facts : EvaluationInput) :
    Except PolicyFailure RetentionDecision := do
  let matched ← policy.matchValue facts.keyPrefix
  let entry ← orElse (policy.entry? matched.checkpointId) .runtime
  let anchor := retentionAnchor entry facts.lease facts.terminal facts.inventory
  let eligibleAfter := anchor.bind fun a => a.add entry.retentionSeconds
  -- `tuple(dict.fromkeys(refusal_codes))`
  let orderedCodes := (refusalCodes policy facts matched entry).eraseDups
  let policySha := policySha256 policy
  let planJson ← orElse (dumps (planPayload facts matched orderedCodes anchor eligibleAfter policySha))
    .runtime
  require (planJson.length ≤ policy.bounds.maxSummaryBytes) (.policy "summary_bound_exceeded")
  return ⟨orderedCodes.isEmpty, orderedCodes, anchor, eligibleAfter, policySha, planJson,
    sha256 (asciiBytes planJson)⟩

end Checkpoints
