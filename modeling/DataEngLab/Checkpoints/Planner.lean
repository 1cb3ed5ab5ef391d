/-
The retention planner.

`plan` inventories one prefix, reads the lease and the terminal record of its checkpoint,
asks the evaluator, and writes down what it saw: the decision, the inventory cut into
shards, and a summary that names the shards by digest.  It changes nothing.

The planner has readers of its own for the two control records, less strict than the
lease manager's: what it reads, the evaluator judges.
-/
import DataEngLab.Checkpoints.Leases
import DataEngLab.Checkpoints.Evaluate

namespace Checkpoints

open Lib

structure PlanRequest where
  checkpointId : Str
  keyPrefix : Str
  actor : Str
  /-- `none` when it is not a `datetime` -/
  evaluatedAt : Option Datetime

/-! ### Control records -/

/-- A decoded value, as the evaluator is given it. -/
def PyVal.ofJson : Json → PyVal
  | .null => .none
  | .bool b => .bool b
  | .int n => .int n
  | .str s => .str s
  | _ => .other

/-- The `generation` of a terminal record. -/
def PyVal.ofMembers (kvs : List (Str × Json)) : PyVal :=
  .mapping (kvs.map fun kv => (.str kv.1, PyVal.ofJson kv.2))

def PyVal.ofInstant (t : Instant) : PyVal := .datetime t.datetime

/-- `planner._decode_lease` -/
def decodeLeaseFacts (body : Bytes) (etag : Str) : Except Exn LeaseFacts :=
  match decodeExactJson body leaseSchema maxJsonBytes with
  | .error _ => .error (.plan "lease_malformed")
  | .ok kvs =>
      let l := leaseOf kvs
      match (Json.get "schema_version" kvs).any (Json.isInt 1), parseUtc l.acquiredAt,
        parseUtc l.heartbeatAt, parseUtc l.expiresAt with
      | true, some acquired, some heartbeat, some expires =>
          .ok {
            checkpointId := .str l.checkpointId
            keyPrefix := .str l.keyPrefix
            state := .str l.state
            acquiredAt := .ofInstant acquired
            heartbeatAt := .ofInstant heartbeat
            expiresAt := .ofInstant expires
            etag := .str etag
            conflicting := .bool false
            malformed := .bool false }
      | _, _, _, _ => .error (.plan "lease_malformed")

def terminalSchema : Schema :=
  [("checkpoint_id", [.str]), ("exclusive_run", [.bool]), ("generation", [.dict]),
    ("occurred_at", [.str]), ("prefix", [.str]), ("recovery_approved", [.bool]),
    ("schema_version", [.int]), ("sink_disposition_approved", [.bool]),
    ("source_available", [.bool]), ("state", [.str]), ("successful", [.bool])]

def retiredTerminalSchema : Schema := terminalSchema ++ [("retirement_review", [.str])]

/-- The fields of a terminal record, under either schema. -/
def terminalFields (body : Bytes) : Except Exn (List (Str × Json)) :=
  match decodeExactJson body terminalSchema maxJsonBytes with
  | .error (.record _) => decodeExactJson body retiredTerminalSchema maxJsonBytes
  | r => r

/-- `value[key]` of a terminal record. -/
def fieldOf (key : String) (kvs : List (Str × Json)) : PyVal :=
  .ofJson ((Json.get key kvs).getD .null)

def terminalFacts (kvs : List (Str × Json)) (occurred : Instant) : TerminalFacts where
  state := fieldOf "state" kvs
  occurredAt := .ofInstant occurred
  recoveryApproved := fieldOf "recovery_approved" kvs
  sourceAvailable := fieldOf "source_available" kvs
  sinkDispositionApproved := fieldOf "sink_disposition_approved" kvs
  retirementReview := fieldOf "retirement_review" kvs
  generation := match Json.get "generation" kvs with
    | some (.obj generation) => .ofMembers generation
    | _ => .none
  exclusiveRun := fieldOf "exclusive_run" kvs
  successful := fieldOf "successful" kvs

/-- `planner._decode_terminal` -/
def decodeTerminalFacts (checkpointId keyPrefix : Str) (body : Bytes) : Except Exn TerminalFacts :=
  match terminalFields body with
  | .error _ => .error (.plan "terminal_malformed")
  | .ok kvs =>
      match (Json.get "schema_version" kvs).any (Json.isInt 1),
        parseUtcValue (Json.get "occurred_at" kvs) with
      | true, some occurred =>
          if textOf "checkpoint_id" kvs = checkpointId ∧ textOf "prefix" kvs = keyPrefix then
            .ok (terminalFacts kvs occurred)
          else .error (.plan "terminal_identity_mismatch")
      | _, _ => .error (.plan "terminal_malformed")

/-! ### The plan -/

def maxPlanBytes : Nat := 134217728
def maxPlanNodes : Nat := 600128

/-- A failure of the registry, as the callers of the planner see it. -/
def policyExn : PolicyFailure → Exn
  | .policy code => .policy code
  | .runtime => .valueError

/-- `value.encode("ascii")` -/
def encodeAscii (s : Str) : Except Exn Bytes :=
  if isAscii s then .ok (asciiBytes s) else .error .valueError

/-- `max(record.last_modified for record in records)` -/
def newestOf : List ObjectRecord → Option Instant
  | [] => none
  | r :: rs => some (rs.foldl (fun t r => laterOf t r.lastModified) r.lastModified)

section
variable (policy : CheckpointPolicy)

def validatePlanRequest (request : PlanRequest) : Except Exn (MatchedCheckpoint × Instant) :=
  match policy.matchPrefix request.keyPrefix with
  | .error _ => .error (.plan "identity_invalid")
  | .ok matched => do
      require (request.checkpointId == lit matched.checkpointId) (.plan "identity_invalid")
      require (isIdentity request.actor) (.plan "actor_invalid")
      let evaluatedAt ← orElse (request.evaluatedAt.bind Datetime.instant?) (.plan "clock_invalid")
      return (matched, evaluatedAt)

def inventorySummary (records : List ObjectRecord) (newest : Instant) (digest : Str) :
    InventorySummary where
  objectCount := .int records.length
  totalBytes := .int (totalBytes records)
  newestLastModified := .ofInstant newest
  inventorySha256 := .str digest
  changedSincePlan := .bool false
  partialRetryConfined := .bool true

def planSummary (request : PlanRequest) (matched : MatchedCheckpoint) (evaluatedAt newest : Instant)
    (records : List ObjectRecord) (digest prefixSha : Str) (decision : RetentionDecision)
    (shards : List ManifestShard) : List (Str × Json) :=
  [("actor", .str request.actor), ("checkpoint_id", textJson matched.checkpointId),
    ("decision", textJson (if decision.eligible then "eligible" else "refused")),
    ("eligible_after", optionalUtc decision.eligibleAfter),
    ("evaluated_at", .str (formatUtc evaluatedAt)),
    ("inventory", object [("newest_last_modified", .str (formatUtc newest)),
      ("object_count", .int records.length), ("sha256", .str digest),
      ("total_bytes", .int (totalBytes records))]),
    ("manifest_shards", .arr (shards.map fun s => .str s.sha256)),
    ("policy_sha256", .str decision.policySha256), ("prefix", .str request.keyPrefix),
    ("prefix_sha256", .str prefixSha),
    ("refusal_codes", .arr (decision.refusalCodes.map textJson)),
    ("retention_anchor", optionalUtc decision.retentionAnchor),
    ("schema_version", .int 1)].map fun f => (lit f.1, f.2)

/-- `json.loads(shard.body)`, of a body that was just written. -/
def loadShard (shard : ManifestShard) : Except Exn Json :=
  match loadsBytes .plain shard.body with
  | .ok v => .ok v
  | .error _ => .error .valueError

/-- The artifact of a summary and its shards. -/
def planArtifact (summary : List (Str × Json)) (shards : List ManifestShard) :
    Except Exn PlanArtifact := do
  let values ← checkAll loadShard shards
  let value := object [("schema_version", .int 1), ("summary", .obj summary), ("shards", .arr values)]
  match canonicalJsonBytes value maxPlanBytes maxPlanNodes with
  | .error _ => .error (.plan "plan_body_invalid")
  | .ok body => .ok ⟨summary, shards, body, sha256 body, digest_self body⟩

/-- What `plan` computes once everything has been read. -/
def evaluatePlan (request : PlanRequest) (matched : MatchedCheckpoint) (evaluatedAt : Instant)
    (records : List ObjectRecord) (lease : Option LeaseFacts) (terminal : Option TerminalFacts) :
    Except Exn PlanArtifact := do
  let newest ← orElse (newestOf records) .valueError
  let digest ← inventorySha256 records
  let facts : EvaluationInput :=
    ⟨.str request.keyPrefix, .ofInstant evaluatedAt, lease, terminal,
      inventorySummary records newest digest⟩
  let decision ← (evaluateRetention policy facts).mapError policyExn
  let shards ← shardInventory records policy.bounds.maxManifestShardBytes
  let encoded ← encodeAscii request.keyPrefix
  planArtifact (planSummary request matched evaluatedAt newest records digest (sha256 encoded)
    decision shards) shards

variable (d : Deadline)

/-- Any failure of the gateway but the operation's deadline becomes `code`. -/
def planError (code : String) : Exn → Exn
  | .gateway c ks => if c = "operation_deadline" then .gateway c ks else .plan code
  | e => e

/-- `_optional_control` -/
def optionalControl {α : Type} (key : ControlKey) (decode : Bytes → Str → Except Exn α) :
    M (Option α) := do
  let outcome ← Proc.attempt (readSummary policy d key)
  match outcome with
  | .ok (body, etag) => do
      let value ← lift (decode body etag)
      pure (some value)
  | .error e =>
      if e.isGateway ∧ e.code? = some "control_missing" then pure none
      else throw (planError "control_read_failed" e)

/-- The terminal record, which is not read while the lease is active. -/
def planTerminal (request : PlanRequest) (lease : Option LeaseFacts) : M (Option TerminalFacts) :=
  if lease.any fun l => l.state.isText (lit "active") then pure none
  else optionalControl policy d (.terminal request.checkpointId) fun body _ =>
    decodeTerminalFacts request.checkpointId request.keyPrefix body

def plan (request : PlanRequest) : M PlanArtifact := do
  let (matched, evaluatedAt) ← lift (validatePlanRequest policy request)
  let records ← tryCatch (inventory policy d request.keyPrefix) fun e =>
    throw (planError "inventory_failed" e)
  lift (require (!records.isEmpty) (.plan "inventory_empty"))
  let lease ← optionalControl policy d (.lease request.checkpointId) decodeLeaseFacts
  let terminal ← planTerminal policy d request lease
  lift (evaluatePlan policy request matched evaluatedAt records lease terminal)

end

end Checkpoints
