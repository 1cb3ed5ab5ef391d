/-
Prepared records and attempts.

Preparing an operation writes a record that is never changed.  It names the plan, the
manifest shards and the time from which the quiescence interval is counted.  What is done
under it afterwards is a log of attempts, numbered from one, each a record that is never
changed either.  An attempt says how many objects it found deleted, and names the result
shards that classify every planned object as deleted, failed or not attempted.

The reader trusts none of this: it checks every field of every attempt, the attempts
against their shards, and the log as a whole.  This module has the records, their JSON,
and the reader's checks; the programs that read and write them are in `Operations`.
-/
import DataEngLab.Checkpoints.Planner

namespace Checkpoints

open Lib

/-- `raise OperationFailure(code)` -/
def operationFailure (code : String) : Exn := .operation code false

def statusInvalid : Exn := operationFailure "status_invalid"

def maxResultShardBytes : Nat := 1048576

/-- `_DISPOSABLE_PREFIX` -/
def disposablePrefix : Pattern :=
  Pattern.text (lit "streaming_test/") ++ uuid ++ Pattern.text (lit "/")

def disposableCheckpoint : Str := lit "go-live-streaming-test-v1"

/-- `json.loads(body)` where only `JSONDecodeError` is caught, and becomes `invalid`. -/
def loadsOr (invalid : Exn) (body : Bytes) : Except Exn Json :=
  match loadsBytes .plain body with
  | .ok v => .ok v
  | .error .decode => .error invalid
  | .error .recursion => .error .foreign
  | .error _ => .error .valueError

/-- `_record_sha256`; the JSON of a record that was read from a manifest always prints. -/
def recordSha256 (r : ObjectRecord) : Str := sha256 (asciiBytes ((dumps r.asJson).getD []))

/-! ### Prepared records -/

/-- What a prepared record says but when.  Three fields are copied from the plan's summary without a
look at what they are; in a record that was read back they are strings. -/
structure PreparedIdentity where
  actor : Str
  checkpointId : Str
  evaluatedAt : Json
  inventorySha256 : Json
  manifestShards : List Str
  operationId : Str
  planSha256 : Str
  policySha256 : Str
  keyPrefix : Str
  prefixSha256 : Json
  review : Str

structure Prepared extends PreparedIdentity where
  preparedAt : Str

def Prepared.json (p : Prepared) : Json :=
  object [("actor", .str p.actor), ("checkpoint_id", .str p.checkpointId),
    ("evaluated_at", p.evaluatedAt), ("inventory_sha256", p.inventorySha256),
    ("manifest_shards", .arr (p.manifestShards.map .str)), ("operation_id", .str p.operationId),
    ("plan_sha256", .str p.planSha256), ("policy_sha256", .str p.policySha256),
    ("prefix", .str p.keyPrefix), ("prefix_sha256", p.prefixSha256),
    ("prepared_at", .str p.preparedAt), ("review", .str p.review), ("schema_version", .int 1)]

def preparedFields : List String :=
  ["actor", "checkpoint_id", "evaluated_at", "inventory_sha256", "manifest_shards", "operation_id",
    "plan_sha256", "policy_sha256", "prefix", "prefix_sha256", "prepared_at", "review",
    "schema_version"]

/-- `prepared == identity`, of a record that was read back. -/
def PreparedIdentity.same (p q : PreparedIdentity) : Bool :=
  let sameText := fun v w => (Json.str? v).isSome && Json.str? v == Json.str? w
  p.actor == q.actor && p.checkpointId == q.checkpointId && sameText p.evaluatedAt q.evaluatedAt &&
    sameText p.inventorySha256 q.inventorySha256 && p.manifestShards == q.manifestShards &&
    p.operationId == q.operationId && p.planSha256 == q.planSha256 && p.policySha256 == q.policySha256 &&
    p.keyPrefix == q.keyPrefix && sameText p.prefixSha256 q.prefixSha256 && p.review == q.review

/-- A non-empty list of distinct digests. -/
def digestList (v : Option Json) : Option (List Str) :=
  match v with
  | some (.arr (x :: xs)) =>
      ((x :: xs).mapM Json.str?).filter fun ds => ds.all isSha256 && decide ds.Nodup
  | _ => none

/-- The prepared record of an object, when its fields are of their types. -/
def preparedOf (kvs : List (Str × Json)) : Option Prepared := do
  let text := fun key => (Json.get key kvs).bind Json.str?
  return {
    actor := ← text "actor"
    checkpointId := ← text "checkpoint_id"
    evaluatedAt := .str (← text "evaluated_at")
    inventorySha256 := .str (← text "inventory_sha256")
    manifestShards := ← digestList (Json.get "manifest_shards" kvs)
    operationId := ← text "operation_id"
    planSha256 := ← text "plan_sha256"
    policySha256 := ← text "policy_sha256"
    keyPrefix := ← text "prefix"
    prefixSha256 := .str (← text "prefix_sha256")
    preparedAt := ← text "prepared_at"
    review := ← text "review" }

/-- `prepared_at` and `evaluated_at` are instants, in this order. -/
def Prepared.clocksValid (p : Prepared) : Bool :=
  match parseUtcValue (some p.evaluatedAt), parseUtc p.preparedAt with
  | some evaluated, some prepared => evaluated ≤ prepared
  | _, _ => false

/-- What the reader asks of the fields of a prepared record. -/
def Prepared.valid (p : Prepared) : Bool :=
  isIdentity p.actor && isIdentity p.review && p.checkpointId == disposableCheckpoint &&
    isAscii p.keyPrefix && disposablePrefix.fullmatch p.keyPrefix &&
    Json.str? p.prefixSha256 == some (sha256 (asciiBytes p.keyPrefix)) &&
    isSha256 p.planSha256 && isSha256 p.policySha256 &&
    (Json.str? p.inventorySha256).any isSha256 && p.clocksValid

/-- `value == body` in canonical form; the only failures are those of the writer. -/
def isCanonical (v : Json) (body : Bytes) (maxBytes maxNodes : Nat) : Except Exn Bool := do
  let canonical ← canonicalJsonBytes v maxBytes maxNodes
  return canonical == body

section
variable (policy : CheckpointPolicy)

/-- The prepared record in a value, if it passes every check but the one of the policy. -/
def checkedPrepared (op : Str) (body : Bytes) (v : Json) : Option Prepared :=
  match v with
  | .obj kvs =>
      if Json.hasExactly preparedFields kvs &&
          (match isCanonical v body policy.bounds.maxSummaryBytes maxJsonNodes with
            | .ok canonical => canonical
            | .error _ => false) &&
          (Json.get "schema_version" kvs).any (Json.isInt 1) then
        (preparedOf kvs).filter fun p => p.operationId == op && p.valid
      else none
  | _ => none

/-- `_decode_prepared` -/
def decodePrepared (op : Str) (body : Bytes) : Except Exn Prepared :=
  match loadsBytes .plain body with
  | .error .recursion => .error .foreign
  | .error _ => .error (operationFailure "prepared_invalid")
  | .ok v => do
      let p ← orElse (checkedPrepared policy op body v) (operationFailure "prepared_invalid")
      require (p.policySha256 == Checkpoints.policySha256 policy) (operationFailure "policy_drift")
      return p

/-! ### Result shards -/

inductive Outcome where
  | deleted
  | failed
  | unattempted
deriving DecidableEq

def Outcome.text : Outcome → String
  | .deleted => "deleted"
  | .failed => "failed"
  | .unattempted => "unattempted"

def Outcome.ofText (s : Str) : Option Outcome :=
  [Outcome.deleted, .failed, .unattempted].find? fun o => lit o.text = s

/-- The outcome of an object, by the digest of its record. -/
abbrev Classification := List (Str × Outcome)

def classificationJson (c : Str × Outcome) : Json :=
  object [("object_sha256", .str c.1), ("outcome", textJson c.2.text)]

/-- The classification `_record_status` writes. -/
def classify (deleted failed : List Str) (planned : List ObjectRecord) : Classification :=
  planned.map fun r =>
    (recordSha256 r, if recordSha256 r ∈ deleted then .deleted
      else if recordSha256 r ∈ failed then .failed else .unattempted)

/-- The digests of the deleted objects. -/
def deletedOf (c : Classification) : List Str := (c.filter fun x => x.2 = .deleted).map Prod.fst

/-- The bodies of the result shards of a classification. -/
def resultChunks (c : Classification) : Except Exn (List Classification) := do
  let encoded ← checkAll (fun x => canonicalJsonBytes (classificationJson x) 256 maxJsonNodes) c
  groupBySize (operationFailure "result_shard_bound") maxResultShardBytes (c.zip encoded) [] 2

def resultShardBody (chunk : Classification) : Except Exn Bytes :=
  canonicalJsonBytes (.arr (chunk.map classificationJson)) maxResultShardBytes
    (chunk.length * 4 + 8)

/-- `isinstance(value, (dict, list))`: what cannot be a member of a set. -/
def Json.isContainer : Json → Bool
  | .arr _ => true
  | .obj _ => true
  | _ => false

def outcomeOf (v : Option Json) : Except Exn Outcome :=
  match v with
  | some (.str s) => orElse (Outcome.ofText s) statusInvalid
  | some (.arr _) => .error .typeError
  | some (.obj _) => .error .typeError
  | _ => .error statusInvalid

/-- One entry of a result shard. -/
def decodeClassification (v : Json) : Except Exn (Str × Outcome) :=
  match v with
  | .obj kvs => do
      require (Json.hasExactly ["object_sha256", "outcome"] kvs) statusInvalid
      let digest ← orElse (((Json.get "object_sha256" kvs).bind Json.str?).filter isSha256) statusInvalid
      let outcome ← outcomeOf (Json.get "outcome" kvs)
      return (digest, outcome)
  | _ => .error statusInvalid

/-- The entries of a shard, none of an object that was met before. -/
def decodeClassifications : List Json → Classification → Except Exn Classification
  | [], observed => .ok observed
  | v :: vs, observed => do
      let c ← decodeClassification v
      require (decide (c.1 ∉ observed.map Prod.fst)) statusInvalid
      decodeClassifications vs (observed ++ [c])

/-- A result shard that was read, added to what was observed before. -/
def decodeResultShard (digest : Str) (body : Bytes) (observed : Classification) :
    Except Exn Classification := do
  require (sha256 body == digest) statusInvalid
  let v ← loadsOr statusInvalid body
  match v with
  | .arr values =>
      match isCanonical v body maxResultShardBytes (max 4096 (values.length * 4 + 8)) with
      | .ok true => decodeClassifications values observed
      | _ => .error statusInvalid
  | _ => .error statusInvalid

/-- The size of the planned object with this digest. -/
def sizeOf? (records : List ObjectRecord) (digest : Str) : Nat :=
  ((records.reverse.find? fun r => recordSha256 r = digest).map (·.sizeBytes)).getD 0

/-- The keys of `by_digest`, each once. -/
def plannedDigests (records : List ObjectRecord) : List Str := (records.map recordSha256).eraseDups

/-! ### Attempts -/

inductive AttemptState where
  | prepared
  | notReady
  | refused
  | partly
  | completed
deriving DecidableEq

namespace AttemptState

def text : AttemptState → String
  | prepared => "prepared"
  | notReady => "not_ready"
  | refused => "refused"
  | partly => "partial"
  | completed => "completed"

def ofText (s : Str) : Option AttemptState :=
  [prepared, notReady, refused, partly, completed].find? fun state => lit state.text = s

/-- `state_ranks` -/
def rank : AttemptState → Nat
  | prepared => 0
  | notReady => 1
  | refused => 2
  | partly => 2
  | completed => 3

/-- `_STATUS_PRIMARY_CATEGORIES`; a prepared or completed attempt has none. -/
def categories : AttemptState → List String
  | notReady => ["quiescence_not_ready"]
  | partly => ["delete_partial", "head_mismatch", "operation_deadline", "postflight_not_empty"]
  | refused => ["delete_partial", "head_mismatch", "operation_deadline", "revalidation_failed",
      "revalidation_mismatch"]
  | _ => []

end AttemptState

structure Attempt where
  sequence : Nat
  checkpointId : Str
  state : AttemptState
  deletedBytes : Nat
  deletedObjects : Nat
  deleteRequests : Nat
  headRequests : Nat
  occurredAt : Str
  operationId : Str
  planSha256 : Str
  plannedObjects : Nat
  postflight : Option Str
  primaryCategory : Option Str
  remainingBytes : Nat
  remainingObjects : Nat
  resultShards : List Str
deriving DecidableEq

def optionalText (s : Option Str) : Json :=
  match s with
  | some s => .str s
  | none => .null

def Attempt.json (a : Attempt) : Json :=
  object [("attempt_sequence", .int a.sequence), ("deleted_bytes", .int a.deletedBytes),
    ("deleted_objects", .int a.deletedObjects), ("delete_requests", .int a.deleteRequests),
    ("checkpoint_id", .str a.checkpointId), ("head_requests", .int a.headRequests),
    ("occurred_at", .str a.occurredAt), ("operation_id", .str a.operationId),
    ("plan_sha256", .str a.planSha256), ("planned_objects", .int a.plannedObjects),
    ("postflight_inventory_sha256", optionalText a.postflight),
    ("primary_category", optionalText a.primaryCategory),
    ("remaining_bytes", .int a.remainingBytes), ("remaining_objects", .int a.remainingObjects),
    ("result_shards", .arr (a.resultShards.map .str)), ("schema_version", .int 1),
    ("state", textJson a.state.text)]

/-- What the service returns of an operation: the newest attempt and its body. -/
structure OperationStatus where
  operationId : Str
  body : Bytes
  /-- `json.loads(body)` -/
  value : Attempt

def attemptFields : List String :=
  ["checkpoint_id", "attempt_sequence", "deleted_bytes", "deleted_objects", "delete_requests",
    "head_requests", "occurred_at", "operation_id", "plan_sha256", "planned_objects",
    "postflight_inventory_sha256", "primary_category", "remaining_bytes", "remaining_objects",
    "result_shards", "schema_version", "state"]

def attemptState (v : Option Json) : Except Exn AttemptState :=
  match v with
  | some (.str s) => orElse (AttemptState.ofText s) statusInvalid
  | some (.arr _) => .error .typeError
  | some (.obj _) => .error .typeError
  | _ => .error statusInvalid

/-- `type(value) is int and value >= least` -/
def natField (least : Nat) (v : Option Json) : Except Exn Nat :=
  match v with
  | some (.int n) => if (least : Int) ≤ n then .ok n.toNat else .error statusInvalid
  | _ => .error statusInvalid

def textField (test : Str → Bool) (v : Option Json) : Except Exn Str :=
  orElse ((v.bind Json.str?).filter test) statusInvalid

/-- The digests of the result shards; a set is made of them before they are looked at. -/
def shardsField (v : Option Json) : Except Exn (List Str) :=
  match v with
  | some (.arr xs) =>
      if xs.any Json.isContainer then .error .typeError
      else orElse (digestList v) statusInvalid
  | _ => .error statusInvalid

/-- The primary category, `None` in the states that have none. -/
def categoryField (state : AttemptState) (v : Option Json) : Except Exn (Option Str) :=
  match state.categories, v with
  | [], some .null => .ok none
  | [], _ => .error statusInvalid
  | categories, some (.str s) =>
      if categories.any fun c => lit c == s then .ok (some s) else .error statusInvalid
  | _, _ => .error statusInvalid

/-- `not value` -/
def Json.isFalsy : Json → Bool
  | .null => true
  | .bool b => !b
  | .int n => n == 0
  | .str s => s.isEmpty
  | .arr xs => xs.isEmpty
  | .obj kvs => kvs.isEmpty
  | .float _ => false

def postflightField (v : Option Json) : Except Exn (Option Str) :=
  match v with
  | some .null => .ok none
  | some (.str s) => if isSha256 s then .ok (some s) else .error statusInvalid
  | some v => .error (if Json.isFalsy v then statusInvalid else .typeError)
  | none => .error statusInvalid

/-- The fields of an attempt, each checked on its own, in the order of the source. -/
def attemptOf (canonical : Bool) (kvs : List (Str × Json)) : Except Exn Attempt := do
  let state ← attemptState (Json.get "state" kvs)
  require (Json.hasExactly attemptFields kvs && canonical) statusInvalid
  require ((Json.get "schema_version" kvs).any (Json.isInt 1)) statusInvalid
  let checkpointId ← textField isIdentity (Json.get "checkpoint_id" kvs)
  let planSha256 ← textField isSha256 (Json.get "plan_sha256" kvs)
  let deletedObjects ← natField 0 (Json.get "deleted_objects" kvs)
  let deletedBytes ← natField 0 (Json.get "deleted_bytes" kvs)
  let plannedObjects ← natField 1 (Json.get "planned_objects" kvs)
  let remainingObjects ← natField 0 (Json.get "remaining_objects" kvs)
  require (deletedObjects + remainingObjects == plannedObjects) statusInvalid
  let remainingBytes ← natField 0 (Json.get "remaining_bytes" kvs)
  let sequence ← natField 1 (Json.get "attempt_sequence" kvs)
  let occurredAt ← textField (fun s => (parseUtc s).isSome) (Json.get "occurred_at" kvs)
  let headRequests ← natField 0 (Json.get "head_requests" kvs)
  let deleteRequests ← natField 0 (Json.get "delete_requests" kvs)
  let resultShards ← shardsField (Json.get "result_shards" kvs)
  let primaryCategory ← categoryField state (Json.get "primary_category" kvs)
  let postflight ← postflightField (Json.get "postflight_inventory_sha256" kvs)
  let operationId ← textField (fun _ => true) (Json.get "operation_id" kvs)
  return { sequence, checkpointId, state, deletedBytes, deletedObjects, deleteRequests,
           headRequests, occurredAt, operationId, planSha256, plannedObjects, postflight,
           primaryCategory, remainingBytes, remainingObjects, resultShards }

/-- The fields of a decoded attempt. -/
def attemptValue (body : Bytes) (v : Json) : Except Exn Attempt :=
  match v with
  | .obj kvs => do
      require ((Json.get "state" kvs).isSome && (Json.get "deleted_objects" kvs).isSome) statusInvalid
      let canonical ← isCanonical v body policy.bounds.maxSummaryBytes maxJsonNodes
      attemptOf canonical kvs
  | _ => .error statusInvalid

/-- The first part of the loop of `_latest_status`: the attempt under a key. -/
def decodeAttempt (op : Str) (prepared : Prepared) (key : Nat × Str) (body : Bytes) :
    Except Exn Attempt := do
  let v ← loadsOr statusInvalid body
  let a ← attemptValue policy body v
  require (a.operationId == op && a.checkpointId == prepared.checkpointId &&
    a.planSha256 == prepared.planSha256 && key == (a.sequence, sha256 body)) statusInvalid
  return a

end

/-! ### Attempts against their shards -/

/-- The end of `_read_result_classification`: every planned object once, and the totals. -/
def checkTotals (records : List ObjectRecord) (a : Attempt) (observed : Classification) :
    Except Exn Unit := do
  let planned := plannedDigests records
  let deleted := deletedOf observed
  require (observed.all (fun x => x.1 ∈ planned) && planned.all fun d => d ∈ observed.map Prod.fst)
    statusInvalid
  require (deleted.length == a.deletedObjects && records.length == a.plannedObjects &&
    (deleted.map (sizeOf? records)).sum == a.deletedBytes &&
    ((planned.filter (· ∉ deleted)).map (sizeOf? records)).sum == a.remainingBytes) statusInvalid

/-- `inventory_sha256(())` -/
def emptyInventory : Str := sha256 (joinBodies [])

/-- `set(outcomes.values()) == {outcome}` -/
def onlyOutcome (outcome : Outcome) (observed : Classification) : Bool :=
  !observed.isEmpty && observed.all fun x => x.2 == outcome

/-- What the state of an attempt says about its outcomes and its other fields. -/
def outcomesFit (records : List ObjectRecord) (a : Attempt) (observed : Classification) : Bool :=
  match a.state with
  | .prepared | .notReady => onlyOutcome .unattempted observed && a.deletedBytes == 0 &&
      a.headRequests == 0 && a.deleteRequests == 0 && a.postflight == none
  | .refused => true
  | .partly => !(deletedOf observed).isEmpty
  | .completed => onlyOutcome .deleted observed && (deletedOf observed).length == records.length &&
      a.remainingObjects == 0 && a.remainingBytes == 0 && a.postflight == some emptyInventory

/-! ### The log -/

/-- An attempt that passed its own checks, with the digests it records as deleted. -/
structure ReadAttempt where
  value : Attempt
  deleted : List Str
  body : Bytes

def ReadAttempt.status (op : Str) (r : ReadAttempt) : OperationStatus := ⟨op, r.body, r.value⟩

/-- `occurred_at` is not earlier than that of the attempt before. -/
def notBefore (prev next : Attempt) : Bool :=
  match parseUtc prev.occurredAt, parseUtc next.occurredAt with
  | some p, some n => p ≤ n
  | _, _ => false

/-- An attempt may follow another in the log of an operation on `planned` objects. -/
def ReadAttempt.follows (planned : Nat) (prev next : ReadAttempt) : Bool :=
  next.value.state != .prepared && prev.value.state != .completed &&
    prev.value.state.rank ≤ next.value.state.rank &&
    prev.deleted.all (fun d => d ∈ next.deleted) && notBefore prev.value next.value &&
    match next.value.state with
    | .notReady => next.deleted.isEmpty
    | .partly => !next.deleted.isEmpty
    | .completed => next.deleted.length == planned
    | _ => true

def followAll (planned : Nat) : ReadAttempt → List ReadAttempt → Bool
  | _, [] => true
  | prev, next :: rest => prev.follows planned next && followAll planned next rest

/-- The end of `_latest_status`: the attempts in order, or what makes the log ambiguous. -/
def orderLog (planned : Nat) (statuses : List ReadAttempt) : Except Exn (List ReadAttempt) :=
  let ordered := statuses.insertionSort fun a b => a.value.sequence ≤ b.value.sequence
  match ordered with
  | [] => .ok []
  | first :: rest => do
      require (ordered.map (·.value.sequence) == List.range' 1 ordered.length)
        (operationFailure "status_ambiguous")
      require (first.value.state == .prepared && followAll planned first rest)
        (operationFailure "status_ambiguous")
      return ordered

/-! ### New attempts -/

/-- The arguments of `_record_status`. -/
structure AttemptDraft where
  operationId : Str
  checkpointId : Str
  state : AttemptState
  planSha256 : Str
  deleted : List ObjectRecord
  planned : List ObjectRecord
  primaryCategory : Option String
  headRequests : Nat
  deleteRequests : Nat
  postflight : Option Str
  /-- the time of the attempt, read from the clock when it is `none` -/
  occurredAt : Option Instant
  failed : List ObjectRecord

namespace AttemptDraft

variable (t : AttemptDraft)

def deletedSha256s : List Str := t.deleted.map recordSha256

def classification : Classification := classify t.deletedSha256s (t.failed.map recordSha256) t.planned

def deletedRecords : List ObjectRecord := t.planned.filter fun r => recordSha256 r ∈ t.deletedSha256s

def remainingRecords : List ObjectRecord := t.planned.filter fun r => recordSha256 r ∉ t.deletedSha256s

def attempt (sequence : Nat) (occurredAt : Instant) (resultShards : List Str) : Attempt where
  sequence := sequence
  checkpointId := t.checkpointId
  state := t.state
  deletedBytes := totalBytes t.deletedRecords
  deletedObjects := t.deletedRecords.length
  deleteRequests := t.deleteRequests
  headRequests := t.headRequests
  occurredAt := formatUtc occurredAt
  operationId := t.operationId
  planSha256 := t.planSha256
  plannedObjects := t.planned.length
  postflight := t.postflight
  primaryCategory := t.primaryCategory.map lit
  remainingBytes := totalBytes t.remainingRecords
  remainingObjects := t.remainingRecords.length
  resultShards := resultShards

end AttemptDraft

/-! ### Audits -/

/-- `f"{attempt_sequence}:{sha256(body)}"` -/
def auditName (s : OperationStatus) : Str :=
  decDigits s.value.sequence ++ lit ":" ++ sha256 s.body

def auditId (op : Str) (s : OperationStatus) : Str := uuid5 op (auditName s)

def auditJson (op : Str) (p : Prepared) (s : OperationStatus) : Json :=
  let a := s.value
  object [("actor", .str p.actor), ("attempt_id", .str (auditId op s)), ("attempt_sequence", .int a.sequence),
    ("capability_profile", textJson "minio-2025-09-manual-verified-readback"),
    ("checkpoint_id", .str p.checkpointId), ("decision", textJson a.state.text),
    ("deleted_bytes", .int a.deletedBytes), ("deleted_objects", .int a.deletedObjects),
    ("delete_requests", .int a.deleteRequests), ("head_requests", .int a.headRequests),
    ("manifest_shards", .arr (p.manifestShards.map .str)), ("evaluated_at", p.evaluatedAt),
    ("occurred_at", .str a.occurredAt), ("operation_id", .str op),
    ("plan_sha256", .str a.planSha256), ("planned_objects", .int a.plannedObjects),
    ("planned_bytes", .int (a.deletedBytes + a.remainingBytes)), ("policy_sha256", .str p.policySha256),
    ("postflight_inventory_sha256", optionalText a.postflight), ("prepared_at", .str p.preparedAt),
    ("prefix_sha256", p.prefixSha256), ("primary_category", optionalText a.primaryCategory),
    ("refusal_codes", .arr (a.primaryCategory.toList.map .str)),
    ("remaining_bytes", .int a.remainingBytes), ("remaining_objects", .int a.remainingObjects),
    ("review", .str p.review), ("result_sha256", .str (sha256 s.body)),
    ("result_shards", .arr (a.resultShards.map .str)), ("schema_version", .int 1)]

/-! ### Manifests -/

/-- One record of a manifest shard; every defect becomes the same failure. -/
def decodeManifestRecord (v : Json) : Except Exn ObjectRecord :=
  match v with
  | .obj kvs =>
      if Json.hasExactly recordFields kvs then
        ObjectRecord.create ((Json.get "key" kvs).getD .null) ((Json.get "etag" kvs).getD .null)
          ((Json.get "size_bytes" kvs).getD .null) (parseUtcValue (Json.get "last_modified" kvs))
      else .error .valueError
  | _ => .error .valueError

/-- The records of a manifest shard that was read. -/
def manifestRecords (body : Bytes) : Except Exn (List ObjectRecord) :=
  match loadsBytes .plain body with
  | .error .recursion => .error .foreign
  | .ok (.arr values) =>
      match checkAll decodeManifestRecord values,
        isCanonical (.arr values) body maxResultShardBytes (max 4096 (values.length * 8 + 8)) with
      | .ok records, .ok true => .ok records
      | _, _ => .error (operationFailure "manifest_invalid")
  | _ => .error (operationFailure "manifest_invalid")

def decodeManifestShard (digest : Str) (body : Bytes) : Except Exn (List ObjectRecord) := do
  require (sha256 body == digest) (operationFailure "manifest_digest_mismatch")
  manifestRecords body

end Checkpoints
