/-
Retention operations.

An operation deletes the objects of one reviewed plan, and nothing else.  `prepare` stores
the plan's manifest and the prepared record; `apply`, once the quiescence interval is over,
takes the lock of the checkpoint, reads everything back, plans again, and goes on only if
the new plan is of exactly the objects that are left; then it deletes them in batches, each
object checked by a `HEAD` of its own, and looks at the prefix once more.  Whatever happens
is appended to the log of attempts, so a later `apply` starts from what is known to be gone.

`_apply_locked` is one function of two hundred lines in the source.  Here its parts have
names; what they share is an `ApplyRun`, and what a failed deletion has done so far is the
`Progress` that travels with the exception.
-/
import DataEngLab.Checkpoints.Attempts

namespace Checkpoints

open Lib

structure PrepareRequest where
  operationId : Str
  artifact : PlanArtifact
  planSha256 : Str
  review : Str
  actor : Str

structure ApplyRequest where
  operationId : Str
  planSha256 : Str
  confirmPrefix : Str

/-! ### Requests -/

def planInvalid : Exn := operationFailure "plan_invalid"

/-- A shard of the decoded body is this shard of the artifact. -/
def checkShard (x : Json × ManifestShard) : Except Exn Unit :=
  match canonicalJsonBytes x.1 x.2.body.length (max 4096 (x.2.records.length * 8 + 8)) with
  | .ok body => require (body == x.2.body && Lib.sha256 x.2.body == x.2.sha256) planInvalid
  | .error _ => .error planInvalid

/-- `canonical_json_bytes(decoded["summary"]) == canonical_json_bytes(artifact.summary)` -/
def checkSummary (decoded : Json) (summary : List (Str × Json)) : Except Exn Unit :=
  match canonicalJson decoded, canonicalJson (.obj summary) with
  | .ok a, .ok b => require (a == b) planInvalid
  | _, _ => .error planInvalid

/-- The body of an artifact says what the artifact says. -/
def checkArtifact (artifact : PlanArtifact) : Except Exn Unit :=
  match loadsBytes .plain artifact.body with
  | .error .recursion => .error .foreign
  | .ok (.obj kvs) =>
      match Json.get "summary" kvs, Json.get "shards" kvs with
      | some summary, some (.arr values) => do
          require (Json.hasExactly ["schema_version", "summary", "shards"] kvs &&
            (Json.get "schema_version" kvs).any (Json.isInt 1)) planInvalid
          checkSummary summary artifact.summary
          require (values.length == artifact.shards.length) planInvalid
          let _ ← checkAll checkShard (values.zip artifact.shards)
      | _, _ => .error planInvalid
  | _ => .error planInvalid

/-- `artifact.summary.get(key) == s` -/
def PlanArtifact.states (artifact : PlanArtifact) (key : String) (s : Str) : Bool :=
  (artifact.get key).bind Json.str? == some s

section
variable (policy : CheckpointPolicy)

def validatePrepare (request : PrepareRequest) : Except Exn Unit := do
  require (uuid.fullmatch request.operationId) (operationFailure "operation_id_invalid")
  require (request.planSha256 == request.artifact.sha256 && isSha256 request.planSha256)
    (operationFailure "plan_digest_mismatch")
  require (isIdentity request.review && isIdentity request.actor)
    (operationFailure "review_identity_invalid")
  checkArtifact request.artifact
  require (request.artifact.states "decision" (lit "eligible")) (operationFailure "plan_refused")
  require (request.artifact.states "policy_sha256" (policySha256 policy)) (operationFailure "policy_drift")
  require (request.artifact.states "actor" request.actor) (operationFailure "actor_mismatch")
  require (request.artifact.states "checkpoint_id" disposableCheckpoint &&
    ((request.artifact.get "prefix").bind Json.str?).any disposablePrefix.fullmatch)
    (operationFailure "destructive_scope_invalid")

/-- `summary["inventory"]["sha256"]` -/
def inventoryDigest (artifact : PlanArtifact) : Except Exn Json :=
  match artifact.get "inventory" with
  | some (.obj kvs) => orElse (Json.get "sha256" kvs) .keyError
  | some _ => .error .typeError
  | none => .error .keyError

/-- `prepared_identity`, of a request that has been validated. -/
def preparedIdentity (request : PrepareRequest) : Except Exn PreparedIdentity := do
  let artifact := request.artifact
  let evaluatedAt ← orElse (artifact.get "evaluated_at") .keyError
  let inventorySha256 ← inventoryDigest artifact
  let prefixSha256 ← orElse (artifact.get "prefix_sha256") .keyError
  return {
    actor := request.actor
    checkpointId := textOf "checkpoint_id" artifact.summary
    evaluatedAt
    inventorySha256
    manifestShards := artifact.shards.map (·.sha256)
    operationId := request.operationId
    planSha256 := request.planSha256
    policySha256 := textOf "policy_sha256" artifact.summary
    keyPrefix := textOf "prefix" artifact.summary
    prefixSha256
    review := request.review }

def validateApply (request : ApplyRequest) : Except Exn Unit := do
  require (uuid.fullmatch request.operationId) (operationFailure "operation_id_invalid")
  require (isSha256 request.planSha256) (operationFailure "plan_digest_mismatch")
  require (disposablePrefix.fullmatch request.confirmPrefix) (operationFailure "destructive_scope_invalid")

/-- `prepared_at` and `evaluated_at`, of a record that was read back. -/
def preparedClocks (p : Prepared) : Except Exn (Instant × Instant) :=
  match parseUtc p.preparedAt, parseUtcValue (some p.evaluatedAt) with
  | some prepared, some evaluated => .ok (prepared, evaluated)
  | _, _ => .error (operationFailure "prepared_invalid")

end

/-! ### Errors of the gateway -/

def operationDeadline : Exn := operationFailure "operation_deadline"

/-- The operation's deadline stays itself; any other failure becomes `code`. -/
def readError (code : String) (e : Exn) : Exn :=
  if e = .interrupt then .interrupt
  else if e.isDeadline then operationDeadline
  else operationFailure code

def Exn.isMissing (e : Exn) : Bool := e.isGateway && e.code? == some "control_missing"

/-- A failed read of an audit: what is not of the gateway passes unchanged. -/
def auditError (e : Exn) : Exn := if e.isGateway then readError "audit_read_failed" e else e

/-- A failed read of a record that could not be created.  After a failure of the gateway only
failures of the gateway are handled. -/
def createReadError (gateway : Bool) (e : Exn) : Exn :=
  if gateway && !e.isGateway then e else readError "control_create_failed" e

/-- A failed read of a record that was just created. -/
def readbackError (e : Exn) : Exn :=
  if e.isGateway then readError "control_readback_failed" e
  else if e = .interrupt then .interrupt
  else operationFailure "control_readback_failed"

/-! ### Clocks -/

/-- `OperationManager._exact_now` -/
def operationNow : M Instant := do
  let reading ← perform .now
  lift (exactReading operationFailure reading)

def startReading : Reply (Option Rat) → Except Exn Rat
  | .ok started => orElse started (operationFailure "clock_invalid")
  | .raised => .error (operationFailure "clock_failed")
  | .interrupt => .error .interrupt

def startDeadline : M Rat := do
  let reading ← perform .monotonic
  lift (startReading reading)

/-- `check_deadline` -/
def checkDeadline (started maxSeconds : Rat) : M Unit :=
  checkOperationDeadline (.operation started maxSeconds)

section
variable (policy : CheckpointPolicy) (d : Deadline)

/-! ### Control records -/

/-- `_read_control` -/
def readOr (key : ControlKey) (bound : Nat) (code : String) : M Bytes := do
  let (body, _) ← tryCatch (readControl policy d key bound) fun e => throw (readError code e)
  return body

/-- The record under a key, `none` when it is missing; `onError` is applied to other failures. -/
def existing (key : ControlKey) (onError : Exn → Exn) : M (Option Bytes) := do
  let outcome ← Proc.attempt (readControl policy d key policy.bounds.maxSummaryBytes)
  match outcome with
  | .ok (body, _) => pure (some body)
  | .error e => if e.isMissing ∨ e = .keyError then pure none else throw (onError e)

def existingPrepared (op : Str) : M (Option Prepared) := do
  let body ← existing policy d (.prepared op) (readError "prepared_read_failed")
  match body with
  | some body => do
      let p ← lift (decodePrepared policy op body)
      pure (some p)
  | none => pure none

/-- The last step of `_create_identical`. -/
def readBack (key : ControlKey) (body : Bytes) (bound : Nat) : M Unit := do
  let (found, _) ← tryCatch (readControl policy d key bound) fun e => throw (readbackError e)
  lift (require (found == body) (operationFailure "control_readback_mismatch"))

/-- After a failed create: the record may be there all the same. -/
def acceptExisting (key : ControlKey) (body : Bytes) (bound : Nat) (e : Exn) : M Unit :=
  if e = .interrupt then throw .interrupt
  else if e.isDeadline then throw operationDeadline
  else do
    let (found, _) ← tryCatch (readControl policy d key bound) fun e' =>
      throw (createReadError e.isGateway e')
    lift (require (found == body) (operationFailure "control_conflict"))

def createIdentical (key : ControlKey) (body : Bytes) (bound : Nat) : M Unit := do
  let outcome ← Proc.attempt (createControl policy d key body)
  match outcome with
  | .ok _ => readBack policy d key body bound
  | .error e => do
      acceptExisting policy d key body bound e
      readBack policy d key body bound

def ensureAudit (op : Str) (prepared : Prepared) (s : OperationStatus) : M Unit := do
  let body ← lift (canonicalSummary policy (auditJson op prepared s))
  let key := ControlKey.audit op (auditId op s)
  let found ← existing policy d key auditError
  match found with
  | some existing => lift (require (existing == body) (operationFailure "control_conflict"))
  | none => createIdentical policy d key body policy.bounds.maxSummaryBytes

/-! ### The manifest -/

/-- The loop of `_read_manifest`, from the shard with number `index`. -/
def readManifestShards (op : Str) : Nat → List Str → M (List ObjectRecord)
  | _, [] => pure []
  | index, digest :: digests => do
      let body ← readOr policy d (.manifest op index digest) maxResultShardBytes "manifest_read_failed"
      let records ← lift (decodeManifestShard digest body)
      let rest ← readManifestShards op (index + 1) digests
      return records ++ rest

def readManifest (op : Str) (digests : List Str) : M (List ObjectRecord) := do
  let records ← readManifestShards policy d op 0 digests
  lift (require (!records.isEmpty) (operationFailure "manifest_empty"))
  return records

def readBoundManifest (op : Str) (prepared : Prepared) : M (List ObjectRecord) := do
  let records ← readManifest policy d op prepared.manifestShards
  let digest ← lift (inventorySha256 records)
  lift (require (Json.str? prepared.inventorySha256 == some digest) statusInvalid)
  return records

/-! ### Reading the log -/

def readResultShards (op : Str) : List Str → Classification → M Classification
  | [], observed => pure observed
  | digest :: digests, observed => do
      let body ← readOr policy d (.resultShard op digest) maxResultShardBytes "status_invalid"
      let observed ← lift (decodeResultShard digest body observed)
      readResultShards op digests observed

/-- `_read_result_classification` -/
def readResultClassification (op : Str) (a : Attempt) (records : List ObjectRecord) :
    M Classification := do
  let observed ← readResultShards policy d op a.resultShards []
  lift (checkTotals records a observed)
  return observed

/-- One turn of the loop of `_latest_status`. -/
def readAttempt (op : Str) (prepared : Prepared) (records : List ObjectRecord) (key : Nat × Str) :
    M ReadAttempt := do
  let body ← readOr policy d (.attempt op key.1 key.2) policy.bounds.maxSummaryBytes "status_invalid"
  let a ← lift (decodeAttempt policy op prepared key body)
  let observed ← readResultClassification policy d op a records
  lift (require (outcomesFit records a observed) statusInvalid)
  return ⟨a, deletedOf observed, body⟩

def readAttempts (op : Str) (prepared : Prepared) (records : List ObjectRecord) :
    List (Nat × Str) → M (List ReadAttempt)
  | [] => pure []
  | key :: keys => do
      let r ← readAttempt policy d op prepared records key
      let rs ← readAttempts op prepared records keys
      return r :: rs

def ensureAudits (op : Str) (prepared : Prepared) : List ReadAttempt → M Unit
  | [] => pure ()
  | r :: rs => do
      ensureAudit policy d op prepared (r.status op)
      ensureAudits op prepared rs

/-- The keys of the attempts of an operation. -/
def attemptKeys (op : Str) : M (List (Nat × Str)) :=
  tryCatch (listControls d op 1024) fun e => throw (readError "status_read_failed" e)

/-- The attempts of an operation, in order and checked. -/
def readLog (op : Str) (prepared : Prepared) (records : List ObjectRecord) : M (List ReadAttempt) := do
  let keys ← attemptKeys d op
  let statuses ← readAttempts policy d op prepared records keys
  lift (orderLog records.length statuses)

/-- `_latest_status` with `required=False` -/
def latestStatus (op : Str) (prepared : Prepared) (records : List ObjectRecord) :
    M (Option OperationStatus) := do
  let log ← readLog policy d op prepared records
  return log.getLast?.map (·.status op)

/-- `_latest_status` with `required=True`; `repair` is `repair_audits`. -/
def requiredStatus (op : Str) (prepared : Prepared) (records : List ObjectRecord) (repair : Bool) :
    M OperationStatus := do
  let log ← readLog policy d op prepared records
  match log.getLast? with
  | none => throw (operationFailure "status_missing")
  | some last => do
      ensureAudits policy d op prepared (if repair then log else [])
      return last.status op

def status (op : Str) : M OperationStatus := do
  lift (require (uuid.fullmatch op) (operationFailure "operation_id_invalid"))
  let body ← readOr policy d (.prepared op) policy.bounds.maxSummaryBytes "prepared_read_failed"
  let prepared ← lift (decodePrepared policy op body)
  let records ← readBoundManifest policy d op prepared
  requiredStatus policy d op prepared records false

/-! ### Appending to the log -/

/-- The loop of `_write_result_shards`: the digests of the shards. -/
def writeResultShards (op : Str) (started maxSeconds : Rat) : List Classification → M (List Str)
  | [] => pure []
  | chunk :: chunks => do
      let body ← lift (resultShardBody chunk)
      createIdentical policy d (.resultShard op (sha256 body)) body maxResultShardBytes
      checkDeadline started maxSeconds
      let digests ← writeResultShards op started maxSeconds chunks
      return sha256 body :: digests

/-- The time of an attempt: the one it is given, or a reading of the clock. -/
def attemptTime (occurredAt : Option Instant) : M Instant :=
  match occurredAt with
  | some t => pure t
  | none => operationNow

def recordStatus (t : AttemptDraft) (started maxSeconds : Rat) : M OperationStatus := do
  let chunks ← lift (resultChunks t.classification)
  let digests ← writeResultShards policy d t.operationId started maxSeconds chunks
  let keys ← attemptKeys d t.operationId
  let sequence := keys.length + 1
  lift (require (sequence ≤ 1024) (operationFailure "attempt_bound"))
  let occurredAt ← attemptTime t.occurredAt
  let a := t.attempt sequence occurredAt digests
  let body ← lift (canonicalSummary policy a.json)
  createIdentical policy d (.attempt t.operationId sequence (sha256 body)) body
    policy.bounds.maxSummaryBytes
  checkDeadline started maxSeconds
  return ⟨t.operationId, body, a⟩

/-- `_record_status` and then `_ensure_audit`. -/
def recordAudited (prepared : Prepared) (t : AttemptDraft) (started maxSeconds : Rat) :
    M OperationStatus := do
  let s ← recordStatus policy d t started maxSeconds
  ensureAudit policy d t.operationId prepared s
  return s

/-- The draft of an attempt that made no request of the bucket. -/
def Prepared.draft (p : Prepared) (planned : List ObjectRecord) (state : AttemptState)
    (occurredAt : Option Instant) (category : Option String) (deleted : List ObjectRecord) :
    AttemptDraft where
  operationId := p.operationId
  checkpointId := p.checkpointId
  state := state
  planSha256 := p.planSha256
  deleted := deleted
  planned := planned
  primaryCategory := category
  headRequests := 0
  deleteRequests := 0
  postflight := none
  occurredAt := occurredAt
  failed := []

/-- `max_active_seconds` -/
def activeSeconds : Rat := policy.bounds.maxActiveSeconds

/-! ### Preparing -/

def createManifest (op : Str) : List ManifestShard → M Unit
  | [] => pure ()
  | shard :: shards => do
      createIdentical policy d (.manifest op shard.index shard.sha256) shard.body shard.body.length
      createManifest op shards

/-- `_prove_completed_absence` -/
def proveCompletedAbsence (keyPrefix : Str) (s : OperationStatus) (started : Rat) : M Unit := do
  let remaining ← inventory policy d keyPrefix
  checkDeadline started (activeSeconds policy)
  lift (require (remaining.isEmpty && s.value.postflight == some emptyInventory) statusInvalid)

def proveIfCompleted (keyPrefix : Str) (s : OperationStatus) (started : Rat) : M Unit :=
  if s.value.state = .completed then proveCompletedAbsence policy d keyPrefix s started else pure ()

/-- The first attempt, made by `prepare`. -/
def recordPrepared (prepared : Prepared) (records : List ObjectRecord) (started : Rat) :
    M OperationStatus :=
  recordAudited policy d prepared (prepared.draft records .prepared none none []) started
    (activeSeconds policy)

/-- `prepare` of an operation that has a prepared record. -/
def prepareAgain (prepared : Prepared) (records : List ObjectRecord) (started : Rat) :
    M OperationStatus := do
  let prior ← latestStatus policy d prepared.operationId prepared records
  match prior with
  | some prior => do
      proveIfCompleted policy d prepared.keyPrefix prior started
      requiredStatus policy d prepared.operationId prepared records true
  | none => recordPrepared policy d prepared records started

/-- `canonical_json_bytes(prepared)`, its failure renamed. -/
def preparedBody (p : Prepared) : Except Exn Bytes :=
  match canonicalSummary policy p.json with
  | .ok body => .ok body
  | .error _ => .error (operationFailure "prepared_body_invalid")

/-- `prepare` of an operation that has none. -/
def prepareNew (identity : PreparedIdentity) (records : List ObjectRecord) (started : Rat) :
    M OperationStatus := do
  let now ← operationNow
  let prepared : Prepared := { identity with preparedAt := formatUtc now }
  let body ← lift (preparedBody policy prepared)
  createIdentical policy d (.prepared identity.operationId) body policy.bounds.maxSummaryBytes
  recordPrepared policy d prepared records started

def prepare (request : PrepareRequest) : M OperationStatus := do
  let started ← startDeadline
  lift (validatePrepare policy request)
  createManifest policy d request.operationId request.artifact.shards
  let identity ← lift (preparedIdentity request)
  let found ← existingPrepared policy d request.operationId
  match found with
  | some prepared => do
      lift (require (prepared.toPreparedIdentity.same identity) (operationFailure "control_conflict"))
      prepareAgain policy d prepared request.artifact.records started
  | none => prepareNew policy d identity request.artifact.records started

/-! ### Applying before the interval is over -/

/-- `_latest_or_reconstruct_prepared` -/
def latestOrReconstruct (prepared : Prepared) (records : List ObjectRecord) (started : Rat) :
    M OperationStatus := do
  let prior ← latestStatus policy d prepared.operationId prepared records
  match prior with
  | some prior => pure prior
  | none => do
      let (preparedAt, _) ← lift (preparedClocks prepared)
      recordAudited policy d prepared (prepared.draft records .prepared (some preparedAt) none [])
        started (activeSeconds policy)

/-- The newest attempt is the answer to an early `apply`, and no new one is made. -/
def settled (now : Instant) (s : OperationStatus) : Bool :=
  s.value.state ∈ [AttemptState.refused, .partly, .completed] ||
    match parseUtc s.value.occurredAt with
    | some t => now < t
    | none => true

def applyEarly (prepared : Prepared) (started : Rat) (now : Instant) : M OperationStatus := do
  let records ← readBoundManifest policy d prepared.operationId prepared
  let prior ← latestOrReconstruct policy d prepared records started
  proveIfCompleted policy d prepared.keyPrefix prior started
  let repaired ← requiredStatus policy d prepared.operationId prepared records true
  if settled now repaired then pure repaired
  else
    recordAudited policy d prepared
      (prepared.draft records .notReady (some now) (some "quiescence_not_ready") []) started
      (activeSeconds policy)

/-! ### Applying -/

/-- What the parts of `_apply_locked` share: the records of the manifest, and the digests that
earlier attempts record as deleted. -/
structure ApplyRun where
  prepared : Prepared
  records : List ObjectRecord
  started : Rat
  now : Instant
  priorDeleted : List Str

namespace ApplyRun

variable (r : ApplyRun)

/-- `remaining_records` -/
def remaining : List ObjectRecord := r.records.filter fun x => recordSha256 x ∉ r.priorDeleted

def deletedBefore : List ObjectRecord := r.records.filter fun x => recordSha256 x ∈ r.priorDeleted

end ApplyRun

/-- The attempt that records a refusal. -/
def recordRefused (r : ApplyRun) (category : String) (deleted : List ObjectRecord) : M Unit := do
  let _ ← recordAudited policy d r.prepared
    (r.prepared.draft r.records .refused (some r.now) (some category) deleted) r.started
    (activeSeconds policy)

/-- The reading of the service's own clock, which nothing guards. -/
def rawNow : Reply (Option Datetime) → Except Exn (Option Datetime)
  | .ok now => .ok now
  | .raised => .error .foreign
  | .interrupt => .error .interrupt

/-- The `revalidate` of `build_runtime`: a new plan of the prefix. -/
def revalidate (keyPrefix : Str) : M PlanArtifact := do
  let matched ← lift ((policy.matchPrefix keyPrefix).mapError policyExn)
  let reading ← perform .now
  let evaluatedAt ← lift (rawNow reading)
  plan policy d ⟨lit matched.checkpointId, keyPrefix, lit "retention-revalidation", evaluatedAt⟩

/-- `self._revalidate(request.confirm_prefix, self._exact_now())` -/
def currentPlan (keyPrefix : Str) : M PlanArtifact := do
  let _ ← operationNow
  revalidate policy d keyPrefix

/-- The new plan is eligible, under this policy, and of exactly the remaining records. -/
def planMatches (r : ApplyRun) (current : PlanArtifact) : Except Exn Bool := do
  let digest ← inventorySha256 r.remaining
  return current.states "decision" (lit "eligible") &&
    current.states "policy_sha256" (policySha256 policy) &&
    current.states "prefix" r.prepared.keyPrefix &&
    (match inventoryDigest current with
      | .ok v => Json.str? v == some digest
      | .error _ => false) &&
    current.records == r.remaining

/-- What follows a failed revalidation: only a failure of the planner is recorded. -/
def revalidationFailed (r : ApplyRun) (e : Exn) : M Unit :=
  match e with
  | .interrupt => throw .interrupt
  | .operation _ _ => throw (readError "revalidation_failed" e)
  | .gateway _ _ => throw (readError "revalidation_failed" e)
  | _ => do
      recordRefused policy d r "revalidation_failed" r.deletedBefore
      throw (operationFailure "revalidation_failed")

def revalidateRemaining (r : ApplyRun) : M Unit := do
  let outcome ← Proc.attempt (currentPlan policy d r.prepared.keyPrefix)
  match outcome with
  | .error e => revalidationFailed policy d r e
  | .ok current => do
      checkDeadline r.started (activeSeconds policy)
      let same ← lift (planMatches policy r current)
      if same then pure ()
      else do
        recordRefused policy d r "revalidation_mismatch" r.deletedBefore
        throw (operationFailure "revalidation_mismatch")

/-- The prefix is empty when every record is known to be deleted. -/
def inventoryEmpty (keyPrefix : Str) : M Unit := do
  let found ← inventory policy d keyPrefix
  lift (require found.isEmpty (operationFailure "revalidation_mismatch"))

def confirmEmpty (r : ApplyRun) : M Unit := do
  let outcome ← Proc.attempt (inventoryEmpty policy d r.prepared.keyPrefix)
  match outcome with
  | .ok _ => pure ()
  | .error (.operation code isPartial) => do
      recordRefused policy d r code r.records
      throw (.operation code isPartial)
  | .error (.gateway code keys) => throw (readError "revalidation_failed" (.gateway code keys))
  | .error _ => throw (operationFailure "revalidation_failed")

/-! ### Deleting -/

/-- What a deletion has done so far. -/
structure Progress where
  headRequests : Nat
  deleteRequests : Nat
  deleted : List ObjectRecord
  postflight : Option Str
  /-- `current_batch` -/
  batch : List ObjectRecord
  /-- `current_record` -/
  record : Option ObjectRecord

/-- A part of a deletion: an exception carries the progress made before it. -/
abbrev D (α : Type) := Proc Call Answer (Exn × Progress) α

def during {α : Type} (p : Progress) (x : M α) : D α := Proc.mapError (fun e => (e, p)) x

def headAll (started : Rat) : List ObjectRecord → Progress → D Progress
  | [], p => pure p
  | r :: rs, p => do
      let p := { p with record := some r, headRequests := p.headRequests + 1 }
      during p (headRecord policy d r)
      during p (checkDeadline started (activeSeconds policy))
      headAll started rs p

def deleteBatch (started : Rat) (batch : List ObjectRecord) (p : Progress) : D Progress := do
  during p (checkDeadline started (activeSeconds policy))
  let p ← headAll policy d started batch { p with batch := batch }
  let p := { p with deleteRequests := p.deleteRequests + 1 }
  let _ ← during p (deleteRecords policy d batch)
  let p := { p with deleted := p.deleted ++ batch }
  during p (checkDeadline started (activeSeconds policy))
  return p

def deleteBatches (started : Rat) : List (List ObjectRecord) → Progress → D Progress
  | [], p => pure p
  | batch :: batches, p => do
      let p ← deleteBatch policy d started batch p
      deleteBatches started batches p

/-- `remaining_records[offset : offset + max_delete_keys]` for each offset; the first argument is
at least the number of records. -/
def batchesOf {α : Type} (size : Nat) : Nat → List α → List (List α)
  | 0, _ => []
  | _, [] => []
  | fuel + 1, x :: xs => (x :: xs).take size :: batchesOf size fuel ((x :: xs).drop size)

/-- The inventory after the last batch. -/
def postflightInventory (keyPrefix : Str) (started : Rat) (p : Progress) : D Progress := do
  let remaining ← during p (inventory policy d keyPrefix)
  let digest ← during p (lift (inventorySha256 remaining))
  let p := { p with postflight := some digest }
  during p (checkDeadline started (activeSeconds policy))
  during p (lift (require remaining.isEmpty (operationFailure "postflight_not_empty")))
  return p

def deletion (r : ApplyRun) : D Progress := do
  let p ← deleteBatches policy d r.started
    (batchesOf policy.bounds.maxDeleteKeys r.remaining.length r.remaining)
    ⟨0, 0, r.deletedBefore, none, [], none⟩
  postflightInventory policy d r.prepared.keyPrefix r.started p

/-- The attempt that ends a deletion. -/
def ApplyRun.outcome (r : ApplyRun) (p : Progress) (state : AttemptState) (category : Option String)
    (failed : List ObjectRecord) : AttemptDraft :=
  { r.prepared.draft r.records state (some r.now) category p.deleted with
    headRequests := p.headRequests
    deleteRequests := p.deleteRequests
    postflight := p.postflight
    failed := failed }

/-- `primary.code` -/
def primaryCode : Exn → String
  | .operation code _ => code
  | .gateway code _ => if code = "head_mismatch" then "head_mismatch" else "delete_partial"
  | _ => "delete_partial"

/-- What a partly successful deletion reports as deleted is added to what is known. -/
def reportedDeleted (r : ApplyRun) (p : Progress) (e : Exn) : Except Exn Progress :=
  match e with
  | .gateway _ keys =>
      match keys.mapM fun k => r.remaining.reverse.find? fun x => x.key = k with
      | some records => .ok { p with deleted := p.deleted ++ records }
      | none => .error (operationFailure "delete_response_invalid")
  | _ => .ok p

def failedRecords (p : Progress) (code : String) : List ObjectRecord :=
  match code == "head_mismatch", p.record with
  | true, some x => [x]
  | _, _ => p.batch.filter fun x => x ∉ p.deleted

/-- Writing down the failure has a deadline of its own. -/
def persistFailure (r : ApplyRun) (p : Progress) (code : String) : M Unit := do
  let started ← startDeadline
  checkDeadline started 30
  let _ ← recordAudited policy (.operation started 30) r.prepared
    (r.outcome p (if p.deleted.isEmpty then .refused else .partly) (some code) (failedRecords p code))
    started 30
  checkDeadline started 30

def abandon (r : ApplyRun) (p : Progress) (e : Exn) : M OperationStatus :=
  if e = .interrupt then throw .interrupt
  else do
    let p ← lift (reportedDeleted r p e)
    let outcome ← Proc.attempt (persistFailure policy r p (primaryCode e))
    match outcome with
    | .error .interrupt => throw .interrupt
    | _ => throw (.operation (primaryCode e) (!p.deleted.isEmpty))

def completionError (isPartial : Bool) : Exn → Exn
  | .interrupt => .interrupt
  | .operation code _ => .operation code isPartial
  | _ => .operation "evidence_write_failed" isPartial

/-- The completed attempt, its audit, and a last look at the clock. -/
def recordCompleted (r : ApplyRun) (p : Progress) : M OperationStatus := do
  let s ← recordAudited policy d r.prepared (r.outcome p .completed none []) r.started
    (activeSeconds policy)
  checkDeadline r.started (activeSeconds policy)
  return s

def complete (r : ApplyRun) (p : Progress) : M OperationStatus :=
  tryCatch (recordCompleted policy d r p) fun e => throw (completionError (!p.deleted.isEmpty) e)

/-- The rest of `_apply_locked`, once it is known what was deleted before. -/
def deleteRemaining (r : ApplyRun) : M OperationStatus := do
  if r.remaining.isEmpty then confirmEmpty policy d r else revalidateRemaining policy d r
  let outcome ← Proc.attempt (deletion policy d r)
  match outcome with
  | .ok p => complete policy d r p
  | .error (e, p) => abandon policy r p e

/-- What the log says: the answer, or the digests deleted before. -/
def settlePrior (prepared : Prepared) (records : List ObjectRecord) (started : Rat) (now : Instant)
    (prior : OperationStatus) : M (OperationStatus ⊕ List Str) := do
  let occurredAt ← lift (orElse (parseUtc prior.value.occurredAt) statusInvalid)
  if prior.value.state = .completed then do
    proveCompletedAbsence policy d prepared.keyPrefix prior started
    let repaired ← requiredStatus policy d prepared.operationId prepared records true
    pure (.inl repaired)
  else if now < occurredAt then pure (.inl prior)
  else do
    let repaired ← requiredStatus policy d prepared.operationId prepared records true
    let observed ← readResultClassification policy d prepared.operationId repaired.value records
    pure (.inr (deletedOf observed))

/-- `except (KeyError, TypeError, json.JSONDecodeError, RecordFailure)` -/
def priorError : Exn → Exn
  | .keyError => statusInvalid
  | .typeError => statusInvalid
  | .record _ => statusInvalid
  | e => e

def applyLocked (prepared : Prepared) (started : Rat) (now : Instant) : M OperationStatus := do
  checkDeadline started (activeSeconds policy)
  let records ← readBoundManifest policy d prepared.operationId prepared
  checkDeadline started (activeSeconds policy)
  let prior ← latestOrReconstruct policy d prepared records started
  let answer ← tryCatch (settlePrior policy d prepared records started now prior) fun e =>
    throw (priorError e)
  match answer with
  | .inl s => pure s
  | .inr priorDeleted => deleteRemaining policy d ⟨prepared, records, started, now, priorDeleted⟩

def applyLate (prepared : Prepared) (started : Rat) (now : Instant) : M OperationStatus := do
  lift (require (isIdentity prepared.checkpointId) (operationFailure "prepared_invalid"))
  withLock prepared.checkpointId (applyLocked policy d prepared started now)

/-- The prepared record an `apply` confirms. -/
def confirmedPrepared (request : ApplyRequest) : M Prepared := do
  lift (validateApply request)
  let body ← readOr policy d (.prepared request.operationId) policy.bounds.maxSummaryBytes
    "prepared_read_failed"
  let prepared ← lift (decodePrepared policy request.operationId body)
  lift (require (request.planSha256 == prepared.planSha256 && request.confirmPrefix == prepared.keyPrefix)
    (operationFailure "confirmation_mismatch"))
  return prepared

/-- `_apply` -/
def applyRequest (request : ApplyRequest) (started : Rat) : M OperationStatus := do
  let prepared ← confirmedPrepared policy d request
  let now ← operationNow
  let (preparedAt, _) ← lift (preparedClocks prepared)
  let ready ← lift (plusSeconds preparedAt policy.lease.quiescenceSeconds)
  if now < ready then applyEarly policy d prepared started now
  else applyLate policy d prepared started now

end

/-- `apply`, under the operation's own deadline. -/
def apply (policy : CheckpointPolicy) (request : ApplyRequest) : M OperationStatus := do
  let started ← startDeadline
  checkDeadline started (activeSeconds policy)
  let s ← applyRequest policy (.operation started (activeSeconds policy)) request started
  checkDeadline started (activeSeconds policy)
  return s

end Checkpoints
