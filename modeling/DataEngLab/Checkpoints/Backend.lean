/-
The backend, between the routes and the managers.

`invokeAction` is what one request does: it builds the manager's request from the payload,
calls the manager, and counts what came of it.  The managers, the clocks and the counters
are what it calls; nothing is assumed of what the managers answer, so a manager may raise
anything and may return a lease, a plan or a status with any body.

Numbers and texts reach the counters from those answers.  The backend checks some of them
and passes the others on.
-/
import DataEngLab.Checkpoints.Counters
import DataEngLab.Checkpoints.Dispatch
import DataEngLab.Checkpoints.Operations

namespace Checkpoints

open Lib

/-- What the backend is built with. -/
structure BackendConfig where
  policy : CheckpointPolicy
  destructiveEnabled : Bool
  maxOperationSeconds : Nat
  /-- whether the gateway takes the deadline of an operation -/
  takesDeadline : Bool
  /-- `==` of two keys of which one is a float -/
  floatEq : Json → Json → Bool

/-- `OperationStatus`, as the operation manager returns it. -/
structure StatusResult where
  state : Str
  body : Bytes

/-- What the backend calls on: the clocks, the managers, and the counters. -/
inductive BackendCall where
  | monotonic
  | now
  /-- `int(self._now().timestamp())` -/
  | timestamp
  | acquire (request : AcquireRequest)
  | heartbeat (request : HeartbeatRequest)
  | terminal (checkpointId keyPrefix epoch state : Str) (evidence : List (Str × Json))
  | plan (request : PlanRequest)
  | prepare (request : PrepareRequest)
  | apply (request : ApplyRequest)
  | status (op : Str)
  | increment (metric : String) (label : Str) (amount : Int)
  | set (metric : String) (label : Str) (value : Int)
  | recordApply (applied : Applied)

def BackendAnswer : BackendCall → Type
  | .monotonic => Reply (Option Rat)
  | .now => Except Exn Instant
  | .timestamp => Except Exn Instant
  | .acquire _ => Except Exn LeaseResult
  | .heartbeat _ => Except Exn LeaseResult
  | .terminal .. => Except Exn LeaseResult
  | .plan _ => Except Exn PlanArtifact
  | .prepare _ => Except Exn StatusResult
  | .apply _ => Except Exn StatusResult
  | .status _ => Except Exn StatusResult
  | .increment .. => Unit
  | .set .. => Unit
  | .recordApply _ => Except Exn Bool

abbrev B (α : Type) := Proc BackendCall BackendAnswer Raised α

namespace RuntimeBackend

def perform (e : BackendCall) : B (BackendAnswer e) := Proc.perform e

/-- The value of an answer that may be an exception. -/
def value {α : Type} (r : Except Exn α) : B α := Proc.lift (r.mapError .other)

def check {α : Type} (r : Except Raised α) : B α := Proc.lift r

def increment (metric : String) (label : Str) (amount : Int) : B Unit := perform (.increment metric label amount)

def set (metric : String) (label : Str) (amount : Int) : B Unit := perform (.set metric label amount)

/-- Seconds from year 1 to 1970. -/
def unixEpoch : Nat := 62135596800

def unixTime (t : Instant) : Int := (t.second : Int) - unixEpoch

/-! ### Values of unknown type -/

/-- `value in {…}`, of a set of texts; a list or a dictionary cannot be looked up. -/
def choiceOf (allowed : List String) (v : Json) : Except Exn (Option Str) :=
  match v with
  | .str s => .ok (if allowed.any fun a => lit a == s then some s else none)
  | v => if isHashable v then .ok none else .error .typeError

/-- `json.loads(body)` -/
def loaded (body : Bytes) : Except Exn Json :=
  match loadsBytes .plain body with
  | .ok v => .ok v
  | .error .recursion => .error .foreign
  | .error _ => .error .valueError

/-- `v.get(key)`, which only a dictionary has. -/
def getAttr (key : String) (v : Json) : Except Exn (Option Json) :=
  match v with
  | .obj kvs => .ok (Json.get key kvs)
  | _ => .error .attributeError

/-- `v[key]` -/
def item (key : String) (v : Json) : Except Exn Json :=
  match v with
  | .obj kvs => orElse (Json.get key kvs) .keyError
  | _ => .error .typeError

/-- `list(v)` -/
def listOf (v : Json) : Except Exn (List Json) :=
  match v with
  | .arr xs => .ok xs
  | .str s => .ok (s.map fun c => .str [c])
  | .obj kvs => .ok (kvs.map fun kv => .str kv.1)
  | _ => .error .typeError

/-! ### Metrics -/

/-- `except (KeyError, TypeError, ValueError, json.JSONDecodeError, ServiceFailure)` -/
def isDataError : Exn → Bool
  | .keyError | .typeError | .valueError => true
  | .record _ | .policy _ | .plan _ | .lease _ | .gateway .. | .operation .. => true
  | _ => false

def leaseResponseInvalid (e : Exn) : Raised := if isDataError e then refuseWith "lease_response_invalid" else .other e

/-- The heartbeat of a lease body. -/
def heartbeatOf (body : Bytes) : Except Exn Instant := do
  let v ← loaded body
  let text ← item "heartbeat_at" v
  orElse (parseUtcValue (some text)) .valueError

/-- `_record_lease_metrics` -/
def recordLeaseMetrics (checkpointId : Str) (body : Bytes) : B Unit :=
  if checkpointIds.any fun a => lit a == checkpointId then do
    let heartbeat ← check ((heartbeatOf body).mapError leaseResponseInvalid)
    let reading ← perform .now
    let now ← check (Except.mapError leaseResponseInvalid reading)
    set heartbeatAgeMetric checkpointId (max 0 ((now.second : Int) - heartbeat.second))
  else pure ()

/-- `self._set("checkpoint_retention_last_success_unixtime", checkpoint_id, …)` -/
def recordSuccess (checkpointId : Str) : B Unit := do
  let reading ← perform .timestamp
  let now ← value reading
  set lastSuccessMetric checkpointId (unixTime now)

/-- The counts that are recorded of a summary: both have to be integers. -/
def countsOf (summary : List (Str × Json)) : Option (Int × Int) :=
  match (Json.get "inventory" summary).getD (.obj []) with
  | .obj inventory =>
      match (Json.get "object_count" inventory).getD (.int 0), (Json.get "total_bytes" inventory).getD (.int 0) with
      | .int objects, .int bytes => some (objects, bytes)
      | _, _ => none
  | _ => none

def recordInventory (decision : Str) (summary : List (Str × Json)) : B Unit := do
  let known ← value (choiceOf checkpointIds ((Json.get "checkpoint_id" summary).getD .null))
  match known, countsOf summary with
  | some checkpointId, some (objects, bytes) => do
      set objectsMetric checkpointId objects
      set bytesMetric checkpointId bytes
      set eligibleBytesMetric checkpointId (if decision = lit "eligible" then bytes else 0)
  | _, _ => pure ()

def recordRefusals : List Json → B Unit
  | [] => pure ()
  | .str code :: rest => do
      increment refusalsMetric code 1
      recordRefusals rest
  | _ :: rest => recordRefusals rest

/-- The refusal codes of a summary, if they are a list. -/
def summaryRefusals (summary : List (Str × Json)) : List Json :=
  match Json.get "refusal_codes" summary with
  | some (.arr codes) => codes
  | _ => []

/-- The decision of a summary, if it is one that is counted. -/
def countedDecision (summary : List (Str × Json)) : Except Exn (Option Str) :=
  choiceOf ["eligible", "refused"] ((Json.get "decision" summary).getD .null)

/-- `_record_plan_metrics` -/
def recordPlanMetrics (summary : List (Str × Json)) : B Unit := do
  let decision ← value (countedDecision summary)
  match decision with
  | none => pure ()
  | some decision => do
      increment plansMetric decision 1
      recordInventory decision summary
      recordRefusals (summaryRefusals summary)

/-- `result.get(key, 0)`, if it is an integer that is not negative. -/
def naturalOf (key : String) (result : List (Str × Json)) : Option Nat :=
  match (Json.get key result).getD (.int 0) with
  | .int n => if 0 ≤ n then some n.toNat else none
  | _ => none

/-- What `_record_apply_metrics` counts of a result, if anything. -/
def appliedOf (result : List (Str × Json)) : Except Exn (Option Applied) := do
  match ← choiceOf appliedStates ((Json.get "state" result).getD .null) with
  | none => return none
  | some state =>
      match Json.get "operation_id" result, naturalOf "deleted_objects" result, naturalOf "deleted_bytes" result with
      | some (.str op), some objects, some bytes =>
          return some ⟨state, op, objects, bytes, (Json.get "attempt_sequence" result).getD .null⟩
      | _, _, _ => return none

/-- What follows the part under the lock. -/
def recordCompletion (applied : Applied) (result : List (Str × Json)) : B Unit :=
  if applied.state = lit "completed" then do
    let known ← value (choiceOf checkpointIds ((Json.get "checkpoint_id" result).getD .null))
    match known with
    | some checkpointId => recordSuccess checkpointId
    | none => pure ()
  else pure ()

/-- `_record_apply_metrics` -/
def recordApplyMetrics (v : Json) : B Unit :=
  match v with
  | .obj result => do
      let applied ← value (appliedOf result)
      match applied with
      | none => pure ()
      | some applied => do
          let outcome ← perform (.recordApply applied)
          let goesOn ← value outcome
          if goesOn then recordCompletion applied result else pure ()
  | _ => throw (.other .attributeError)

/-! ### Requests -/

/-- `_exact_payload` -/
def exactPayload (fields : List String) (payload : Option (List (Str × Json))) :
    Except Raised (List (Str × Json)) :=
  match payload with
  | some kvs => do
      require (Json.hasExactly fields kvs) (refuseWith "request_invalid")
      require (fields.all fun f => f == "evidence" || ((Json.get f kvs).bind Json.str?).isSome)
        (refuseWith "request_invalid")
      return kvs
  | none => .error (refuseWith "request_invalid")

/-- `_lease_response`; the manager's result has the two texts. -/
def leaseResponse (result : LeaseResult) : Json :=
  object [("epoch", .str result.epoch), ("etag", .str result.etag), ("state", textJson "accepted")]

def acquireAction (payload : Option (List (Str × Json))) : B Json := do
  let kvs ← check (exactPayload ["checkpoint_id", "owner_id", "prefix", "session_id", "workload"] payload)
  let answer ← perform (.acquire ⟨textOf "checkpoint_id" kvs, textOf "prefix" kvs, textOf "workload" kvs,
    textOf "owner_id" kvs, textOf "session_id" kvs⟩)
  let result ← value answer
  recordLeaseMetrics (textOf "checkpoint_id" kvs) result.body
  pure (leaseResponse result)

def heartbeatAction (payload : Option (List (Str × Json))) : B Json := do
  let kvs ← check (exactPayload ["checkpoint_id", "epoch", "prefix"] payload)
  let answer ← perform (.heartbeat ⟨textOf "checkpoint_id" kvs, textOf "prefix" kvs, textOf "epoch" kvs⟩)
  let result ← value answer
  recordLeaseMetrics (textOf "checkpoint_id" kvs) result.body
  pure (leaseResponse result)

/-- `evidence.get("successful") is True` -/
def isSuccessful (evidence : List (Str × Json)) : Bool := Json.isTrue ((Json.get "successful" evidence).getD .null)

def terminalAction (payload : Option (List (Str × Json))) : B Json := do
  let kvs ← check (exactPayload ["checkpoint_id", "epoch", "evidence", "prefix", "state"] payload)
  match Json.get "evidence" kvs with
  | some (.obj evidence) => do
      value (freezeMapping evidence)
      let answer ← perform (.terminal (textOf "checkpoint_id" kvs) (textOf "prefix" kvs) (textOf "epoch" kvs)
        (textOf "state" kvs) evidence)
      let result ← value answer
      recordLeaseMetrics (textOf "checkpoint_id" kvs) result.body
      if isSuccessful evidence then recordSuccess (textOf "checkpoint_id" kvs) else pure ()
      pure (leaseResponse result)
  | _ => throw (refuseWith "request_invalid")

section
variable (cfg : BackendConfig)

def scopeInvalid : Raised := .service ⟨"destructive_scope_invalid", 409, some "refused"⟩

/-- `_require_disposable` -/
def requireDisposable (keyPrefix : Option Json) : Except Raised Unit :=
  match keyPrefix with
  | some (.str keyPrefix) => do
      require (disposablePrefix.fullmatch keyPrefix) scopeInvalid
      let matched ← (cfg.policy.matchPrefix keyPrefix).mapError fun _ => scopeInvalid
      require (matched.checkpointId == "go-live-streaming-test-v1" &&
        (cfg.policy.entry? matched.checkpointId).any fun e => e.durability == .disposableAcceptance) scopeInvalid
  | _ => .error scopeInvalid

/-- A failed `apply`, as the caller sees it. -/
def applyFailure (code : String) : Raised :=
  if code = "operation_deadline" then .service ⟨code, 504, none⟩
  else .service ⟨code, 409, some "refused"⟩

/-- An operation that failed after it began: its last attempt is answered, if it can be read. -/
def partialAction (op : Str) (code : String) : B Json := do
  let outcome ← perform (.status op)
  match outcome with
  | .error .interrupt => throw (.other .interrupt)
  | .error _ => do
      increment partialMetric (lit "partial") 1
      throw (.service ⟨code, 409, some "partial"⟩)
  | .ok status =>
      if status.state = lit "partial" then do
        let result ← value (loaded status.body)
        recordApplyMetrics result
        pure result
      else do
        increment partialMetric (lit "partial") 1
        throw (.service ⟨code, 409, some "partial"⟩)

/-- The texts of `{"refusal_codes": ["destructive_disabled"], "state": "refused"}`. -/
def destructiveDisabled : Json :=
  object [("state", textJson "refused"), ("refusal_codes", .arr [textJson "destructive_disabled"])]

def applyAction (payload : Option (List (Str × Json))) (op : Str) : B Json :=
  if !cfg.destructiveEnabled then pure destructiveDisabled
  else do
    let kvs ← check (exactPayload ["confirm_prefix", "plan_sha256"] payload)
    check (requireDisposable cfg (Json.get "confirm_prefix" kvs))
    let outcome ← perform (.apply ⟨op, textOf "plan_sha256" kvs, textOf "confirm_prefix" kvs⟩)
    match outcome with
    | .ok status => do
        let result ← value (loaded status.body)
        recordApplyMetrics result
        pure result
    | .error (.operation code true) => partialAction op code
    | .error (.operation code false) => throw (applyFailure code)
    | .error e => throw (.other e)

def statusAction (op : Str) : B Json := do
  let answer ← perform (.status op)
  let status ← value answer
  value (loaded status.body)

/-! ### Plans -/

/-- `result.get("summary", {})` of a plan body; what is not a dictionary has no `get`. -/
def summaryOf (result : Json) : Except Exn (List (Str × Json)) := do
  match ← getAttr "summary" result with
  | none => return []
  | some (.obj summary) => return summary
  | some _ => .error .attributeError

def planAction (payload : Option (List (Str × Json))) : B Json := do
  let kvs ← check (exactPayload ["actor", "checkpoint_id", "prefix"] payload)
  let reading ← perform .now
  let now ← value reading
  let answer ← perform (.plan ⟨textOf "checkpoint_id" kvs, textOf "prefix" kvs, textOf "actor" kvs, some now.datetime⟩)
  let artifact ← value answer
  let result ← value (loaded artifact.body)
  let summary ← value (summaryOf result)
  recordPlanMetrics summary
  pure result

def inventoryJson (objects bytes : Json) : Json := object [("object_count", objects), ("total_bytes", bytes)]

def bulkMembers (checkpointId : String) (decision : Json) (inventory : Json) (digest : Json)
    (codes : List Json) : List (Str × Json) :=
  [(lit "checkpoint_id", textJson checkpointId), (lit "decision", decision), (lit "inventory", inventory),
    (lit "policy_sha256", digest), (lit "refusal_codes", .arr codes)]

/-- `_refused_summary` -/
def refusedSummary (checkpointId : String) (digest : Str) (code : String) : List (Str × Json) :=
  bulkMembers checkpointId (textJson "refused") (inventoryJson (.int 0) (.int 0)) (.str digest) [textJson code]

/-- What a bulk plan keeps of an artifact. -/
def bulkSummary (checkpointId : String) (artifact : PlanArtifact) : Except Exn (List (Str × Json)) := do
  let summary := Json.obj artifact.summary
  let decision ← item "decision" summary
  let inventory ← item "inventory" summary
  let objects ← item "object_count" inventory
  let bytes ← item "total_bytes" inventory
  let digest ← item "policy_sha256" summary
  let codes ← listOf (← item "refusal_codes" summary)
  return bulkMembers checkpointId decision (inventoryJson objects bytes) digest codes

/-- The plan of one checkpoint of a bulk plan: refused without asking when its prefix is a template. -/
def bulkEntry (actor : Str) (evaluatedAt : Instant) (digest : Str) (e : CheckpointEntry) :
    B (List (Str × Json)) :=
  if 123 ∈ lit e.keyPrefix then pure (refusedSummary e.checkpointId digest "concrete_prefix_required")
  else do
    let answer ← perform (.plan ⟨lit e.checkpointId, lit e.keyPrefix, actor, some evaluatedAt.datetime⟩)
    match answer with
    | .error (.plan code) => pure (refusedSummary e.checkpointId digest code)
    | .error e => throw (.other e)
    | .ok artifact => value (bulkSummary e.checkpointId artifact)

def bulkPlans (actor : Str) (evaluatedAt : Instant) (digest : Str) : List CheckpointEntry →
    B (List Json)
  | [] => pure []
  | e :: rest => do
      let summary ← bulkEntry actor evaluatedAt digest e
      recordPlanMetrics summary
      let plans ← bulkPlans actor evaluatedAt digest rest
      pure (.obj summary :: plans)

/-- The actor of a bulk request that names every checkpoint, in the order of the registry. -/
def bulkActor (kvs : List (Str × Json)) : Except Raised Str :=
  match Json.get "actor" kvs, Json.get "checkpoint_ids" kvs with
  | some (.str actor), some (.arr ids) => do
      require (ids.map Json.str? == cfg.policy.entries.map fun e => some (lit e.checkpointId))
        (refuseWith "request_invalid")
      return actor
  | _, _ => .error (refuseWith "request_invalid")

/-- `_bulk_plan` -/
def bulkPlan (kvs : List (Str × Json)) : B Json := do
  let actor ← check (bulkActor cfg kvs)
  let reading ← perform .now
  let evaluatedAt ← value reading
  let plans ← bulkPlans actor evaluatedAt (policySha256 cfg.policy) cfg.policy.entries
  pure (object [("plans", .arr plans), ("state", textJson "accepted")])

def isBulk (payload : Option (List (Str × Json))) : Bool := payload.any (Json.hasExactly ["actor", "checkpoint_ids"])

def planOrBulk (payload : Option (List (Str × Json))) : B Json :=
  if isBulk payload then bulkPlan cfg (payload.getD []) else planAction payload

/-! ### Prepare -/

/-- The failures of a preparation, as the caller sees them. -/
def prepareFailure (e : Exn) : Raised :=
  match e with
  | .operation "operation_deadline" _ => .service ⟨"operation_deadline", 504, none⟩
  | .operation code isPartial => .service ⟨code, 409, some (if isPartial then "partial" else "refused")⟩
  | .keyError => .other .keyError
  | e => if isDataError e then refuseWith "request_invalid" else .other e

/-- `uuid.NAMESPACE_URL` -/
def namespaceUrl : Str := lit "6ba7b811-9dad-11d1-80b4-00c04fd430c8"

/-- The operation a plan, its actor and its review are given. -/
def operationIdentifier (planSha256 actor review : Str) : Except Exn Str := do
  let name ← orElse (utf8Encode (lit "checkpoint-retention:" ++ planSha256 ++ lit ":" ++ actor ++ lit ":" ++ review))
    .valueError
  return uuid5 namespaceUrl (name.map UInt8.toNat)

/-- The four members of a request to prepare. -/
def preparePayload (payload : Option (List (Str × Json))) : Except Raised (List (Str × Json)) :=
  match payload with
  | some kvs => do
      require (Json.hasExactly ["actor", "plan", "plan_sha256", "review"] kvs) (refuseWith "request_invalid")
      require (["actor", "plan_sha256", "review"].all fun f => ((Json.get f kvs).bind Json.str?).isSome)
        (refuseWith "request_invalid")
      return kvs
  | none => .error (refuseWith "request_invalid")

/-- The artifact of a request to prepare, and its operation. -/
def preparedRequest (kvs : List (Str × Json)) : Except Raised PrepareRequest := do
  let artifact ← (do
    let body ← canonicalJsonBytes ((Json.get "plan" kvs).getD .null) maxPlanBytes maxPlanNodes
    decodePlanArtifact body maxPlanBytes cfg.policy.bounds.maxManifestShardBytes maxPlanNodes).mapError prepareFailure
  requireDisposable cfg (artifact.get "prefix")
  let op ← (operationIdentifier (textOf "plan_sha256" kvs) (textOf "actor" kvs) (textOf "review" kvs)).mapError
    prepareFailure
  return ⟨op, artifact, textOf "plan_sha256" kvs, textOf "review" kvs, textOf "actor" kvs⟩

def prepareAction (payload : Option (List (Str × Json))) : B Json := do
  let kvs ← check (preparePayload payload)
  let request ← check (preparedRequest cfg kvs)
  let answer ← perform (.prepare request)
  let status ← check (Except.mapError prepareFailure answer)
  let result ← check ((loaded status.body).mapError prepareFailure)
  increment preparedMetric (lit "completed") 1
  pure result

/-! ### The backend -/

/-- `_invoke` -/
def invokeAction (action : Action) (payload : Option (List (Str × Json))) (op : Option Str) : B Json :=
  match action with
  | .acquire => acquireAction payload
  | .heartbeat => heartbeatAction payload
  | .terminal => terminalAction payload
  | .plan => planOrBulk cfg payload
  | .prepare => prepareAction cfg payload
  | .apply => applyAction cfg payload (op.getD [])
  | .status => statusAction (op.getD [])

def checkDeadline (started : Rat) : B Unit := do
  let reading ← perform .monotonic
  value (serviceReading started cfg.maxOperationSeconds reading)

/-- `operation_deadline` of a manager is a timeout of the service. -/
def invokeFailure (e : Raised) : Raised :=
  match e with
  | .other (.gateway "operation_deadline" _) => .service ⟨"operation_deadline", 504, none⟩
  | .other (.operation "operation_deadline" _) => .service ⟨"operation_deadline", 504, none⟩
  | e => e

/-- The first reading of the clock. -/
def startedAt (reading : Reply (Option Rat)) : Except Raised Rat :=
  match reading with
  | .interrupt => .error (.other .interrupt)
  | .ok (some started) => .ok started
  | _ => .error (.service ⟨"operation_deadline", 504, none⟩)

/-- The action under its deadline, which is checked before it too when the gateway takes it. -/
def timedAction (started : Rat) (action : Action) (payload : Option (List (Str × Json))) (op : Option Str) :
    B Json := do
  if cfg.takesDeadline then checkDeadline cfg started else pure ()
  let result ← invokeAction cfg action payload op
  checkDeadline cfg started
  pure result

/-- `RuntimeBackend.invoke` -/
def invoke (action : Action) (payload : Option (List (Str × Json))) (op : Option Str) : B Json := do
  let reading ← perform .monotonic
  let started ← check (startedAt reading)
  Proc.mapError invokeFailure (timedAction cfg started action payload op)

/-- `record_request_failure`, which returns nothing. -/
def recordRequestFailure (outcome : Str) : B Json := do
  increment requestFailuresMetric
    (if outcomes.any fun a => lit a == outcome then outcome else lit "backend_failure") 1
  pure .null

end

end RuntimeBackend

/-- What is asked of the backend. -/
inductive BackendRequest where
  | invoke (action : Action) (payload : Option (List (Str × Json))) (op : Option Str)
  | requestFailed (outcome : Str)

/-- The managers and the clocks answer anything; the counters do what they are told. -/
def backendAnswers (cfg : BackendConfig) : Answers Counters BackendCall BackendAnswer := fun _ s e r w =>
  match e, r with
  | .increment metric label amount, _ => w = s.world.increment metric label amount
  | .set metric label value, _ => w = s.world.set metric label value
  | .recordApply applied, r => (r, w) = s.world.recordApply cfg.floatEq applied
  | _, _ => w = s.world

/-- The backend, any number of requests at once. -/
def backendMachine (cfg : BackendConfig) :
    Machine BackendRequest Counters BackendCall BackendAnswer (Except Raised Json) where
  code
    | .invoke action payload op => RuntimeBackend.invoke cfg action payload op
    | .requestFailed outcome => RuntimeBackend.recordRequestFailure outcome
  step _ := backendAnswers cfg
  drift _ _ := False

end Checkpoints
