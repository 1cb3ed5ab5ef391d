/-
Writer leases.

One lease record per checkpoint says who writes to it.  A lease is acquired, kept alive by
heartbeats, and ended by a terminal transition that also stores the evidence the planner
will judge.  An active lease is never replaced, however old it is: only its own epoch can
end it.

Every transition reads the record, checks it and replaces it under the ETag it read, and
all of them for one checkpoint run under one lock.  Requests are typed as the service
builds them; what is left dynamic is the evidence, which is whatever JSON the writer sent.
-/
import DataEngLab.Checkpoints.Gateway
import DataEngLab.Lib.JsonBounds

namespace Checkpoints

open Lib

structure AcquireRequest where
  checkpointId : Str
  keyPrefix : Str
  workload : Str
  ownerId : Str
  sessionId : Str

structure HeartbeatRequest where
  checkpointId : Str
  keyPrefix : Str
  epoch : Str

/-- The evidence is a value that came out of the JSON reader. -/
structure TerminalRequest where
  checkpointId : Str
  keyPrefix : Str
  epoch : Str
  state : Str
  evidence : List (Str × Json)
  decoded : (Json.obj evidence).Decoded

structure LeaseResult where
  epoch : Str
  etag : Str
  body : Bytes

/-- `_IDENTITY`: a letter or digit, then at most 127 of these or of `.`, `_`, `:` and `-`. -/
def isIdentity (s : Str) : Bool :=
  match s with
  | [] => false
  | c :: rest => isAlnum c && rest.length ≤ 127 &&
      rest.all fun d => isAlnum d || d == 46 || d == 95 || d == 58 || d == 45

/-! ### The record -/

def leaseSchema : Schema :=
  [("acquired_at", [.str]), ("checkpoint_id", [.str]), ("epoch", [.str]), ("expires_at", [.str]),
    ("heartbeat_at", [.str]), ("owner_id", [.str]), ("prefix", [.str]), ("schema_version", [.int]),
    ("session_id", [.str]), ("state", [.str]), ("terminal_evidence", [.dict, .none]),
    ("workload", [.str])]

/-- A lease record, its clocks as texts. -/
structure Lease where
  acquiredAt : Str
  checkpointId : Str
  epoch : Str
  expiresAt : Str
  heartbeatAt : Str
  ownerId : Str
  keyPrefix : Str
  sessionId : Str
  state : Str
  terminalEvidence : Option (List (Str × Json))
  workload : Str

def evidenceJson (evidence : Option (List (Str × Json))) : Json :=
  match evidence with
  | some kvs => .obj kvs
  | none => .null

def Lease.fields (l : Lease) : List (String × Json) :=
  [("acquired_at", .str l.acquiredAt), ("checkpoint_id", .str l.checkpointId),
    ("epoch", .str l.epoch), ("expires_at", .str l.expiresAt), ("heartbeat_at", .str l.heartbeatAt),
    ("owner_id", .str l.ownerId), ("prefix", .str l.keyPrefix), ("schema_version", .int 1),
    ("session_id", .str l.sessionId), ("state", .str l.state),
    ("terminal_evidence", evidenceJson l.terminalEvidence), ("workload", .str l.workload)]

def Lease.json (l : Lease) : Json := object l.fields

/-- The lease of a decoded object of the schema. -/
def leaseOf (kvs : List (Str × Json)) : Lease where
  acquiredAt := textOf "acquired_at" kvs
  checkpointId := textOf "checkpoint_id" kvs
  epoch := textOf "epoch" kvs
  expiresAt := textOf "expires_at" kvs
  heartbeatAt := textOf "heartbeat_at" kvs
  ownerId := textOf "owner_id" kvs
  keyPrefix := textOf "prefix" kvs
  sessionId := textOf "session_id" kvs
  state := textOf "state" kvs
  terminalEvidence := match Json.get "terminal_evidence" kvs with
    | some (.obj evidence) => some evidence
    | _ => none
  workload := textOf "workload" kvs

def leaseStates : List Str := [lit "active", lit "stopped", lit "completed", lit "retired"]

/-- `acquired_at <= heartbeat_at <= expires_at` and `expires_at - heartbeat_at = ttl`. -/
def Lease.clocksValid (policy : CheckpointPolicy) (l : Lease) : Bool :=
  match parseUtc l.acquiredAt, parseUtc l.heartbeatAt, parseUtc l.expiresAt with
  | some acquired, some heartbeat, some expires =>
      acquired ≤ heartbeat && heartbeat ≤ expires &&
        expires.second - heartbeat.second == policy.lease.ttlSeconds
  | _, _, _ => false

def Lease.isActive (l : Lease) : Bool := l.state == lit "active"

section
variable (policy : CheckpointPolicy)

/-- `_decode_lease` -/
def decodeLease (body : Bytes) : Except Exn Lease :=
  match decodeExactJson body leaseSchema policy.bounds.maxSummaryBytes with
  | .error _ => .error (.lease "lease_malformed")
  | .ok kvs =>
      let l := leaseOf kvs
      if (Json.get "schema_version" kvs).any (Json.isInt 1) && decide (l.state ∈ leaseStates) &&
          uuid.fullmatch l.epoch && l.clocksValid policy then .ok l
      else .error (.lease "lease_malformed")

def canonicalSummary (v : Json) : Except Exn Bytes :=
  canonicalJsonBytes v policy.bounds.maxSummaryBytes maxJsonNodes

/-- `now + timedelta(seconds=seconds)` -/
def plusSeconds (now : Instant) (seconds : Nat) : Except Exn Instant :=
  orElse (now.add seconds) .overflowError

def requireIdentity (current : Lease) (checkpointId keyPrefix : Str) : Except Exn Unit :=
  require (current.checkpointId == checkpointId && current.keyPrefix == keyPrefix)
    (.lease "lease_identity_mismatch")

/-- `_validate_identity_request` -/
def validateIdentityRequest (checkpointId keyPrefix : Str) (epoch : Option Str) :
    Except Exn MatchedCheckpoint :=
  match policy.matchPrefix keyPrefix with
  | .error _ => .error (.lease "lease_identity_mismatch")
  | .ok matched => do
      require (checkpointId == lit matched.checkpointId) (.lease "lease_identity_mismatch")
      require (epoch.all fun e => uuid.fullmatch e) (.lease "lease_identity_mismatch")
      return matched

/-- `self._policy.entries[matched.checkpoint_id]` -/
def entryOf (matched : MatchedCheckpoint) : Except Exn CheckpointEntry :=
  orElse (policy.entry? matched.checkpointId) .keyError

def validateAcquire (request : AcquireRequest) : Except Exn MatchedCheckpoint := do
  let matched ← validateIdentityRequest policy request.checkpointId request.keyPrefix none
  let entry ← entryOf policy matched
  require (lit entry.workload == request.workload) (.lease "lease_identity_mismatch")
  require (isIdentity request.ownerId && isIdentity request.sessionId) (.lease "request_invalid")
  return matched

/-- Whether an existing record lets a new lease in, and the ETag to replace it under. -/
def admitAcquire (now : Instant) (matched : MatchedCheckpoint) (request : AcquireRequest)
    (existing : Option (Lease × Str)) : Except Exn (Option Str) :=
  match existing with
  | none => .ok none
  | some (current, etag) =>
      match parseUtc current.expiresAt, parseUtc current.heartbeatAt with
      | some expires, some heartbeat => do
          let limit ← plusSeconds now policy.lease.futureToleranceSeconds
          require (heartbeat ≤ limit) (.lease "lease_future_clock")
          if current.isActive then do
            requireIdentity current (lit matched.checkpointId) request.keyPrefix
            .error (.lease (if now ≤ expires then "lease_active" else "lease_expired_active_uncertain"))
          else
            match policy.matchPrefix current.keyPrefix with
            | .error _ => .error (.lease "lease_identity_mismatch")
            | .ok prior => do
                require (prior.checkpointId == matched.checkpointId) (.lease "lease_identity_mismatch")
                return some etag
      | _, _ => .error (.lease "lease_malformed")

/-- The lease an acquisition writes. -/
def newLease (now expires : Instant) (matched : MatchedCheckpoint) (request : AcquireRequest)
    (epoch : Str) : Lease where
  acquiredAt := formatUtc now
  checkpointId := lit matched.checkpointId
  epoch := epoch
  expiresAt := formatUtc expires
  heartbeatAt := formatUtc now
  ownerId := request.ownerId
  keyPrefix := request.keyPrefix
  sessionId := request.sessionId
  state := lit "active"
  terminalEvidence := none
  workload := request.workload

/-- The lease after a heartbeat or a terminal transition. -/
def Lease.moved (l : Lease) (now expires : Instant) (state : Str)
    (evidence : Option (List (Str × Json))) : Lease :=
  { l with heartbeatAt := formatUtc now, expiresAt := formatUtc expires, state := state,
           terminalEvidence := evidence }

/-! ### Evidence -/

mutual
/-- `_freeze_mapping` goes into objects but not into lists, and stops at a float. -/
def freezes : Json → Bool
  | .float _ => false
  | .obj kvs => freezesMembers kvs
  | _ => true

def freezesMembers : List (Str × Json) → Bool
  | [] => true
  | (_, v) :: kvs => freezes v && freezesMembers kvs
end

/-- `_freeze_mapping`, which is part of making a `TerminalRequest`. -/
def freezeMapping (evidence : List (Str × Json)) : Except Exn Unit :=
  require (freezesMembers evidence) (.lease "terminal_evidence_invalid")

/-- `evidence.get(key, False)` -/
def flagOf (key : String) (evidence : List (Str × Json)) : Json :=
  (Json.get key evidence).getD (.bool false)

def Json.isTrue : Json → Bool
  | .bool b => b
  | _ => false

def Json.isBool : Json → Bool
  | .bool _ => true
  | _ => false

/-- `dict(generation) == dict(matched.generation)` -/
def sameGeneration (generation : List (String × Str)) (v : Option Json) : Bool :=
  match v with
  | some (.obj kvs) => kvs.length == generation.length &&
      generation.all fun g => ((Json.get g.1 kvs).bind Json.str?) == some g.2
  | _ => false

mutual
/-- `stored == frozen`: a list of the stored record is a list, one of the frozen request is a
tuple, so the two are never equal. -/
def frozenEq : Json → Json → Bool
  | .null, .null => true
  | .str s, .str t => s == t
  | .obj kvs, .obj kvs' => kvs.length == kvs'.length && frozenEqMembers kvs kvs'
  | .int n, v => Json.isInt n v
  | .bool b, v => Json.isInt (if b then 1 else 0) v
  | _, _ => false

def frozenEqMembers : List (Str × Json) → List (Str × Json) → Bool
  | [], _ => true
  | (k, v) :: kvs, kvs' =>
      (match kvs'.find? fun kv => kv.1 == k with
        | some kv => frozenEq v kv.2
        | none => false) && frozenEqMembers kvs kvs'
end

def terminalFlags : List String :=
  ["exclusive_run", "recovery_approved", "sink_disposition_approved", "source_available", "successful"]

/-- The record `_persist_terminal` writes. -/
def terminalRecord (request : TerminalRequest) (lease : Lease) : Json :=
  object [("checkpoint_id", .str request.checkpointId),
    ("exclusive_run", flagOf "exclusive_run" request.evidence),
    ("generation", (Json.get "generation" request.evidence).getD .null),
    ("occurred_at", .str lease.heartbeatAt), ("prefix", .str request.keyPrefix),
    ("recovery_approved", flagOf "recovery_approved" request.evidence), ("schema_version", .int 1),
    ("sink_disposition_approved", flagOf "sink_disposition_approved" request.evidence),
    ("source_available", flagOf "source_available" request.evidence), ("state", .str request.state),
    ("successful", flagOf "successful" request.evidence)]

/-- What `terminal` checks before it takes the lock. -/
def validateTerminal (request : TerminalRequest) : Except Exn Unit := do
  let matched ← validateIdentityRequest policy request.checkpointId request.keyPrefix (some request.epoch)
  let entry ← entryOf policy matched
  require (entry.durability.leaseStates.any fun s => lit s == request.state)
    (.lease "terminal_state_invalid")
  require (sameGeneration matched.generation (Json.get "generation" request.evidence))
    (.lease "generation_identity_mismatch")
  require (entry.durability != .disposableAcceptance ||
    ((Json.get "successful" request.evidence).any Json.isTrue &&
      (Json.get "exclusive_run" request.evidence).any Json.isTrue)) (.lease "terminal_evidence_invalid")

end

/-! ### Clock and lock -/

/-- An exact UTC reading, or the failure `failure` makes of the code. -/
def exactReading (failure : String → Exn) : Reply (Option Datetime) → Except Exn Instant
  | .ok (some value) => orElse value.instant? (failure "clock_invalid")
  | .ok none => .error (failure "clock_invalid")
  | .raised => .error (failure "clock_failed")
  | .interrupt => .error .interrupt

/-- `LeaseManager._exact_now` -/
def leaseNow : M Instant := do
  let reading ← perform .now
  lift (exactReading .lease reading)

/-- `with locks.hold(checkpoint_id): body` -/
def withLock {α : Type} (checkpointId : Str) (body : M α) : M α := do
  lift (require (isIdentity checkpointId) (.lease "lease_identity_mismatch"))
  let _ ← perform (.hold checkpointId)
  let outcome ← Proc.attempt body
  let _ ← perform (.release checkpointId)
  lift outcome

/-- Any failure of the gateway but the operation's deadline becomes `code`. -/
def leaseError (code : String) : Exn → Exn
  | .gateway c ks => if c = "operation_deadline" then .gateway c ks else .lease code
  | e => e

section
variable (policy : CheckpointPolicy) (d : Deadline)

def readSummary (key : ControlKey) : M (Bytes × Str) :=
  readControl policy d key policy.bounds.maxSummaryBytes

/-- The record under a key, `none` when there is none. -/
def optionalLease (key : ControlKey) : M (Option (Lease × Str)) := do
  let outcome ← Proc.attempt (readSummary policy d key)
  match outcome with
  | .ok (body, etag) => do
      let current ← lift (decodeLease policy body)
      pure (some (current, etag))
  | .error e =>
      if e.isGateway ∧ e.code? = some "control_missing" then pure none
      else throw (leaseError "lease_read_failed" e)

def requiredLease (key : ControlKey) : M (Lease × Bytes × Str) := do
  let (body, etag) ← tryCatch (readSummary policy d key) fun e =>
    throw (leaseError "lease_read_failed" e)
  let current ← lift (decodeLease policy body)
  return (current, body, etag)

/-- The epoch of `uuid_factory`. -/
def epochOf : Reply (Option Str) → Except Exn Str
  | .ok (some epoch) => do
      require (uuid.fullmatch epoch) (.lease "epoch_invalid")
      return epoch
  | .ok none => .error (.lease "epoch_invalid")
  | .raised => .error .foreign
  | .interrupt => .error .interrupt

def writeLease (key : ControlKey) (body : Bytes) (replaceEtag : Option Str) : M Str :=
  match replaceEtag with
  | none => tryCatch (createControl policy d key body) fun e =>
      throw (leaseError "lease_create_failed" e)
  | some etag => tryCatch (replaceLease policy d key etag body) fun e =>
      throw (leaseError "lease_replace_failed" e)

def acquireLocked (matched : MatchedCheckpoint) (request : AcquireRequest) : M LeaseResult := do
  let now ← leaseNow
  let existing ← optionalLease policy d (.lease request.checkpointId)
  let replaceEtag ← lift (admitAcquire policy now matched request existing)
  let reply ← perform .uuid
  let epoch ← lift (epochOf reply)
  let expires ← lift (plusSeconds now policy.lease.ttlSeconds)
  let body ← lift (canonicalSummary policy (newLease now expires matched request epoch).json)
  let etag ← writeLease policy d (.lease request.checkpointId) body replaceEtag
  return ⟨epoch, etag, body⟩

def acquire (request : AcquireRequest) : M LeaseResult := do
  let matched ← lift (validateAcquire policy request)
  withLock request.checkpointId (acquireLocked policy d matched request)

/-- `_transition_locked`, of a heartbeat or of a terminal request. -/
def transitionLocked (checkpointId keyPrefix epoch state : Str)
    (evidence : Option (List (Str × Json))) : M LeaseResult := do
  let now ← leaseNow
  let (current, _, etag) ← requiredLease policy d (.lease checkpointId)
  lift (requireIdentity current checkpointId keyPrefix)
  lift (require (current.epoch == epoch) (.lease "lease_identity_mismatch"))
  lift (require current.isActive (.lease "lease_not_active"))
  let expires ← lift (plusSeconds now policy.lease.ttlSeconds)
  let body ← lift (canonicalSummary policy (current.moved now expires state evidence).json)
  let nextEtag ← tryCatch (replaceLease policy d (.lease checkpointId) etag body) fun e =>
    throw (leaseError "lease_ownership_lost" e)
  return ⟨epoch, nextEtag, body⟩

def heartbeat (request : HeartbeatRequest) : M LeaseResult := do
  let _ ← lift (validateIdentityRequest policy request.checkpointId request.keyPrefix
    (some request.epoch))
  withLock request.checkpointId
    (transitionLocked policy d request.checkpointId request.keyPrefix request.epoch (lit "active") none)

/-- The inner `try` of `_persist_terminal`. -/
def storeTerminal (key : ControlKey) (body : Bytes) : M Unit := do
  let outcome ← Proc.attempt (readSummary policy d key)
  match outcome with
  | .ok (existing, etag) =>
      if existing = body then pure ()
      else do
        let _ ← replaceLease policy d key etag body
  | .error e =>
      if e.isGateway ∧ e.code? = some "control_missing" then do
        let _ ← createControl policy d key body
      else throw e

def terminalError : Exn → Exn
  | .interrupt => .interrupt
  | .gateway c ks => if c = "operation_deadline" then .gateway c ks else .lease "terminal_record_failed"
  | _ => .lease "terminal_record_failed"

def persistTerminal (request : TerminalRequest) (leaseBody : Bytes) : M Unit := do
  let lease ← lift (decodeLease policy leaseBody)
  lift (require (terminalFlags.all fun f => Json.isBool (flagOf f request.evidence))
    (.lease "terminal_evidence_invalid"))
  let body ← lift (canonicalSummary policy (terminalRecord request lease))
  tryCatch (storeTerminal policy d (.terminal request.checkpointId) body) fun e =>
    throw (terminalError e)

/-- The lease is ended by this request, or was ended by the same one before. -/
def endLease (request : TerminalRequest) : M LeaseResult := do
  let (current, currentBody, currentEtag) ← requiredLease policy d (.lease request.checkpointId)
  lift (requireIdentity current request.checkpointId request.keyPrefix)
  lift (require (current.epoch == request.epoch) (.lease "lease_identity_mismatch"))
  if current.isActive then
    transitionLocked policy d request.checkpointId request.keyPrefix request.epoch request.state
      (some request.evidence)
  else if current.state = request.state ∧
      (current.terminalEvidence.any fun stored => frozenEq (.obj stored) (.obj request.evidence)) then
    pure ⟨request.epoch, currentEtag, currentBody⟩
  else throw (.lease "lease_not_active")

def terminalLocked (request : TerminalRequest) : M LeaseResult := do
  let result ← endLease policy d request
  persistTerminal policy d request result.body
  return result

def terminal (request : TerminalRequest) : M LeaseResult := do
  lift (validateTerminal policy request)
  withLock request.checkpointId (terminalLocked policy d request)

end

end Checkpoints
