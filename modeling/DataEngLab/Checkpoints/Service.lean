/-
The service.

`invoke` is what one request does; `machine` is the process that `build_runtime` makes,
any number of requests served at once over one bucket and one registry of locks.  A
request comes with the deadline its calls are checked against, so that nothing has to be
assumed of the service's own clock.

A runtime cannot be built on a policy that the registry's parser would not accept.
-/
import DataEngLab.Checkpoints.Operations

namespace Checkpoints

open Lib

/-- What `build_runtime` puts together. -/
structure Runtime where
  policy : CheckpointPolicy
  wellFormed : policy.WellFormed
  destructiveEnabled : Bool

inductive Request where
  | acquire (request : AcquireRequest)
  | heartbeat (request : HeartbeatRequest)
  | terminal (request : TerminalRequest)
  | plan (checkpointId keyPrefix actor : Str)
  | prepare (request : PrepareRequest)
  | apply (request : ApplyRequest)
  | status (op : Str)

inductive Response where
  | lease (result : LeaseResult)
  | artifact (artifact : PlanArtifact)
  | status (s : OperationStatus)
  /-- `{"state": "refused", "refusal_codes": ["destructive_disabled"]}` -/
  | disabled

section
variable (rt : Runtime) (d : Deadline)

/-- `_require_disposable` -/
def requireDisposable (keyPrefix : Str) : Except Exn Unit := do
  require (disposablePrefix.fullmatch keyPrefix) (operationFailure "destructive_scope_invalid")
  let matched ← (rt.policy.matchPrefix keyPrefix).mapError fun _ =>
    operationFailure "destructive_scope_invalid"
  require (matched.checkpointId == "go-live-streaming-test-v1" &&
    (rt.policy.entry? matched.checkpointId).any fun e => e.durability == .disposableAcceptance)
    (operationFailure "destructive_scope_invalid")

/-- A partly failed `apply` answers with the attempt that recorded it, if that can be read. -/
def partialStatus (op : Str) (e : Exn) : M Response := do
  let outcome ← Proc.attempt (status rt.policy d op)
  match outcome with
  | .error .interrupt => throw .interrupt
  | .ok s => if s.value.state = .partly then pure (.status s) else throw e
  | .error _ => throw e

def applyAction (request : ApplyRequest) : M Response :=
  if !rt.destructiveEnabled then pure .disabled
  else do
    lift (requireDisposable rt request.confirmPrefix)
    let outcome ← Proc.attempt (apply rt.policy request)
    match outcome with
    | .ok s => pure (.status s)
    | .error (.operation code true) => partialStatus rt d request.operationId (.operation code true)
    | .error e => throw e

/-- `PlanRequest(checkpoint_id, prefix, actor, self._now())` -/
def planAction (checkpointId keyPrefix actor : Str) : M PlanArtifact := do
  let reading ← perform .now
  let evaluatedAt ← lift (rawNow reading)
  plan rt.policy d ⟨checkpointId, keyPrefix, actor, evaluatedAt⟩

def terminalAction (request : TerminalRequest) : M LeaseResult := do
  lift (freezeMapping request.evidence)
  terminal rt.policy d request

/-- `_invoke` -/
def invoke : Request → M Response
  | .acquire request => .lease <$> acquire rt.policy d request
  | .heartbeat request => .lease <$> heartbeat rt.policy d request
  | .terminal request => .lease <$> terminalAction rt d request
  | .plan checkpointId keyPrefix actor => .artifact <$> planAction rt d checkpointId keyPrefix actor
  | .prepare request => .status <$> prepare rt.policy d request
  | .apply request => applyAction rt d request
  | .status op => .status <$> status rt.policy d op

end

/-- A request and the deadline it is served under. -/
structure Served where
  request : Request
  deadline : Deadline

/-- The service process. -/
def machine (rt : Runtime) : Machine Served World Call Answer (Except Exn Response) where
  code q := invoke rt q.deadline q.request
  step _ := answers
  drift _ _ := False

/-- The service has just been started, on any bucket. -/
def started (w : World) : Prop := ∀ c, w.locks c = none

/-- The pools the service can reach. -/
abbrev Reached (rt : Runtime) := Reachable (machine rt) started

end Checkpoints
