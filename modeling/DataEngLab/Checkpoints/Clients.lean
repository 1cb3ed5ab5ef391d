/-
The clients of the checkpoint service.

The command line, the Airflow task and the notebooks each have an HTTP client of their own:
`_request`, `run_retention_plans` and `_post`.  Each makes one request with a bearer token
for a fixed origin, has it sent by an opener of `urllib`, and reads a bounded response.  What
goes wrong on the way is raised under the few codes that each client has for it.
-/
import DataEngLab.Checkpoints.NotebookLease
import DataEngLab.Lib.Checks
import DataEngLab.Lib.Urllib

namespace Checkpoints

open Lib

def origin : Str := lit "http://checkpoint-retention:8080"

def maxClientBody : Nat := 65536

def maxPlanBody : Nat := 128 * 1024 * 1024

def authorization (token : Str) : Str × Str := (lit "Authorization", lit "Bearer " ++ token)

def contentHeaders (body : Bytes) : List (Str × Str) :=
  [(lit "Content-Type", lit "application/json"), (lit "Content-Length", decDigits body.length)]

/-- A `POST` with a JSON body. -/
def postRequest (path token : Str) (body : Bytes) : UrlRequest :=
  ⟨.post, origin ++ path, authorization token :: contentHeaders body, some body⟩

/-- What `response.close()` raises counts only when nothing else has been raised. -/
def closing {ε α : Type} (outcome : Except ε α) (interrupt : ε) (failed : ε) : Http ε α := do
  match ← closeResponse, outcome with
  | _, .error e => throw e
  | .ok _, .ok a => pure a
  | .error .interrupt, .ok _ => throw interrupt
  | .error _, .ok _ => throw failed

/-- A request is prepared and opened, and what follows sees how that ended. -/
def opening {ε α : Type} (urls : UrlParsing) (prepared : Except ε UrlRequest)
    (rest : Except HttpExn Unit → Http ε α) : Http ε α := do
  let request ← Proc.lift prepared
  let opened ← Proc.attempt (openUrl urls none request)
  rest opened

/-! ### The command line -/

inductive CliExn where
  /-- `CliFailure` -/
  | failure (code : String) (exitCode : Nat)
  | interrupt
deriving DecidableEq

mutual
/-- The floats of a value, as `repr` writes them. -/
def Json.mapFloats (repr : Str → Str) : Json → Json
  | .float text => .float (repr text)
  | .arr xs => .arr (mapElems repr xs)
  | .obj kvs => .obj (mapMembers repr kvs)
  | v => v

def mapElems (repr : Str → Str) : List Json → List Json
  | [] => []
  | x :: xs => Json.mapFloats repr x :: mapElems repr xs

def mapMembers (repr : Str → Str) : List (Str × Json) → List (Str × Json)
  | [] => []
  | (k, v) :: kvs => (k, Json.mapFloats repr v) :: mapMembers repr kvs
end

section
variable (urls : UrlParsing) (repr : Str → Str)

/-- `retention._canonical` -/
def cliCanonical (value : Json) (maxBytes : Nat) : Except CliExn Bytes := do
  let text ← orElse (dumps (Json.mapFloats repr value)) (.failure "json_invalid" 2)
  require ((asciiBytes text).length ≤ maxBytes) (.failure "body_too_large" 2)
  return asciiBytes text

/-- `retention._decode_response`; the `ValueError` of a long integer becomes a failure of the service. -/
def decodeResponse (body : Bytes) : Except CliExn (List (Str × Json)) :=
  match loadsUtf8 ⟨true, false⟩ body with
  | .ok (.obj value) => .ok value
  | .ok _ => .error (.failure "response_invalid" 5)
  | .error .value => .error (.failure "service_failure" 5)
  | .error _ => .error (.failure "response_invalid" 5)

def requestBound (path : Str) : Nat :=
  if path = lit "/v1/operations/prepare" then maxPlanBody else maxClientBody

def responseBound (path : Str) : Nat :=
  if path = lit "/v1/plans" then maxPlanBody else maxClientBody

/-- The request of `_request`: a `GET` without a payload. -/
def cliRequest (path : Str) (payload : Option Json) (token : Str) : Except CliExn UrlRequest :=
  match payload with
  | none => .ok ⟨.get, origin ++ path, [authorization token], none⟩
  | some payload => do
      let body ← cliCanonical repr payload (requestBound path)
      return postRequest path token body

/-- The response of a request that has been answered. -/
def cliResponse (bound : Nat) : Http CliExn Bytes := do
  match ← readResponse (some (bound + 1)) with
  | .error .interrupt => throw .interrupt
  | .error _ => throw (.failure "service_failure" 5)
  | .ok raw => do
      Proc.lift (require (raw.length ≤ bound) (.failure "response_invalid" 5))
      let decoded ← Proc.lift (decodeResponse raw)
      Proc.lift (cliCanonical repr (.obj decoded) bound)

/-- The state in the body of an `HTTPError`, when there is one. -/
def errorState (body : Except HttpExn Bytes) : Option Json :=
  match body with
  | .error _ => none
  | .ok raw =>
      match decodeResponse raw with
      | .error _ => none
      | .ok value => Json.get "state" value

def isText (text : String) : Option Json → Bool
  | some (.str s) => s == lit text
  | _ => false

/-- The failure for an `HTTPError`. -/
def statusFailure (state : Option Json) (status : Nat) : CliExn :=
  if isText "partial" state then .failure "service_partial" 4
  else if isText "refused" state || status ∈ [409, 412, 423] then .failure "service_refused" 3
  else if status = 400 then .failure "service_failure" 2
  else .failure "service_failure" 5

/-- `_request`, when the request has been opened. -/
def cliOpened (path : Str) : Except HttpExn Unit → Http CliExn Bytes
  | .ok _ => do
      let outcome ← Proc.attempt (cliResponse repr (responseBound path))
      closing outcome .interrupt (.failure "response_close_failed" 5)
  | .error (.status status) => do
      let body ← readResponse (some (maxClientBody + 1))
      closing (.error (statusFailure (errorState body) status)) .interrupt (.failure "response_close_failed" 5)
  | .error .interrupt => throw .interrupt
  | .error _ => throw (.failure "service_failure" 5)

/-- `retention._request` -/
def cliCall (path : Str) (payload : Option Json) (token : Str) : Http CliExn Bytes :=
  opening urls (cliRequest repr path payload token) (cliOpened repr path)

/-! ### The Airflow task -/

inductive TaskExn where
  /-- `RetentionTaskFailure` -/
  | failure (code : String)
  | interrupt
  | other
deriving DecidableEq

/-- `CHECKPOINT_IDS` -/
def Task.checkpointIds : List Str :=
  ["streaming-events-v1", "streaming-event-windows-v1", "streaming-online-retail-cdc-v1",
    "streaming-gh-archive-file-v1", "go-live-streaming-test-v1"].map lit

/-- The two variables of the environment that a client reads. -/
structure Environ where
  uri : Option Str
  token : Option Str

/-- The token, when the configuration is valid; one that cannot be encoded raises. -/
def Environ.configured {ε : Type} (env : Environ) (invalid raised : ε) : Except ε Str :=
  match env.token with
  | none => .error invalid
  | some token =>
      if env.uri.getD origin ≠ origin ∨ token = [] then .error invalid
      else
        match utf8Encode token with
        | none => .error raised
        | some units => if units.length > 256 then .error invalid else .ok token

def plansBody : Bytes :=
  asciiBytes ((dumps (.obj [(lit "actor", .str (lit "airflow-dry-run")),
    (lit "checkpoint_ids", .arr (Task.checkpointIds.map .str))])).getD [])

def taskRequest (env : Environ) : Except TaskExn UrlRequest := do
  let token ← env.configured (.failure "configuration_invalid") .other
  return postRequest (lit "/v1/plans") token plansBody

/-- `tasks._decode`; the `ValueError` of a long integer is no failure of its own. -/
def taskDecode (body : Bytes) : Except TaskExn (List (Str × Json)) := do
  require (body.length ≤ maxClientBody) (.failure "response_invalid")
  match loadsUtf8 ⟨true, false⟩ body with
  | .ok (.obj value) => .ok value
  | .ok _ => .error (.failure "response_invalid")
  | .error .value => .error .other
  | .error _ => .error (.failure "response_invalid")

/-- `[a-z][a-z0-9_]{0,63}` -/
def isCode (s : Str) : Bool :=
  match s with
  | [] => false
  | c :: rest => (97 ≤ c && c ≤ 122) && rest.length ≤ 63 &&
      rest.all fun c => (97 ≤ c && c ≤ 122) || isDigit c || c == 95

/-- `value in {texts}`; an array or an object is not hashable. -/
def textIn (texts : List String) : Json → Except TaskExn Bool
  | .str s => .ok (texts.any fun t => s == lit t)
  | .arr _ => .error .other
  | .obj _ => .error .other
  | _ => .ok false

def isCount (value : Option Json) : Bool :=
  match value with
  | some (.int n) => decide (0 ≤ n)
  | _ => false

/-- The loop body of `_validate_response`. -/
def validateSummary (checkpointId : Str) (summary : Json) : Except TaskExn Unit := do
  let invalid : TaskExn := .failure "response_invalid"
  match summary with
  | .obj kvs => do
      require (Json.hasExactly ["checkpoint_id", "decision", "inventory", "policy_sha256", "refusal_codes"] kvs) invalid
      let decision := (Json.get "decision" kvs).getD .null
      require (match Json.get "checkpoint_id" kvs with
        | some (.str s) => s == checkpointId
        | _ => false) invalid
      require (← textIn ["eligible", "refused"] decision) invalid
      require (match Json.get "policy_sha256" kvs with
        | some (.str s) => isSha256 s
        | _ => false) invalid
      match Json.get "inventory" kvs, Json.get "refusal_codes" kvs with
      | some (.obj inventory), some (.arr refusals) => do
          require (Json.hasExactly ["object_count", "total_bytes"] inventory) invalid
          require (isCount (Json.get "object_count" inventory) && isCount (Json.get "total_bytes" inventory)) invalid
          require (refusals.length ≤ 32) invalid
          require (refusals.all fun code => match code with
            | .str s => isCode s
            | _ => false) invalid
          require (isText "eligible" (some decision) == refusals.isEmpty) invalid
      | _, _ => .error invalid
  | _ => .error invalid

/-- `tasks._validate_response` -/
def validateResponse (value : List (Str × Json)) : Except TaskExn Unit := do
  require (Json.hasExactly ["plans", "state"] value && isText "accepted" (Json.get "state" value))
    (.failure "response_invalid")
  match Json.get "plans" value with
  | some (.arr plans) => do
      require (plans.length == Task.checkpointIds.length) (.failure "response_invalid")
      let _ ← checkAll (fun pair => validateSummary pair.1 pair.2) (Task.checkpointIds.zip plans)
      return ()
  | _ => .error (.failure "response_invalid")

/-- What is not a failure of the task's own is a failure of the service. -/
def taskFailure : TaskExn → TaskExn
  | .other => .failure "service_failure"
  | e => e

def taskResponse : Http TaskExn (List (Str × Json)) := do
  match ← readResponse (some (maxClientBody + 1)) with
  | .error .interrupt => throw .interrupt
  | .error _ => throw .other
  | .ok raw => do
      let value ← Proc.lift (taskDecode raw)
      Proc.lift (validateResponse value)
      pure value

/-- `run_retention_plans`, when the request has been opened. -/
def taskOpened : Except HttpExn Unit → Http TaskExn (List (Str × Json))
  | .ok _ => do
      let outcome ← Proc.attempt (Proc.mapError taskFailure taskResponse)
      closing outcome .interrupt (.failure "response_close_failed")
  | .error .interrupt => throw .interrupt
  | .error _ => throw (.failure "service_failure")

/-- `run_retention_plans` -/
def taskCall (env : Environ) : Http TaskExn (List (Str × Json)) := opening urls (taskRequest env) taskOpened

/-! ### The notebooks -/

/-- `_ROUTES` -/
def leaseRoutes : List (Str × Str) :=
  [("acquire", "/v1/leases/acquire"), ("heartbeat", "/v1/leases/heartbeat"),
    ("terminal", "/v1/leases/terminal")].map fun route => (lit route.1, lit route.2)

def leaseRequest (action : Str) (payload : Json) (env : Environ) : Except LeaseExn UrlRequest := do
  let path ← orElse (leaseRoutes.lookup action) (.failure "lease_configuration_invalid")
  let token ← env.configured (.failure "lease_configuration_invalid") .other
  let text ← orElse (dumps (Json.mapFloats repr payload)) (.failure "lease_request_invalid")
  require ((asciiBytes text).length ≤ maxClientBody) (.failure "lease_request_invalid")
  return postRequest path token (asciiBytes text)

/-- What `_post` makes of an exception; `other` is one that it has no clause for. -/
def leaseFailure : HttpExn → LeaseExn
  | .interrupt => .interrupt
  | .status _ => .failure "lease_request_failed"
  | .url => .failure "lease_request_failed"
  | .other => .other

def leaseDecode (raw : Bytes) : Except LeaseExn (List (Str × Json)) := do
  require (raw.length ≤ maxClientBody) (.failure "lease_response_invalid")
  match loadsUtf8 Hooks.plain raw with
  | .ok (.obj value) => .ok value
  | .ok _ => .error (.failure "lease_response_invalid")
  | .error .value => .error .other
  | .error _ => .error (.failure "lease_request_failed")

/-- An exception that `_post` has no clause for does not outlast one of `response.close()`. -/
def leaseClosing (outcome : Except LeaseExn (List (Str × Json))) : Http LeaseExn (List (Str × Json)) := do
  match outcome, ← closeResponse with
  | outcome, .ok _ => Proc.lift outcome
  | .error .other, .error .interrupt => throw .interrupt
  | .error .other, .error _ => throw (.failure "lease_response_close_failed")
  | .error e, .error _ => throw e
  | .ok _, .error .interrupt => throw .interrupt
  | .ok _, .error _ => throw (.failure "lease_response_close_failed")

def leaseResponse : Http LeaseExn (List (Str × Json)) := do
  match ← readResponse (some (maxClientBody + 1)) with
  | .error e => throw (leaseFailure e)
  | .ok raw => Proc.lift (leaseDecode raw)

/-- `_post`, when the request has been opened. -/
def leaseOpened : Except HttpExn Unit → Http LeaseExn (List (Str × Json))
  | .ok _ => do
      let outcome ← Proc.attempt leaseResponse
      leaseClosing outcome
  | .error e => throw (leaseFailure e)

/-- `notebook_lease._post` -/
def leaseCall (action : Str) (payload : Json) (env : Environ) : Http LeaseExn (List (Str × Json)) :=
  opening urls (leaseRequest repr action payload env) leaseOpened

end

end Checkpoints
