/-
One probe of the catalog, from the resolution of its name to its result.

The probe resolves the host, opens `origin/v1/config` without proxies and without following
redirections, reads the body in pieces until the deadline, and puts whatever happened into
one of six categories.  Two layers that it calls are here as well, as far as they decide
what is raised: `urllib`'s opener, which turns the failures of a request into `URLError` and
every status outside 2xx into `HTTPError`, and its redirect handler, which parses a
`Location` before it asks whether to follow it.

The resolver, the connections, the server and the clock answer anything.
-/
import DataEngLab.Lib.Urllib
import DataEngLab.Observability.Catalog

namespace Observability

namespace Probe

open Lib

/-! ### Times -/

/-- A float: the configuration takes any of them. -/
inductive Seconds where
  | finite (q : Rat)
  | infinite
  | negInfinite
  | nan
deriving DecidableEq

namespace Seconds

/-- `x <= 0` -/
def isNonpositive : Seconds → Bool
  | .finite q => q ≤ 0
  | .infinite => false
  | .negInfinite => true
  | .nan => false

/-- `x < 0` -/
def isNegative : Seconds → Bool
  | .finite q => q < 0
  | .infinite => false
  | .negInfinite => true
  | .nan => false

/-- `started + x` -/
def after (started : Rat) : Seconds → Seconds
  | .finite q => .finite (started + q)
  | x => x

/-- `deadline - now` -/
def left (now : Rat) : Seconds → Seconds
  | .finite q => .finite (q - now)
  | x => x

/-- `now >= x` -/
def reachedBy (now : Rat) : Seconds → Bool
  | .finite q => q ≤ now
  | .infinite => false
  | .negInfinite => true
  | .nan => false

/-- `now > x` -/
def passedBy (now : Rat) : Seconds → Bool
  | .finite q => q < now
  | .infinite => false
  | .negInfinite => true
  | .nan => false

end Seconds

/-! ### Configurations -/

/-- What `urlsplit` and its properties make of an origin; reading the port may raise. -/
structure Parts where
  scheme : Str
  hostname : Option Str
  port : Option (Option Nat)
  username : Option Str
  password : Option Str
  path : Str
  query : Str
  fragment : Str

structure ProbeConfig where
  origin : Str
  timeoutSeconds : Seconds
  maxBodyBytes : Int
  slowSeconds : Seconds

/-- `urllib.parse` -/
structure Parsing where
  /-- `urlsplit(origin)`; `none` is its `ValueError` -/
  urlsplit : Str → Option Parts
  /-- the redirect handler parses, quotes and joins this `Location` without a `ValueError` -/
  takesLocation : Str → Bool

/-- What the configuration may not be, beside its origin. -/
def boundsInvalid (config : ProbeConfig) : Bool :=
  config.timeoutSeconds.isNonpositive || decide (config.maxBodyBytes ≤ 0) ||
    decide ((maxCatalogBodyBytes : Int) < config.maxBodyBytes) || config.slowSeconds.isNegative

def originInvalid : Raised := .probeFailure "probe_origin_invalid"

section
variable (urls : Parsing)

/-- `_validate_probe_config` -/
def validateProbeConfig (config : ProbeConfig) : Except Raised Str := do
  let parsed ← orElse (urls.urlsplit config.origin) originInvalid
  let _ ← orElse parsed.port originInvalid
  require (!(parsed.scheme ≠ lit "http" || parsed.hostname.all (· = []) || parsed.username.isSome ||
    parsed.password.isSome || parsed.path ≠ [] || parsed.query ≠ [] || parsed.fragment ≠ [] ||
    boundsInvalid config)) originInvalid
  return config.origin ++ lit "/v1/config"

/-! ### Calls -/

/-- The head of an answer; its header values are Latin-1. -/
structure Head where
  status : Nat
  headers : List (Str × Str)
deriving DecidableEq

/-- The calls of the probe; `A` is the type of addresses. -/
inductive Call (A : Type) where
  | monotonic
  /-- `_RESOLVER.resolve` -/
  | resolve (host : Str) (port : Nat) (deadline : Seconds)
  /-- what `open` does before there is a connection: the address of the request, its headers -/
  | dispatch (url : Str)
  /-- `socket.socket` -/
  | openSocket (address : A)
  /-- the timer, `settimeout` and `connect` of that socket -/
  | connect (address : A) (remaining : Seconds)
  | sendRequest (url : Str)
  | getresponse
  | settimeout (remaining : Seconds)
  | read1 (limit : Nat)
  | closeResponse
  /-- `HTTPError.close` -/
  | closeError

variable {A : Type}

abbrev Answer : Call A → Type
  | .monotonic => Rat
  | .resolve _ _ _ => Except Raised (List A)
  | .dispatch _ => Option Raised
  | .openSocket _ => Option Raised
  | .connect _ _ => Option Raised
  | .sendRequest _ => Option Raised
  | .getresponse => Except Raised Head
  | .settimeout _ => Option Raised
  | .read1 _ => Except Raised Bytes
  | .closeResponse => Option Raised
  | .closeError => Option Raised

variable (A) in
abbrev S (α : Type) := Proc (Call A) Answer Raised α

variable (A) in
abbrev Log := List (Event (Call A) Answer)

def perform (e : Call A) : S A (Answer e) := Proc.perform e

def lift {α : Type} (x : Except Raised α) : S A α := Proc.lift x

/-- What a call without a result raised, if it did. -/
def raising (f : Option Raised) : S A Unit :=
  match f with
  | none => return ()
  | some e => throw e

/-! ### Requests -/

/-- The exception is an `OSError`. -/
def Raised.isOsError : Raised → Bool
  | .httpError _ | .timeoutError | .urlError _ | .remoteDisconnected | .osError => true
  | .httpException | .probeFailure _ | .other => false

/-- `_DeadlineConnectionMixin.connect`: the addresses in turn; `last` is the last error. -/
def connectTo (deadline : Seconds) : List A → Option Raised → S A Unit
  | [], last => do
      let now ← perform .monotonic
      if deadline.reachedBy now then throw .timeoutError
      else throw (last.getD .osError)
  | address :: addresses, last => do
      let now ← perform .monotonic
      if (deadline.left now).isNonpositive then throw .timeoutError
      raising (← perform (.openSocket address))
      match ← perform (.connect address (deadline.left now)) with
      | none => return ()
      | some e => if e.isOsError then connectTo deadline addresses (some e) else throw e

/-- `raise URLError(err)`, for the errors that `do_open` catches. -/
def wrapped (e : Raised) : Raised := if e.isOsError then .urlError (decide (e = .timeoutError)) else e

/-- `_DeadlineHTTPHandler.http_open` -/
def httpOpen (url : Str) (deadline : Seconds) (addresses : List A) : S A Head := do
  raising (← perform (.dispatch url))
  Proc.mapError wrapped do
    connectTo deadline addresses none
    raising (← perform (.sendRequest url))
  lift (← perform .getresponse)

/-- What is raised for an answer outside 2xx: the redirect handler, which follows nothing, and the
default. -/
def errorOf (head : Head) : Raised :=
  if head.status ∈ redirectStatuses then
    match (headerOf "location" head.headers).or (headerOf "uri" head.headers) with
    | none => .httpError head.status
    | some location => if urls.takesLocation location then .httpError head.status else .other
  else .httpError head.status

def Head.isGood (head : Head) : Bool := 200 ≤ head.status && head.status < 300

/-- `opener.open` -/
def openerOpen (url : Str) (deadline : Seconds) (addresses : List A) : S A Head := do
  let head ← httpOpen url deadline addresses
  if head.isGood then return head else throw (errorOf urls head)

/-! ### Answers -/

/-- `_set_response_deadline` -/
def setResponseDeadline (deadline : Seconds) : S A Unit := do
  let now ← perform .monotonic
  if (deadline.left now).isNonpositive then throw .timeoutError
  raising (← perform (.settimeout (deadline.left now)))

/-- `_read_response_body`, after `body` has been read. -/
def readResponseBody (maxBodyBytes : Nat) (deadline : Seconds) (body : Bytes) : S A Bytes :=
  if body.length ≤ maxBodyBytes then do
    setResponseDeadline deadline
    let chunk ← lift (← perform (.read1 (min 8192 (maxBodyBytes + 1 - body.length))))
    let now ← perform .monotonic
    if deadline.passedBy now then throw .timeoutError
    match _h : chunk with
    | [] => return body
    | _ :: _ => readResponseBody maxBodyBytes deadline (body ++ chunk)
  else return body
termination_by maxBodyBytes + 1 - body.length
decreasing_by
  simp only [List.length_append, _h, List.length_cons]
  omega

/-- `response.headers.get("Content-Type", "")` -/
def contentType (head : Head) : Str := (headerOf "content-type" head.headers).getD []

/-- `finally: response.close()`; what closing raises replaces what was raised before. -/
def closing {α : Type} (x : S A α) : S A α := do
  let r ← x.attempt
  raising (← perform .closeResponse)
  lift r

/-- The block of `try`. -/
def exchange (config : ProbeConfig) (url : Str) (deadline : Seconds) : S A (Head × Bytes) := do
  let parsed ← lift (orElse (urls.urlsplit config.origin) .other)
  let host ← lift (orElse parsed.hostname originInvalid)
  let port ← lift (orElse (parsed.port.getD none) originInvalid)
  let addresses ← lift (← perform (.resolve host port deadline))
  let head ← openerOpen urls url deadline addresses
  closing do
    let body ← readResponseBody config.maxBodyBytes.toNat deadline []
    return (head, body)

/-! ### Results -/

/-- `max(0.0, monotonic() - started)` -/
def elapsed (started : Rat) : S A Rat := do
  let now ← perform .monotonic
  return max 0 (now - started)

/-- A failure, timed out or of the category. -/
def failed (started : Rat) (category : Category) : S A ProbeResult := do
  let duration ← elapsed started
  return ⟨false, duration, 0, category⟩

/-- `"timeout" if monotonic() >= deadline else category` -/
def failedBy (started : Rat) (deadline : Seconds) (category : Category) : S A ProbeResult := do
  let now ← perform .monotonic
  failed started (if deadline.reachedBy now then .timeout else category)

/-- The clauses of `except`, in their order. -/
def report (started : Rat) (deadline : Seconds) : Raised → S A ProbeResult
  | .httpError code => do
      raising (← perform .closeError)
      let duration ← elapsed started
      let now ← perform .monotonic
      if deadline.reachedBy now then return ⟨false, duration, 0, .timeout⟩
      if ¬ (100 ≤ code ∧ code ≤ 599) then return ⟨false, duration, 0, .malformed⟩
      return ⟨false, duration, code, .httpError⟩
  | .timeoutError => failed started .timeout
  | .urlError true => failed started .timeout
  | .urlError false => failedBy started deadline .unavailable
  | .remoteDisconnected => failedBy started deadline .unavailable
  | .httpException => failedBy started deadline .malformed
  | .osError => failedBy started deadline .unavailable
  | .probeFailure message => throw (.probeFailure message)
  | .other => throw .other

/-- `content_type.split(";", 1)[0].strip().lower() == "application/json"` -/
def isJsonType (contentType : Str) : Bool :=
  lowerAscii (strip (contentType.takeWhile (· != 59))) == lit "application/json"

/-- What follows the block of `try`. -/
def conclude (config : ProbeConfig) (duration : Rat) (head : Head) (body : Bytes) : ProbeResult :=
  if ¬ (100 ≤ head.status ∧ head.status ≤ 599) then ⟨false, duration, 0, .malformed⟩
  else if head.status ≠ 200 then ⟨false, duration, head.status, .httpError⟩
  else if !isJsonType (contentType head) then ⟨false, duration, head.status, .malformed⟩
  else if config.maxBodyBytes.toNat < body.length then ⟨false, duration, head.status, .malformed⟩
  else
    match decodeCatalogConfig body with
    | .error _ => ⟨false, duration, head.status, .malformed⟩
    | .ok _ => ⟨true, duration, head.status, if config.slowSeconds.passedBy duration then .slow else .success⟩

/-- `probe_catalog`, with an opener of its own. -/
def probeCatalog (config : ProbeConfig) : S A ProbeResult := do
  let url ← lift (validateProbeConfig urls config)
  let started ← perform .monotonic
  let deadline := config.timeoutSeconds.after started
  match ← (exchange urls config url deadline).attempt with
  | .error e => report started deadline e
  | .ok (head, body) => do
      let duration ← elapsed started
      return conclude config duration head body

end

end Probe

end Observability
