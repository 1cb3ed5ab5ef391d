/-
The HTTP application.

`dispatch` turns one request into a response or a `ServiceFailure`.  Everything it does
before it calls the backend (`route`) is a sequence of checks on text and bytes that come
from outside, each with a failure of its own; the backend is called at most once, at the
very end, so what reaches it can be read off `route`.

Three library calls of those checks can raise something that no handler turns into a
`ServiceFailure`: `hmac.compare_digest` on text that is not ASCII, `int` on a digit that
is not decimal, and `json.loads` on an integer that is too long to read.  `dispatch_closed`
says that these three are all.
-/
import DataEngLab.Checkpoints.Planner
import DataEngLab.Lib.JsonBounds

namespace Checkpoints

open Lib

structure ServiceFailure where
  code : String
  status : Nat
  state : Option String
deriving DecidableEq

/-- `ServiceFailure(code)` -/
def serviceFailure (code : String) : ServiceFailure := ⟨code, 400, none⟩

/-- What the service layer raises: its own failure, or anything else. -/
inductive Raised where
  | service (failure : ServiceFailure)
  | other (e : Exn)
deriving DecidableEq

def refuseWith (code : String) : Raised := .service (serviceFailure code)

inductive Action where
  | acquire
  | heartbeat
  | terminal
  | plan
  | prepare
  | apply
  | status
deriving DecidableEq

/-- `action in _LEASE_ACTIONS` -/
def Action.isLease : Action → Bool
  | .acquire | .heartbeat | .terminal => true
  | _ => false

/-- A JSON value the service has read or built: nested no deeper than its own reader goes, so the
writer does not run out of stack on it either. -/
structure Answered where
  value : Json
  shallow : value.nesting ≤ nestingLimit

/-- How `backend.invoke` ends.  Interrupts come from outside and are not answers. -/
inductive InvokeOutcome where
  | value (v : Answered)
  | service (failure : ServiceFailure)
  /-- any other exception -/
  | failed

/-- The backend of a service that has been started: its capabilities are known, so that `health`
raises nothing but `capability_failed`. -/
structure Backend where
  health : Except ServiceFailure Answered
  /-- `none` when `metrics()` raised -/
  metrics : Option Bytes
  invoke : Action → Option (List (Str × Json)) → Option Str → InvokeOutcome

/-- What the constructor of the application accepts as a token. -/
def validToken (token : Str) : Bool :=
  !token.isEmpty && (utf8Encode token).any fun b => b.length ≤ 256

structure Application where
  backend : Backend
  leaseToken : Str
  operatorToken : Str
  leaseToken_valid : validToken leaseToken = true
  operatorToken_valid : validToken operatorToken = true

structure HttpRequest where
  method : Str
  path : Str
  headers : List (Str × Str)
  body : Bytes

structure HttpResponse where
  status : Nat
  body : Bytes
  contentType : String
deriving DecidableEq

def maxBody : Nat := 65536

/-! ### Routes -/

def postRoutes : List (String × Action) :=
  [("/v1/leases/acquire", .acquire), ("/v1/leases/heartbeat", .heartbeat),
    ("/v1/leases/terminal", .terminal), ("/v1/plans", .plan), ("/v1/operations/prepare", .prepare)]

/-- `_POST_ROUTES.get(path)` -/
def postRoute (path : Str) : Option Action :=
  (postRoutes.find? fun r => lit r.1 == path).map Prod.snd

def operationsPath : Str := lit "/v1/operations/"

/-- The `operation_id` group of a match. -/
def operationId (path : Str) : Str := (path.drop operationsPath.length).take 36

/-- `_APPLY.fullmatch(path)` -/
def applyPath (path : Str) : Option Str :=
  if (Pattern.text operationsPath ++ uuid ++ Pattern.text (lit "/apply")).fullmatch path then
    some (operationId path)
  else none

/-- `_STATUS.fullmatch(path)` -/
def statusPath (path : Str) : Option Str :=
  if (Pattern.text operationsPath ++ uuid).fullmatch path then some (operationId path) else none

/-! ### Headers and bodies -/

abbrev Headers := List (Str × Str)

def Headers.get (name : String) (h : Headers) : Option Str := h.lookup (lit name)

/-- The characters for which `str.isdigit` holds and that are not decimal digits. -/
def otherDigits : List (Nat × Nat) :=
  [(0xb2, 0xb3), (0xb9, 0xb9), (0x1369, 0x1371), (0x19da, 0x19da), (0x2070, 0x2070), (0x2074, 0x2079),
    (0x2080, 0x2089), (0x2460, 0x2468), (0x2474, 0x247c), (0x2488, 0x2490), (0x24ea, 0x24ea),
    (0x24f5, 0x24fd), (0x24ff, 0x24ff), (0x2776, 0x277e), (0x2780, 0x2788), (0x278a, 0x2792),
    (0x10a40, 0x10a43), (0x10e60, 0x10e68), (0x11052, 0x1105a), (0x1f100, 0x1f10a)]

/-- `text.isdigit()` -/
def isDigits (s : Str) : Bool :=
  !s.isEmpty && s.all fun c => (unicodeDigit c).isSome || otherDigits.any fun r => r.1 ≤ c && c ≤ r.2

/-- `int(text)` of text that is all digits; only decimal ones can be read. -/
def intOfDigits (s : Str) : Option Nat :=
  (s.mapM unicodeDigit).map fun ds => ds.foldl (fun n d => 10 * n + d) 0

section
variable (lower : Str → Str)

/-- `_headers`; `lower` is `str.lower`. -/
def normalizeHeaders : List (Str × Str) → Headers → Except Raised Headers
  | [], result => .ok result
  | (name, value) :: rest, result =>
      let key := lower name
      if (result.lookup key).isSome then .error (refuseWith "header_duplicate")
      else if 128 < name.length ∨ 512 < value.length ∨ 13 ∈ value ∨ 10 ∈ value then
        .error (refuseWith "header_invalid")
      else normalizeHeaders rest (result ++ [(key, value)])

end

/-- The check of `Content-Length`. -/
def checkLength (headers : Headers) (body : Bytes) : Except Raised Unit :=
  match headers.get "content-length" with
  | none => .error (refuseWith "content_length_mismatch")
  | some raw => do
      require (isDigits raw) (refuseWith "content_length_mismatch")
      let n ← orElse (intOfDigits raw) (.other .valueError)
      require (n == body.length) (refuseWith "content_length_mismatch")

/-- The errors of the reader as `_decode_body` passes them on. -/
def bodyValue (r : Except LoadsError Json) : Except Raised Json :=
  match r with
  | .ok v => .ok v
  | .error .duplicateKey => .error (refuseWith "json_duplicate_key")
  | .error .value => .error (.other .valueError)
  | .error _ => .error (refuseWith "json_invalid")

/-- `_check_structure`: the values are counted and their depth is followed, the same failure for
either. -/
def checkStructure (maxNodes : Nat) (v : Json) : Except Raised Unit :=
  require (v.nodes ≤ maxNodes && v.height ≤ 32) (refuseWith "json_structure_bound")

def decodeBody (headers : Headers) (body : Bytes) (maxBytes maxNodes : Nat) :
    Except Raised (List (Str × Json)) := do
  require (headers.get "transfer-encoding").isNone (refuseWith "transfer_encoding_forbidden")
  require (headers.get "content-type" == some (lit "application/json")) (refuseWith "content_type_invalid")
  checkLength headers body
  require (body.length ≤ maxBytes) (refuseWith "body_too_large")
  match ← bodyValue (loadsUtf8 ⟨true, false⟩ body) with
  | .obj kvs => do
      checkStructure maxNodes (.obj kvs)
      return kvs
  | _ => .error (refuseWith "json_shape_invalid")

/-! ### Authentication -/

section
variable (app : Application)

/-- The bearer an action asks for. -/
def bearer (lease : Bool) : Str := lit "Bearer " ++ if lease then app.leaseToken else app.operatorToken

/-- `hmac.compare_digest` of two texts -/
def compareDigest (a b : Str) : Except Raised Bool :=
  if isAscii a && isAscii b then .ok (a == b) else .error (.other .typeError)

def authenticate (headers : Headers) (lease : Bool) : Except Raised Unit :=
  match headers.get "authorization" with
  | none => .error (refuseWith "unauthorized")
  | some authorization => do
      let same ← compareDigest authorization (bearer app lease)
      require same (refuseWith "unauthorized")

/-! ### Dispatch -/

/-- What a request asks of the backend. -/
inductive Target where
  | health
  | metrics
  | invoke (action : Action) (payload : Option (List (Str × Json))) (op : Option Str)

def routePost (headers : Headers) (request : HttpRequest) : Except Raised Target := do
  authenticate app headers ((postRoute request.path).any Action.isLease)
  match postRoute request.path, applyPath request.path with
  | some action, _ => do
      let payload ← decodeBody headers request.body
        (if action = .prepare then maxPlanBytes else maxBody)
        (if action = .prepare then maxPlanNodes else 4096)
      return .invoke action (some payload) none
  | none, some op => do
      let payload ← decodeBody headers request.body maxBody 4096
      return .invoke .apply (some payload) (some op)
  | none, none => .error (refuseWith "route_invalid")

def routeGet (headers : Headers) (request : HttpRequest) : Except Raised Target := do
  require request.body.isEmpty (refuseWith "body_forbidden")
  let op ← orElse (statusPath request.path) (refuseWith "route_invalid")
  authenticate app headers false
  return .invoke .status none (some op)

def routeMethod (headers : Headers) (request : HttpRequest) : Except Raised Target :=
  if request.method = lit "GET" ∧ request.path = lit "/healthz" then .ok .health
  else if request.method = lit "GET" ∧ request.path = lit "/metrics" then .ok .metrics
  else if request.method = lit "POST" then routePost app headers request
  else if request.method = lit "GET" then routeGet app headers request
  else .error (refuseWith "method_invalid")

variable (lower : Str → Str)

/-- `_dispatch` up to its call of the backend. -/
def route (request : HttpRequest) : Except Raised Target := do
  require (63 ∉ request.path ∧ 35 ∉ request.path) (refuseWith "path_invalid")
  let headers ← normalizeHeaders lower request.headers []
  routeMethod app headers request

/-- `_response` -/
def respond (v : Json) (status maxBytes : Nat) : Except Raised HttpResponse := do
  let text ← orElse (dumps v) (refuseWith "response_invalid")
  require (text.length ≤ maxBytes) (refuseWith "response_invalid")
  return ⟨status, asciiBytes text, "application/json"⟩

/-- The response to what the backend answered. -/
def answerTarget : Target → Except Raised HttpResponse
  | .health =>
      match app.backend.health with
      | .ok v => respond v.value 200 maxBody
      | .error failure => .error (.service failure)
  | .metrics => do
      let body ← orElse app.backend.metrics (refuseWith "backend_failure")
      require (body.length ≤ maxBody) (refuseWith "response_invalid")
      return ⟨200, body, "text/plain; version=0.0.4"⟩
  | .invoke action payload op =>
      match app.backend.invoke action payload op with
      | .value v => respond v.value 200 (if action = .plan then maxPlanBytes else maxBody)
      | .failed => .error (.service ⟨"backend_failure", 500, none⟩)
      | .service failure =>
          match failure.state with
          | some state =>
              respond (object [("code", textJson failure.code), ("state", textJson state)])
                failure.status maxBody
          | none => .error (.service failure)

def dispatch (request : HttpRequest) : Except Raised HttpResponse := do
  let target ← route app lower request
  answerTarget app target

/-- The call of `backend.invoke` that dispatching the request makes, if any. -/
def invoked (request : HttpRequest) : Option (Action × Option (List (Str × Json)) × Option Str) :=
  match route app lower request with
  | .ok (.invoke action payload op) => some (action, payload, op)
  | _ => none

/-- The outcome that `dispatch` records with the backend before it raises a failure. -/
def failureOutcome (failure : ServiceFailure) : String :=
  if failure.code = "unauthorized" then "unauthorized"
  else if failure.code = "operation_deadline" ∨ failure.code = "request_timeout" then "timeout"
  else if failure.code = "capability_failed" then "capability_failed"
  else if failure.status < 500 then "invalid_request"
  else "backend_failure"

end

/-! ### What escapes -/

/-- The result is an exception that no handler has turned into a service failure. -/
def Escapes {α : Type} (r : Except Raised α) : Prop := ∃ e, r = .error (.other e)

section
variable {α β : Type}

@[simp] theorem escapes_bind {x : Except Raised α} {f : α → Except Raised β} :
    Escapes (x >>= f) ↔ Escapes x ∨ ∃ a, x = .ok a ∧ Escapes (f a) := by
  unfold Escapes
  simp only [bind_eq_error]
  constructor
  · rintro ⟨e, h | ⟨a, ha, h⟩⟩
    · exact .inl ⟨e, h⟩
    · exact .inr ⟨a, ha, e, h⟩
  · rintro (⟨e, h⟩ | ⟨a, ha, e, h⟩)
    · exact ⟨e, .inl h⟩
    · exact ⟨e, .inr ⟨a, ha, h⟩⟩

@[simp] theorem escapes_map {x : Except Raised α} {f : α → β} : Escapes (f <$> x) ↔ Escapes x := by
  cases x with
  | error e => simp [Escapes, Functor.map, Except.map]
  | ok a => simp [Escapes, Functor.map, Except.map]

@[simp] theorem escapes_ok {a : α} : ¬ Escapes (.ok a) := by
  rintro ⟨e, h⟩
  cases h

@[simp] theorem escapes_pure {a : α} : ¬ Escapes (pure a) := escapes_ok

@[simp] theorem escapes_refuse {code : String} : ¬ Escapes (.error (refuseWith code) : Except Raised α) := by
  rintro ⟨e, h⟩
  cases h

@[simp] theorem escapes_service {failure : ServiceFailure} :
    ¬ Escapes (.error (.service failure) : Except Raised α) := by
  rintro ⟨e, h⟩
  cases h

@[simp] theorem escapes_other {e : Exn} : Escapes (.error (.other e) : Except Raised α) := ⟨e, rfl⟩

@[simp] theorem escapes_require {c : Bool} {code : String} : ¬ Escapes (require c (refuseWith code)) := by
  cases c with
  | false => exact escapes_refuse
  | true => exact escapes_ok

@[simp] theorem escapes_orElse {o : Option α} {code : String} : ¬ Escapes (orElse o (refuseWith code)) := by
  cases o with
  | none => exact escapes_refuse
  | some a => exact escapes_ok

end

theorem escapes_normalizeHeaders {lower : Str → Str} : ∀ {headers : List (Str × Str)} {result : Headers},
    ¬ Escapes (normalizeHeaders lower headers result) := by
  intro headers
  induction headers with
  | nil => intro result; exact escapes_ok
  | cons header headers ih =>
      intro result
      obtain ⟨name, value⟩ := header
      simp only [normalizeHeaders]
      split
      · exact escapes_refuse
      · split
        · exact escapes_refuse
        · exact ih

section
variable {app : Application} {headers : Headers} {lease : Bool} {body : Bytes} {maxBytes maxNodes : Nat}

theorem authenticate_eq_ok {u : Unit} : authenticate app headers lease = .ok u ↔
    headers.get "authorization" = some (bearer app lease) ∧ isAscii (bearer app lease) = true := by
  unfold authenticate
  cases headers.get "authorization" with
  | none => simp
  | some a =>
      simp only [bind_eq_ok, require_eq_ok, Option.some.injEq, compareDigest]
      by_cases hascii : (isAscii a && isAscii (bearer app lease)) = true
      · rw [if_pos hascii]
        simp only [Except.ok.injEq, exists_eq_left', beq_iff_eq]
        rw [Bool.and_eq_true] at hascii
        exact ⟨fun h => ⟨h, hascii.2⟩, fun h => h.1⟩
      · rw [if_neg hascii]
        simp only [reduceCtorEq, false_and, exists_const, false_iff, not_and]
        rintro rfl hb
        exact hascii (by rw [hb]; rfl)

/-- The comparison of bearers raises on text that is not ASCII. -/
theorem escapes_authenticate : Escapes (authenticate app headers lease) ↔
    ∃ a, headers.get "authorization" = some a ∧ (isAscii a && isAscii (bearer app lease)) = false := by
  unfold authenticate
  cases headers.get "authorization" with
  | none => simp
  | some a =>
      simp only [escapes_bind, escapes_require, and_false, exists_const, or_false, Option.some.injEq,
        exists_eq_left', compareDigest]
      cases isAscii a && isAscii (bearer app lease) with
      | false => simp
      | true => simp

theorem checkLength_eq_ok {u : Unit} : checkLength headers body = .ok u ↔
    ∃ raw, headers.get "content-length" = some raw ∧ isDigits raw = true ∧
      intOfDigits raw = some body.length := by
  unfold checkLength
  cases headers.get "content-length" with
  | none => simp
  | some raw =>
      simp only [bind_eq_ok, require_eq_ok, orElse_eq_ok, Option.some.injEq, exists_eq_left', beq_iff_eq,
        exists_const]
      constructor
      · rintro ⟨hd, n, hn, rfl⟩; exact ⟨hd, hn⟩
      · rintro ⟨hd, hn⟩; exact ⟨hd, _, hn, rfl⟩

/-- `int` raises on a digit that is not decimal. -/
theorem escapes_checkLength : Escapes (checkLength headers body) ↔
    ∃ raw, headers.get "content-length" = some raw ∧ isDigits raw = true ∧ intOfDigits raw = none := by
  unfold checkLength
  cases headers.get "content-length" with
  | none => simp
  | some raw =>
      simp only [escapes_bind, escapes_require, false_or, and_false, exists_const, or_false,
        require_eq_ok, Option.some.injEq, exists_eq_left']
      cases intOfDigits raw with
      | none => simp [orElse]
      | some n => simp [orElse]

theorem escapes_bodyValue {r : Except LoadsError Json} : Escapes (bodyValue r) ↔ r = .error .value := by
  unfold bodyValue
  split
  all_goals simp_all

/-- A body is refused, or decoded, unless its length or one of its integers cannot be read. -/
theorem escapes_decodeBody : Escapes (decodeBody headers body maxBytes maxNodes) ↔
    headers.get "transfer-encoding" = none ∧
      headers.get "content-type" = some (lit "application/json") ∧
        (Escapes (checkLength headers body) ∨ checkLength headers body = .ok () ∧
          body.length ≤ maxBytes ∧ loadsUtf8 ⟨true, false⟩ body = .error .value) := by
  have hrest : ∀ v : Json, ¬ Escapes (match v with
      | .obj kvs => (do checkStructure maxNodes (.obj kvs); return kvs : Except Raised (List (Str × Json)))
      | _ => .error (refuseWith "json_shape_invalid")) := by
    intro v
    cases v with
    | obj kvs => simp [checkStructure]
    | _ => exact escapes_refuse
  unfold decodeBody
  simp only [escapes_bind, escapes_require, false_or, require_eq_ok, Option.isNone_iff_eq_none, beq_iff_eq,
    exists_const, escapes_bodyValue, decide_eq_true_eq]
  constructor
  · rintro ⟨hte, hct, h | ⟨u, hlen, hmax, h | ⟨v, -, h⟩⟩⟩
    · exact ⟨hte, hct, .inl h⟩
    · exact ⟨hte, hct, .inr ⟨hlen, hmax, h⟩⟩
    · exact absurd h (hrest v)
  · rintro ⟨hte, hct, h | ⟨hlen, hmax, h⟩⟩
    · exact ⟨hte, hct, .inl h⟩
    · exact ⟨hte, hct, .inr ⟨(), hlen, hmax, .inl h⟩⟩

theorem escapes_respond {v : Json} {status : Nat} : ¬ Escapes (respond v status maxBytes) := by
  simp [respond]

theorem escapes_answerTarget {target : Target} : ¬ Escapes (answerTarget app target) := by
  cases target with
  | health =>
      simp only [answerTarget]
      split
      · exact escapes_respond
      · exact escapes_service
  | metrics => simp [answerTarget]
  | invoke action payload op =>
      simp only [answerTarget]
      split
      · exact escapes_respond
      · exact escapes_service
      · split
        · exact escapes_respond
        · exact escapes_service

end

/-! ### When it escapes -/

section
variable (app : Application) (lower : Str → Str) (request : HttpRequest)

/-- The request gets as far as the comparison of its bearer, with a lease's or with the operator's. -/
def Compares (headers : Headers) (lease : Bool) : Prop :=
  (63 ∉ request.path ∧ 35 ∉ request.path) ∧ normalizeHeaders lower request.headers [] = .ok headers ∧
    (request.method = lit "POST" ∧ lease = (postRoute request.path).any Action.isLease ∨
      request.method = lit "GET" ∧ request.path ≠ lit "/healthz" ∧ request.path ≠ lit "/metrics" ∧
        request.body = [] ∧ (statusPath request.path).isSome = true ∧ lease = false)

/-- The request gets as far as its body: it is posted to a route, with the bearer of the route. -/
def Decodes (headers : Headers) : Prop :=
  request.method = lit "POST" ∧
    (∃ lease, Compares lower request headers lease ∧ authenticate app headers lease = .ok ()) ∧
      ((postRoute request.path).isSome = true ∨ (applyPath request.path).isSome = true) ∧
        headers.get "transfer-encoding" = none ∧
          headers.get "content-type" = some (lit "application/json")

/-- The bound on the body of a request to this path. -/
def bodyLimit (path : Str) : Nat := if postRoute path = some .prepare then maxPlanBytes else maxBody

/-- The three ways in which a library call raises something that nothing handles. -/
inductive Slips : Prop where
  /-- the header or the token it is compared with is not ASCII -/
  | bearer {headers : Headers} {lease : Bool} {a : Str} (h : Compares lower request headers lease)
      (ha : headers.get "authorization" = some a)
      (hascii : (isAscii a && isAscii (bearer app lease)) = false)
  /-- the length is written with digits that are not decimal -/
  | length {headers : Headers} {raw : Str} (h : Decodes app lower request headers)
      (hraw : headers.get "content-length" = some raw) (hdigits : isDigits raw = true)
      (hnone : intOfDigits raw = none)
  /-- the JSON reader meets an integer that is too long before anything else is wrong -/
  | integer {headers : Headers} {raw : Str} (h : Decodes app lower request headers)
      (hraw : headers.get "content-length" = some raw) (hdigits : isDigits raw = true)
      (hlen : intOfDigits raw = some request.body.length)
      (hmax : request.body.length ≤ bodyLimit request.path)
      (hvalue : loadsUtf8 ⟨true, false⟩ request.body = .error .value)

/-- The request is answered or refused, and reaches the backend only with the bearer of its
action. -/
structure Closed : Prop where
  closed : (∃ response, dispatch app lower request = .ok response) ∨
    ∃ failure, dispatch app lower request = .error (.service failure)
  authorized : ∀ action payload op, invoked app lower request = some (action, payload, op) →
    ∃ name, (name, bearer app action.isLease) ∈ request.headers ∧ lower name = lit "authorization" ∧
      ∀ other ∈ request.headers, lower other.1 = lit "authorization" →
        other.2 = bearer app action.isLease

end

section
variable {app : Application} {lower : Str → Str} {request : HttpRequest}

theorem escapes_routeGet {headers : Headers} : Escapes (routeGet app headers request) ↔
    request.body = [] ∧ (statusPath request.path).isSome = true ∧ ∃ a,
      headers.get "authorization" = some a ∧ (isAscii a && isAscii (bearer app false)) = false := by
  unfold routeGet
  simp only [escapes_bind, escapes_require, escapes_orElse, escapes_pure, false_or, and_false, exists_const,
    or_false, require_eq_ok, orElse_eq_ok, escapes_authenticate, List.isEmpty_iff]
  cases statusPath request.path with
  | none => simp
  | some op => simp

theorem escapes_routePost {headers : Headers} : Escapes (routePost app headers request) ↔
    (∃ a, headers.get "authorization" = some a ∧
      (isAscii a && isAscii (bearer app ((postRoute request.path).any Action.isLease))) = false) ∨
    authenticate app headers ((postRoute request.path).any Action.isLease) = .ok () ∧
      ((postRoute request.path).isSome = true ∨ (applyPath request.path).isSome = true) ∧
        headers.get "transfer-encoding" = none ∧
          headers.get "content-type" = some (lit "application/json") ∧
            (Escapes (checkLength headers request.body) ∨ checkLength headers request.body = .ok () ∧
              request.body.length ≤ bodyLimit request.path ∧
                loadsUtf8 ⟨true, false⟩ request.body = .error .value) := by
  unfold routePost
  simp only [escapes_bind, escapes_authenticate]
  refine or_congr Iff.rfl (Iff.trans ⟨fun ⟨_, h⟩ => h, fun h => ⟨(), h⟩⟩ (and_congr_right fun _ => ?_))
  cases hp : postRoute request.path with
  | some action =>
      simp only [escapes_bind, escapes_pure, and_false, exists_const, or_false, escapes_decodeBody,
        Option.isSome_some, true_or, true_and, bodyLimit, hp, Option.some.injEq]
  | none =>
      cases applyPath request.path with
      | some op =>
          simp only [escapes_bind, escapes_pure, and_false, exists_const, or_false, escapes_decodeBody,
            Option.isSome_some, or_true, true_and, bodyLimit, hp, reduceCtorEq, if_false]
      | none => simp

theorem get_ne_post : lit "GET" ≠ lit "POST" := fun h => absurd (lit_inj.mp h) (by decide)

theorem routeMethod_post {headers : Headers} (h : request.method = lit "POST") :
    routeMethod app headers request = routePost app headers request := by
  unfold routeMethod
  rw [if_neg fun hc => get_ne_post (hc.1.symm.trans h), if_neg fun hc => get_ne_post (hc.1.symm.trans h),
    if_pos h]

theorem routeMethod_get {headers : Headers} (h : request.method = lit "GET")
    (hhealth : request.path ≠ lit "/healthz") (hmetrics : request.path ≠ lit "/metrics") :
    routeMethod app headers request = routeGet app headers request := by
  unfold routeMethod
  rw [if_neg fun hc => hhealth hc.2, if_neg fun hc => hmetrics hc.2,
    if_neg fun hc => get_ne_post (h.symm.trans hc), if_pos h]

theorem escapes_routeMethod {headers : Headers} : Escapes (routeMethod app headers request) ↔
    request.method = lit "POST" ∧ Escapes (routePost app headers request) ∨
      request.method = lit "GET" ∧ request.path ≠ lit "/healthz" ∧ request.path ≠ lit "/metrics" ∧
        Escapes (routeGet app headers request) := by
  constructor
  · intro h
    unfold routeMethod at h
    split at h
    · exact absurd h escapes_ok
    rename_i hhealth
    split at h
    · exact absurd h escapes_ok
    rename_i hmetrics
    split at h
    · rename_i hpost; exact .inl ⟨hpost, h⟩
    split at h
    · rename_i hget
      exact .inr ⟨hget, fun hp => hhealth ⟨hget, hp⟩, fun hp => hmetrics ⟨hget, hp⟩, h⟩
    · exact absurd h escapes_refuse
  · rintro (⟨hm, h⟩ | ⟨hm, hhealth, hmetrics, h⟩)
    · rwa [routeMethod_post hm]
    · rwa [routeMethod_get hm hhealth hmetrics]

theorem escapes_route : Escapes (route app lower request) ↔ Slips app lower request := by
  have hroute : Escapes (route app lower request) ↔ (63 ∉ request.path ∧ 35 ∉ request.path) ∧
      ∃ headers, normalizeHeaders lower request.headers [] = .ok headers ∧
        Escapes (routeMethod app headers request) := by
    unfold route
    simp only [escapes_bind, escapes_require, escapes_normalizeHeaders, false_or, require_eq_ok,
      decide_eq_true_eq, exists_const]
  rw [hroute]
  constructor
  · rintro ⟨hpath, headers, hheaders, h⟩
    rcases escapes_routeMethod.mp h with ⟨hm, h⟩ | ⟨hm, hhealth, hmetrics, h⟩
    · have hcompares : Compares lower request headers ((postRoute request.path).any Action.isLease) :=
        ⟨hpath, hheaders, .inl ⟨hm, rfl⟩⟩
      rcases escapes_routePost.mp h with ⟨a, ha, hascii⟩ | ⟨hauth, hrouted, hte, hct, h⟩
      · exact .bearer hcompares ha hascii
      have hdecodes : Decodes app lower request headers :=
        ⟨hm, ⟨_, hcompares, hauth⟩, hrouted, hte, hct⟩
      rcases h with h | ⟨hlen, hmax, hvalue⟩
      · obtain ⟨raw, hraw, hdigits, hnone⟩ := escapes_checkLength.mp h
        exact .length hdecodes hraw hdigits hnone
      · obtain ⟨raw, hraw, hdigits, hlen⟩ := checkLength_eq_ok.mp hlen
        exact .integer hdecodes hraw hdigits hlen hmax hvalue
    · obtain ⟨hbody, hstatus, a, ha, hascii⟩ := escapes_routeGet.mp h
      exact .bearer ⟨hpath, hheaders, .inr ⟨hm, hhealth, hmetrics, hbody, hstatus, rfl⟩⟩ ha hascii
  · -- a body is only reached by a post, so the bearer it was compared with is that of its route
    have hdecoded : ∀ {headers : Headers}, Decodes app lower request headers →
        (Escapes (checkLength headers request.body) ∨ checkLength headers request.body = .ok () ∧
          request.body.length ≤ bodyLimit request.path ∧
            loadsUtf8 ⟨true, false⟩ request.body = .error .value) →
        (63 ∉ request.path ∧ 35 ∉ request.path) ∧ ∃ headers,
          normalizeHeaders lower request.headers [] = .ok headers ∧
            Escapes (routeMethod app headers request) := by
      rintro headers ⟨hm, ⟨lease, ⟨hpath, hheaders, hlease⟩, hauth⟩, hrouted, hte, hct⟩ h
      rcases hlease with ⟨-, rfl⟩ | ⟨hget, -⟩
      · exact ⟨hpath, headers, hheaders, escapes_routeMethod.mpr
          (.inl ⟨hm, escapes_routePost.mpr (.inr ⟨hauth, hrouted, hte, hct, h⟩)⟩)⟩
      · exact absurd (hget.symm.trans hm) get_ne_post
    intro h
    cases h with
    | bearer hcompares ha hascii =>
        obtain ⟨hpath, hheaders, ⟨hm, rfl⟩ | ⟨hm, hhealth, hmetrics, hbody, hstatus, rfl⟩⟩ := hcompares
        · exact ⟨hpath, _, hheaders, escapes_routeMethod.mpr
            (.inl ⟨hm, escapes_routePost.mpr (.inl ⟨_, ha, hascii⟩)⟩)⟩
        · exact ⟨hpath, _, hheaders, escapes_routeMethod.mpr
            (.inr ⟨hm, hhealth, hmetrics, escapes_routeGet.mpr ⟨hbody, hstatus, _, ha, hascii⟩⟩)⟩
    | length hdecodes hraw hdigits hnone =>
        exact hdecoded hdecodes (.inl (escapes_checkLength.mpr ⟨_, hraw, hdigits, hnone⟩))
    | integer hdecodes hraw hdigits hlen hmax hvalue =>
        exact hdecoded hdecodes (.inr ⟨checkLength_eq_ok.mpr ⟨_, hraw, hdigits, hlen⟩, hmax, hvalue⟩)

/-! ### Who reaches the backend -/

/-- Normalizing keeps the first results, and gives every header its key. -/
theorem normalizeHeaders_spec : ∀ {headers : List (Str × Str)} {result out : Headers},
    normalizeHeaders lower headers result = .ok out →
      (∀ kv ∈ out, kv ∈ result ∨ ∃ name, (name, kv.2) ∈ headers ∧ lower name = kv.1) ∧
        (∀ kv ∈ result, kv ∈ out) ∧ (∀ h ∈ headers, (lower h.1, h.2) ∈ out) ∧
          ((result.map Prod.fst).Nodup → (out.map Prod.fst).Nodup) := by
  intro headers
  induction headers with
  | nil =>
      intro result out h
      cases h
      exact ⟨fun kv hkv => .inl hkv, fun kv hkv => hkv, by simp, id⟩
  | cons header headers ih =>
      intro result out h
      obtain ⟨name, value⟩ := header
      simp only [normalizeHeaders] at h
      by_cases hdup : (result.lookup (lower name)).isSome = true
      · rw [if_pos hdup] at h; cases h
      rw [if_neg hdup] at h
      split at h
      · cases h
      obtain ⟨hfrom, hkeep, hall, hnodup⟩ := ih h
      refine ⟨fun kv hkv => ?_, fun kv hkv => hkeep kv (List.mem_append_left _ hkv), ?_, fun hn => ?_⟩
      · rcases hfrom kv hkv with hmem | ⟨n, hn, hl⟩
        · rcases List.mem_append.mp hmem with hmem | hmem
          · exact .inl hmem
          · rw [List.mem_singleton.mp hmem]
            exact .inr ⟨name, by simp, rfl⟩
        · exact .inr ⟨n, List.mem_cons_of_mem _ hn, hl⟩
      · intro other hother
        rcases List.mem_cons.mp hother with rfl | hother
        · exact hkeep _ (List.mem_append_right _ (by simp))
        · exact hall other hother
      · refine hnodup ?_
        rw [List.map_append, List.nodup_append]
        refine ⟨hn, by simp, fun k hk k' hk' hkk => hdup ?_⟩
        obtain rfl : k' = lower name := by simpa using hk'
        obtain ⟨kv, hkv, rfl⟩ := List.mem_map.mp hk
        rw [← hkk]
        exact List.lookup_isSome_iff.mpr ⟨kv, hkv, by simp⟩

theorem lookup_mem {k v : Str} : ∀ {h : Headers}, h.lookup k = some v → (k, v) ∈ h := by
  intro h
  induction h with
  | nil => intro hl; cases hl
  | cons kv h ih =>
      intro hl
      obtain ⟨k', v'⟩ := kv
      rw [List.lookup_cons] at hl
      by_cases hk : (k == k') = true
      · rw [hk] at hl
        cases hl
        rw [beq_iff_eq.mp hk]
        simp
      · simp only [Bool.not_eq_true] at hk
        rw [hk] at hl
        exact List.mem_cons_of_mem _ (ih hl)

/-- With distinct keys, a key has one value. -/
theorem eq_of_nodup_keys {k v v' : Str} : ∀ {h : Headers}, (h.map Prod.fst).Nodup →
    (k, v) ∈ h → (k, v') ∈ h → v = v' := by
  intro h hn hv hv'
  exact congrArg Prod.snd (List.inj_on_of_nodup_map hn hv hv' rfl)

theorem routePost_authenticated {headers : Headers} {action : Action}
    {payload : Option (List (Str × Json))} {op : Option Str}
    (h : routePost app headers request = .ok (.invoke action payload op)) :
    authenticate app headers action.isLease = .ok () := by
  unfold routePost at h
  rw [bind_eq_ok] at h
  obtain ⟨_, hauth, h⟩ := h
  cases hp : postRoute request.path with
  | some a =>
      rw [hp] at h hauth
      simp only [bind_eq_ok, pure_eq_ok, Target.invoke.injEq] at h
      obtain ⟨p, -, rfl, -, -⟩ := h
      exact hauth
  | none =>
      rw [hp] at h hauth
      cases happly : applyPath request.path with
      | some o =>
          rw [happly] at h
          simp only [bind_eq_ok, pure_eq_ok, Target.invoke.injEq] at h
          obtain ⟨p, -, rfl, -, -⟩ := h
          exact hauth
      | none => rw [happly] at h; cases h

theorem routeGet_authenticated {headers : Headers} {action : Action}
    {payload : Option (List (Str × Json))} {op : Option Str}
    (h : routeGet app headers request = .ok (.invoke action payload op)) :
    authenticate app headers action.isLease = .ok () := by
  simp only [routeGet, bind_eq_ok, pure_eq_ok, Target.invoke.injEq] at h
  obtain ⟨-, -, o, -, _, hauth, rfl, -, -⟩ := h
  exact hauth

/-- Whatever reaches the backend came with the bearer of its action. -/
theorem route_authenticated {action : Action} {payload : Option (List (Str × Json))} {op : Option Str}
    (h : route app lower request = .ok (.invoke action payload op)) : ∃ headers,
      normalizeHeaders lower request.headers [] = .ok headers ∧
        authenticate app headers action.isLease = .ok () := by
  simp only [route, bind_eq_ok] at h
  obtain ⟨-, -, headers, hheaders, h⟩ := h
  refine ⟨headers, hheaders, ?_⟩
  unfold routeMethod at h
  split at h
  · cases h
  split at h
  · cases h
  split at h
  · exact routePost_authenticated h
  split at h
  · exact routeGet_authenticated h
  · cases h

theorem invoked_authorized {action : Action} {payload : Option (List (Str × Json))} {op : Option Str}
    (h : invoked app lower request = some (action, payload, op)) :
    ∃ name, (name, bearer app action.isLease) ∈ request.headers ∧ lower name = lit "authorization" ∧
      ∀ other ∈ request.headers, lower other.1 = lit "authorization" →
        other.2 = bearer app action.isLease := by
  have hroute : route app lower request = .ok (.invoke action payload op) := by
    unfold invoked at h
    split at h
    · rename_i a p o hr
      cases h
      exact hr
    · cases h
  obtain ⟨headers, hheaders, hauth⟩ := route_authenticated hroute
  obtain ⟨hfrom, -, hall, hnodup⟩ := normalizeHeaders_spec hheaders
  have hmem := lookup_mem (authenticate_eq_ok.mp hauth).1
  rcases hfrom _ hmem with hnone | ⟨name, hname, hlower⟩
  · cases hnone
  · refine ⟨name, hname, hlower, fun other hother hl => ?_⟩
    have hother' := hall other hother
    rw [hl] at hother'
    exact eq_of_nodup_keys (hnodup List.nodup_nil) hother' hmem

/-- **The dispatcher is closed exactly when none of the three library calls slips.**  It then
answers the request or raises a `ServiceFailure`; and in every case it calls the backend for a lease
action only with the lease bearer, and for any other action only with the operator's. -/
theorem dispatch_closed : Closed app lower request ↔ ¬ Slips app lower request := by
  have hescapes : Escapes (dispatch app lower request) ↔ Slips app lower request := by
    unfold dispatch
    simp only [escapes_bind, escapes_answerTarget, and_false, exists_false, or_false]
    exact escapes_route
  rw [← hescapes]
  constructor
  · rintro ⟨⟨response, h⟩ | ⟨failure, h⟩, -⟩
    · rw [h]; exact escapes_ok
    · rw [h]; exact escapes_service
  · intro h
    refine ⟨?_, fun action payload op => invoked_authorized⟩
    cases hd : dispatch app lower request with
    | ok response => exact .inl ⟨response, rfl⟩
    | error raised =>
        cases raised with
        | service failure => exact .inr ⟨failure, rfl⟩
        | other e => exact absurd ⟨e, hd⟩ h

end

/-! ### A request that escapes -/

/-- A backend that does nothing. -/
def idleBackend : Backend where
  health := .error (serviceFailure "capability_failed")
  metrics := none
  invoke _ _ _ := .failed

def idleApplication : Application where
  backend := idleBackend
  leaseToken := lit "lease"
  operatorToken := lit "operator"
  leaseToken_valid := by decide
  operatorToken_valid := by decide

/-- `str.lower` of text whose letters are ASCII. -/
def lowerAscii (s : Str) : Str := s.map fun c => if 65 ≤ c ∧ c ≤ 90 then c + 32 else c

/-- `Authorization: Bearer é` on a lease route. -/
def accentedRequest : HttpRequest where
  method := lit "POST"
  path := lit "/v1/leases/heartbeat"
  headers := [(lit "Authorization", lit "Bearer " ++ [0xe9])]
  body := []

theorem dispatch_accented_escapes : ¬ Closed idleApplication lowerAscii accentedRequest := by
  have hraises : dispatch idleApplication lowerAscii accentedRequest = .error (.other .typeError) := by
    rfl
  rintro ⟨⟨response, h⟩ | ⟨failure, h⟩, -⟩
  · rw [hraises] at h; cases h
  · rw [hraises] at h; cases h

end Checkpoints
