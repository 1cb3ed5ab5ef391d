/-
The object store client.

A small control object is read whole, with its ETag and the server's date, or not at all:
everything that keeps a read from being exact is an `AmbiguousWrite`.  A conditional write
is read back whatever its answer was; it counts when the bytes that are read are the ones
that were sent, lost answers included, and is a `ConditionalConflict` when they are not.
A large object is compared by size and digest as its bytes arrive.
-/
import DataEngLab.Datasets.Store
import DataEngLab.Lib.JsonRaw
import DataEngLab.Lib.Digest

namespace Datasets

open Lib

/-- A function that calls on the store. -/
abbrev S (α : Type) := Proc Call Answer Exn α

def perform (e : Call) : S (Answer e) := Proc.perform e

def lift {α : Type} (x : Except Exn α) : S α := Proc.lift x

/-- `_utc_now` -/
def utcNow : S Moment := perform .utcNow

/-- `_monotonic` -/
def monotonic : S Rat := perform .monotonic

/-- `_MAX_CLOCK_SKEW`, in microseconds. -/
def maxClockSkew : Nat := 300000000

/-- `_MAX_CONTROL_BYTES` -/
def maxControlBytes : Nat := 1048576

structure ControlSnapshot where
  body : Bytes
  etag : Str
  serverDate : Instant

structure ObjectSnapshot where
  etag : Str
  metadata : List (Str × Str)
  serverDate : Instant
  sizeBytes : Nat
  sha256 : Str

/-! ### Errors of the client -/

section
variable (status : Option Int) (code : Str)

def isConditionalError : Bool :=
  status == some 409 || status == some 412 ||
    code ∈ [lit "409", lit "412", lit "ConditionalRequestConflict", lit "PreconditionFailed"]

def isServerError : Bool := status.any fun n => 500 ≤ n && n ≤ 599

def isTimeoutError : Bool :=
  status == some 408 ||
    code ∈ [lit "RequestExpired", lit "RequestTimeout", lit "RequestTimeoutException"]

end

/-- `_ambiguous_read` -/
def ambiguousRead (cause : Option Failure) : Exn :=
  .ambiguousWrite "S3 object read could not establish an exact value" cause

/-! ### Reading -/

/-- `abs(a - b)` of two instants, in microseconds. -/
def skew (a b : Moment) : Nat := (a.micros - b.micros) + (b.micros - a.micros)

def responseServerDate : DateHeader → S Instant
  | .missing => throw (.ambiguousWrite "S3 response is missing its Date header" none)
  | .invalid => throw (.ambiguousWrite "S3 response has an invalid Date header" none)
  | .date d => do
      let now ← utcNow
      if maxClockSkew < skew d.moment now then
        throw (.ambiguousWrite "S3 response Date has implausible clock skew" none)
      else return d

def responseEtag (etag : Option Str) : Except Exn Str :=
  match etag with
  | some (c :: e) => .ok (c :: e)
  | _ => .error (.ambiguousWrite "S3 response has an invalid ETag" none)

/-- What a body raises is an ambiguous read if the client could have raised it. -/
def bodyError (f : Failure) : Exn :=
  match f with
  | .clientError .. => ambiguousRead (some f)
  | .botoCoreError => ambiguousRead (some f)
  | .valueError => ambiguousRead (some f)
  | _ => .raised f

/-- `_read_bounded`, and what its caller makes of its errors. -/
def readBounded : BodyRead → Except Exn Bytes
  | .raises f => .error (bodyError f)
  | .nonBytes => .error (ambiguousRead none)
  | .bytes b =>
      if maxControlBytes < b.length then .error (.ambiguousWrite "S3 control object is too large" none)
      else .ok b

/-- `with _owned_body(body)`: what closing raises counts only when nothing else was raised. -/
def ownedBody {α : Type} (close : Option Failure) (x : S α) : S α := do
  let a ← x
  match close with
  | none => return a
  | some f => throw (.ambiguousWrite "S3 response body close failed" (some f))

/-- `_get_object`, with the body of the response. -/
def getObject (loc : Location) : S GetResponse := do
  match ← perform (.getObject loc) with
  | .ok r => return r
  | .malformed => throw (ambiguousRead none)
  | .raised f =>
      match f with
      | .clientError .. => throw (ambiguousRead (some f))
      | .botoCoreError => throw (ambiguousRead (some f))
      | _ => throw (.raised f)

/-- The date, the ETag and the bytes of a response. -/
def controlSnapshot (r : GetResponse) : S ControlSnapshot :=
  ownedBody r.close do
    let serverDate ← responseServerDate r.date
    let etag ← lift (responseEtag r.etag)
    let body ← lift (readBounded r.body)
    return ⟨body, etag, serverDate⟩

def readControlObject (loc : Location) : S ControlSnapshot := do
  let r ← getObject loc
  controlSnapshot r

/-! ### Writing a control object -/

/-- `_canonical_control_body` -/
def canonicalControlBody (body : Bytes) : Except Exn Bytes :=
  let notCanonical := Exn.valueError "control object body must be a canonical JSON mapping"
  match loadsBytes ⟨false, true⟩ body with
  | .error .recursion => .error .recursionError
  | .error _ => .error notCanonical
  | .ok (.obj kvs) =>
      match canonicalJson (.obj kvs) with
      | none => .error (.valueError "not encodable")
      | some canonical =>
          if maxControlBytes < canonical.length then .error (.valueError "S3 control object is too large")
          else .ok canonical
  | .ok _ => .error notCanonical

def reconcileControlWrite (loc : Location) (intendedBody : Bytes) : S ControlSnapshot := do
  let snapshot ← readControlObject loc
  if snapshot.body ≠ intendedBody then
    throw (.conditionalConflict "control object contains competing bytes")
  else return snapshot

/-- The errors after which a write is read back; any other is raised as it is. -/
def reconcilable : Failure → Bool
  | .clientError status code _ =>
      isConditionalError status code || isServerError status || isTimeoutError status code
  | .botoCoreError => true
  | _ => false

/-- What is read back after a write, and the date of the write's answer. -/
def readBack (loc : Location) (body : Bytes) (date : Option DateHeader) :
    S (ControlSnapshot × Option DateHeader) := do
  let snapshot ← reconcileControlWrite loc body
  return (snapshot, date)

/-- `_put_control_request`; the response is given by its date. -/
def putControlRequest (loc : Location) (body : Bytes) (condition : PutCondition) :
    S (ControlSnapshot × Option DateHeader) := do
  match ← perform (.putObject loc body [] condition) with
  | .ok date => readBack loc body (some date)
  | .malformed => do
      let _ ← readBack loc body none
      throw (.ambiguousWrite "S3 successful write response is not a mapping" none)
  | .raised f => if reconcilable f then readBack loc body none else throw (.raised f)

def putControlObject (loc : Location) (body : Bytes) (condition : PutCondition) : S ControlSnapshot := do
  let intendedBody ← lift (canonicalControlBody body)
  let (snapshot, _) ← putControlRequest loc intendedBody condition
  return snapshot

end Datasets
