/-
Resolving the active publication of a dataset.

The pointer names a manifest, the manifest has to be the one the registry's plan describes,
and every object is fetched: its bytes are compared by size and digest as they arrive, in
chunks of any size, while a local file captures them for the check of their schema.

The client, the bodies of its responses, the clock and the file system answer anything.
-/
import DataEngLab.Datasets.Publication.Documents
import DataEngLab.Lib.Trace

namespace Publication

open Lib Registry
open Datasets (Location DateHeader Failure ControlSnapshot)

/-! ### Calls -/

/-- The `Body` of a response: absent, or with or without a `read` and a `close` that can be called. -/
inductive ResponseBody where
  | missing
  | present (readable closable : Bool)
deriving DecidableEq

/-- A response of `get_object`.  An ETag or metadata that are not of their type are `none`. -/
structure GetResponse where
  date : DateHeader
  etag : Option Str
  metadata : Option (List (Str × Str))
  body : ResponseBody
deriving DecidableEq

inductive GetReply where
  | ok (r : GetResponse)
  /-- not a mapping -/
  | malformed
  | raised (f : Failure)
deriving DecidableEq

/-- What `body.read(size)` gives; it may be more than was asked for. -/
inductive ReadReply where
  | bytes (b : Bytes)
  | nonBytes
  | raised (f : Failure)
deriving DecidableEq

/-- What `file.write(chunk)` gives. -/
inductive WriteReply where
  | count (n : Int)
  | nonInt
  | raised (f : Failure)
deriving DecidableEq

inductive Call where
  | getObject (loc : Location)
  /-- `read(size)` of the body of the last response for this location -/
  | read (loc : Location) (size : Int)
  | close (loc : Location)
  | utcNow
  /-- an empty temporary file, and its removal -/
  | openCapture
  | closeCapture
  | write (chunk : Bytes)
  | flush
  /-- `verify_physical_schema` of the temporary file -/
  | inspectSchema (contract : SchemaContract)

def Answer : Call → Type
  | .getObject _ => GetReply
  | .read _ _ => ReadReply
  | .close _ => Option Failure
  | .utcNow => Moment
  | .openCapture => Option Failure
  | .closeCapture => Option Failure
  | .write _ => WriteReply
  | .flush => Option Failure
  | .inspectSchema _ => Except Exn Unit

abbrev S (α : Type) := Proc Call Answer Exn α

abbrev Log := List (Event Call Answer)

def perform (e : Call) : S (Answer e) := Proc.perform e

def lift {α : Type} (x : Except Exn α) : S α := Proc.lift x

/-- A call that has no result but may raise. -/
def raising (f : Option Failure) : S Unit :=
  match f with
  | none => return ()
  | some f => throw (.raised f)

/-! ### Reading a control object -/

/-- `_ambiguous_read` -/
def ambiguousRead : Exn := .ambiguousWrite "S3 object read could not establish an exact value"

/-- `except (BotoCoreError, ClientError)` -/
def isClientFailure : Failure → Bool
  | .clientError .. => true
  | .botoCoreError => true
  | _ => false

/-- `except (BotoCoreError, ClientError, KeyError, TypeError, ValueError)` -/
def isReadFailure : Failure → Bool
  | .valueError => true
  | f => isClientFailure f

/-- `_get_object` -/
def getObject (loc : Location) : S GetResponse := do
  match ← perform (.getObject loc) with
  | .ok r => return r
  | .malformed => throw ambiguousRead
  | .raised f => throw (if isClientFailure f then ambiguousRead else .raised f)

def responseServerDate : DateHeader → S Instant
  | .missing => throw (.ambiguousWrite "S3 response is missing its Date header")
  | .invalid => throw (.ambiguousWrite "S3 response has an invalid Date header")
  | .date d => do
      let now ← perform .utcNow
      if Datasets.maxClockSkew < Datasets.skew d.moment now then
        throw (.ambiguousWrite "S3 response Date has implausible clock skew")
      else return d

def responseEtag : Option Str → Except Exn Str
  | some (c :: e) => .ok (c :: e)
  | _ => .error (.ambiguousWrite "S3 response has an invalid ETag")

/-- `_close_body` -/
def closeBody (loc : Location) (closable : Bool) : S (Option Failure) :=
  if closable then perform (.close loc) else return none

/-- `with _owned_body(body)`: what closing raises counts only when nothing else was raised. -/
def ownedBody {α : Type} (close : S (Option Failure)) (x : S α) : S α := do
  match ← x.attempt with
  | .error e => do
      let _ ← close
      throw e
  | .ok a =>
      match ← close with
      | none => return a
      | some _ => throw (.ambiguousWrite "S3 response body close failed")

/-- The rounds of `_read_bounded`.  A round adds a byte or is the last, so `rounds` runs out only when
the limit has been passed. -/
def readLoop (loc : Location) (limit : Nat) : Nat → Bytes → S Bytes
  | 0, body => return body
  | rounds + 1, body =>
      if limit < body.length then return body
      else do
        match ← perform (.read loc (min 65536 (limit + 1 - body.length))) with
        | .raised f => throw (if isReadFailure f then ambiguousRead else .raised f)
        | .nonBytes => throw ambiguousRead
        | .bytes chunk => if chunk = [] then return body else readLoop loc limit rounds (body ++ chunk)

/-- `_read_bounded`, and what its caller makes of its errors. -/
def readBounded (loc : Location) (readable : Bool) : S Bytes := do
  if readable then
    let body ← readLoop loc Datasets.maxControlBytes (Datasets.maxControlBytes + 1) []
    if Datasets.maxControlBytes < body.length then
      throw (.ambiguousWrite "S3 control object is too large")
    else return body
  else throw ambiguousRead

def readControlObject (loc : Location) : S ControlSnapshot := do
  let r ← getObject loc
  match r.body with
  | .missing => throw ambiguousRead
  | .present readable closable =>
      ownedBody (closeBody loc closable) do
        let serverDate ← responseServerDate r.date
        let etag ← lift (responseEtag r.etag)
        let body ← readBounded loc readable
        return ⟨body, etag, serverDate⟩

/-! ### Comparing a stream -/

/-- The rounds of `verify_stream`: what has been read when the stream ends.  A round adds a byte or is
the last, so `rounds` runs out only when more has arrived than is expected. -/
def verifyLoop (read : Int → S Bytes) (expectedSize : Int) (tooLong : Exn) : Nat → Bytes → S Bytes
  | 0, _ => throw tooLong
  | rounds + 1, received => do
      let chunk ← read (min 1048576 (expectedSize - received.length + 1))
      if chunk = [] then return received
      else if expectedSize < (received ++ chunk).length then throw tooLong
      else verifyLoop read expectedSize tooLong rounds (received ++ chunk)

/-- `verify_stream`; `mismatch` makes the error of a field. -/
def verifyStream (read : Int → S Bytes) (expectedSize : Int) (expectedSha256 : Str) (mismatch : Str → Exn) :
    S (Nat × Str) := do
  let received ← verifyLoop read expectedSize (mismatch (lit "size_bytes")) (expectedSize.toNat + 1) []
  if (received.length : Int) ≠ expectedSize then throw (mismatch (lit "size_bytes"))
  else if sha256 received ≠ expectedSha256 then throw (mismatch (lit "sha256"))
  else return (received.length, sha256 received)

/-- `_CapturingBody.read` -/
def capturingRead (loc : Location) (size : Int) : S Bytes := do
  match ← perform (.read loc size) with
  | .raised f => throw (if f = .interrupt then .raised f
      else .ambiguousWrite "S3 object body read failed during schema capture")
  | .nonBytes => throw (.ambiguousWrite "S3 object body returned non-bytes during schema capture")
  | .bytes chunk =>
      match ← perform (.write chunk) with
      | .raised f => throw (if f = .interrupt then .raised f
          else .ambiguousWrite "local schema capture write failed")
      | .nonInt => throw (.ambiguousWrite "local schema capture write was incomplete")
      | .count n =>
          if n = chunk.length then return chunk
          else throw (.ambiguousWrite "local schema capture write was incomplete")

/-- A body that `_CapturingClient.get_object` does not wrap. -/
def refuseBody (loc : Location) (closable : Bool) : S Unit := do
  match ← closeBody loc closable with
  | none => throw (.ambiguousWrite "S3 object body lacks readable and closable binary capabilities")
  | some f => throw (if f = .interrupt then .raised f
      else .ambiguousWrite "malformed S3 object body could not be closed")

/-- `stream_verify_object` with a `_CapturingClient`. -/
def streamVerifyObject (loc : Location) (expectedSize : Int) (expectedSha256 : Str) (mismatch : Str → Exn) :
    S (Nat × Str) := do
  let r ← getObject loc
  match r.body with
  | .missing => throw ambiguousRead
  | .present readable closable =>
      if readable && closable then
        ownedBody (closeBody loc true) do
          let _ ← responseServerDate r.date
          let _ ← lift (responseEtag r.etag)
          let _ ← lift (orElse r.metadata ambiguousRead)
          verifyStream (capturingRead loc) expectedSize expectedSha256 mismatch
      else do
        refuseBody loc closable
        throw ambiguousRead

/-! ### Resolving -/

structure ResolvedObject where
  objectName : Str
  uri : Str
  sizeBytes : Int
  sha256 : Str
  schemaId : Str
deriving DecidableEq

structure ResolvedDataset where
  dataset : Str
  scale : Str
  planId : Str
  manifestSha256 : Str
  publicationId : Str
  objects : List ResolvedObject
deriving DecidableEq

/-- `_mismatch` -/
def mismatch (plan : ScalePlan) (stage : String) (field : Str) : Exn :=
  .lockMismatch plan.dataset.name plan.scale stage field

/-- What the manifest has to say of one output. -/
def expectedObject (plan : ScalePlan) (expectedPrefix : Str) (output : Output) :
    Except Exn ManifestObject := do
  let schema ← schemaOf plan output.schemaId
  makeManifestObject (.str output.objectName) (.str (expectedPrefix ++ lit "/" ++ output.objectName))
    (.int output.sizeBytes) (.str output.sha256) (.str output.schemaId) (.str schema.fingerprint)

def validateObject (plan : ScalePlan) (expectedPrefix : Str) (pair : ManifestObject × Output) :
    Except Exn Unit := do
  let expected ← expectedObject plan expectedPrefix pair.2
  require (pair.1 == expected) (mismatch plan "manifest" (lit "object:" ++ pair.2.objectName))

/-- `_validate_manifest_for_plan` -/
def validateManifestForPlan (manifest : ImmutableManifest) (plan : ScalePlan) : Except Exn Unit := do
  let expectedPlanId ← planId plan
  require (manifest.dataset == plan.dataset.name) (mismatch plan "manifest" (lit "dataset"))
  require (manifest.scale == plan.scale) (mismatch plan "manifest" (lit "scale"))
  require (manifest.planId == expectedPlanId) (mismatch plan "manifest" (lit "plan_id"))
  let expectedPrefix ← publicationPrefix plan manifest.publicationId
  require (manifest.physicalPrefix == expectedPrefix) (mismatch plan "manifest" (lit "physical_prefix"))
  let outputs := selectedOutputs plan
  require (manifest.objects.map (·.objectName.1) == outputs.map (·.objectName))
    (mismatch plan "manifest" (lit "object_names"))
  let _ ← checkAll (validateObject plan expectedPrefix) (manifest.objects.zip outputs)
  return ()

/-- `with tempfile.NamedTemporaryFile(...)`: what closing the file raises replaces what was raised. -/
def withCapture {α : Type} (x : S α) : S α := do
  raising (← perform .openCapture)
  let result ← x.attempt
  raising (← perform .closeCapture)
  lift result

/-- `try: x except OSError` -/
def captureErrors {α : Type} (x : S α) : S α :=
  tryCatch x fun e => throw (if e = .raised .osError then .ambiguousWrite "local schema capture I/O failed" else e)

/-- The URI of an object. -/
def objectUri (bucket key : Str) : Str := lit "s3://" ++ bucket ++ lit "/" ++ key

/-- `_verify_resolved_object` -/
def verifyResolvedObject (plan : ScalePlan) (bucket : Str) (item : ManifestObject) : S ResolvedObject := do
  captureErrors (withCapture do
    let _ ← streamVerifyObject ⟨bucket, item.key⟩ item.sizeBytes item.sha256 (mismatch plan "resolve")
    raising (← perform .flush)
    let contract ← lift (schemaOf plan item.schemaId)
    lift (← perform (.inspectSchema contract)))
  return ⟨item.objectName, objectUri bucket item.key, item.sizeBytes, item.sha256, item.schemaId⟩

/-- The manifest in a body, if the body has the digest it was looked up under. -/
def checkedManifest (digest : Sha256Hex) (body : Bytes) : Except Exn ImmutableManifest := do
  require (sha256 body == digest.1)
    (.valueError "immutable manifest digest does not match its content-addressed key")
  manifestOfBytes body

/-- `_read_manifest` -/
def readManifest (plan : ScalePlan) (digest : Sha256Hex) (bucket : Str) : S ImmutableManifest := do
  let dataset ← lift (requireComponent (.str plan.dataset.name) "dataset")
  let snapshot ← readControlObject ⟨bucket, immutableManifestKey dataset digest⟩
  lift ((checkedManifest digest snapshot.body).mapError fun _ => mismatch plan "manifest" (lit "manifest"))

/-- Every item in order. -/
def forEach {α β : Type} (f : α → S β) : List α → S (List β)
  | [] => return []
  | x :: xs => do
      let y ← f x
      let ys ← forEach f xs
      return y :: ys

/-- `_resolve_manifest_with_document` -/
def resolveManifestWithDocument (plan : ScalePlan) (digest : Sha256Hex) (bucket : Str) :
    S (ResolvedDataset × ImmutableManifest) := do
  let manifest ← readManifest plan digest bucket
  lift (validateManifestForPlan manifest plan)
  let objects ← forEach (verifyResolvedObject plan bucket) manifest.objects
  return (⟨plan.dataset.name, plan.scale, manifest.planId, digest, manifest.publicationId, objects⟩, manifest)

/-- `_resolve_manifest` -/
def resolveManifest (plan : ScalePlan) (digest : Sha256Hex) (bucket : Str) : S ResolvedDataset := do
  let (resolved, _) ← resolveManifestWithDocument plan digest bucket
  return resolved

/-- The plan of a dataset of the registry at a scale. -/
def planFor (registry : Dict Str Dataset) (datasetId scale : Str) : Except Exn ScalePlan :=
  (item registry datasetId >>= fun dataset => resolveScale dataset scale).mapError Exn.ofRaised

def resolveActiveDataset (registry : Dict Str Dataset) (datasetId expectedScale bucket : Str) :
    S ResolvedDataset := do
  let plan ← lift (planFor registry datasetId expectedScale)
  let dataset ← lift (requireComponent (.str datasetId) "dataset")
  let snapshot ← readControlObject ⟨bucket, activePointerKey dataset⟩
  let pointer ← lift ((pointerOfBytes snapshot.body).mapError fun _ => mismatch plan "pointer" (lit "pointer"))
  if pointer.dataset.1 ≠ datasetId then throw (mismatch plan "pointer" (lit "dataset"))
  else resolveManifest plan pointer.manifestSha256 bucket

end Publication
