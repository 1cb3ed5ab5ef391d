/-
The documents that control a dataset.

A manifest lists the objects of one publication and names the manifest before it; the
active pointer names the manifest in force.  Both are read back only from exact canonical
JSON, and what has been read satisfies everything its constructor checks: the fields below
that are proofs are those checks.
-/
import DataEngLab.Datasets.Publication.Plans

namespace Publication

open Lib

/-- `value[key]` of a mapping that has the key. -/
def field (kvs : List (Str × Json)) (key : String) : Json := (Json.get key kvs).getD .null

/-- `_decode_canonical_mapping` -/
def decodeCanonicalMapping (body : Bytes) (label : String) : Except Exn (List (Str × Json)) :=
  match loadsBytes ⟨false, true⟩ body with
  | .error _ => .error (.valueError (label ++ " must be valid canonical JSON"))
  | .ok (.obj kvs) =>
      match canonicalJson (.obj kvs) with
      | none => .error (.valueError "not encodable")
      | some canonical =>
          if canonical = body then .ok kvs
          else .error (.valueError (label ++ " must use exact canonical JSON"))
  | .ok _ => .error (.valueError (label ++ " must be a JSON mapping"))

/-- `type(value) is int and value == _CONTROL_FORMAT_VERSION` -/
def isFormatVersion : Json → Bool
  | .int n => n == 1
  | _ => false

/-! ### Instants -/

/-- `[0-9]{4}-[0-9]{2}-[0-9]{2}T[0-9]{2}:[0-9]{2}:[0-9]{2}Z` -/
def instantPattern : Pattern :=
  Pattern.times 4 isDigit ++ (· == 45) :: (Pattern.times 2 isDigit ++ (· == 45) :: (Pattern.times 2 isDigit ++
    (· == 84) :: (Pattern.times 2 isDigit ++ (· == 58) :: (Pattern.times 2 isDigit ++ (· == 58) ::
      (Pattern.times 2 isDigit ++ [(· == 90)])))))

/-- `_parse_instant`; the instant is in UTC. -/
def parseInstant (value : Json) : Except Exn Instant := do
  let canonical := Exn.valueError "publication timestamp must use canonical whole-second UTC"
  let text ← requireText instantPattern.fullmatch "publication timestamp must use canonical whole-second UTC"
    value
  match fromIsoFormat (text.1.dropLast ++ lit "+00:00") with
  | none => throw (.valueError "publication timestamp is invalid")
  | some (moment, _) => do
      require (moment.micros % 1000000 == 0) (.valueError "publication timestamp must use whole-second UTC")
      require (formatUtc moment.instant == text.1) canonical
      return moment.instant

/-! ### Manifests -/

structure ManifestObject where
  objectName : RelativeKey
  key : RelativeKey
  sizeBytes : { n : Int // 0 < n }
  sha256 : Sha256Hex
  schemaId : Component
  schemaFingerprint : Sha256Hex
deriving DecidableEq

/-- `isinstance(value, int) and not isinstance(value, bool) and value > 0` -/
def requireSize : Json → Except Exn { n : Int // 0 < n }
  | .int n => if h : 0 < n then .ok ⟨n, h⟩ else .error (.valueError "object size must be a positive integer")
  | _ => .error (.valueError "object size must be a positive integer")

@[simp] theorem requireSize_eq_ok {value : Json} {n : { n : Int // 0 < n }} :
    requireSize value = .ok n ↔ value = .int n.1 := by
  constructor
  · intro h
    unfold requireSize at h
    split at h
    · split at h
      · rw [← Except.ok.inj h]
      · cases h
    · cases h
  · rintro rfl
    simp [requireSize, n.2]

/-- `ManifestObject(...)` -/
def makeManifestObject (objectName key sizeBytes sha256 schemaId schemaFingerprint : Json) :
    Except Exn ManifestObject := do
  let objectName ← requireRelativeKey objectName "object name"
  let key ← requireRelativeKey key "physical key"
  let sizeBytes ← requireSize sizeBytes
  let sha256 ← requireSha256 sha256 "object sha256"
  let schemaId ← requireComponent schemaId "schema identifier"
  let schemaFingerprint ← requireSha256 schemaFingerprint "schema fingerprint"
  return ⟨objectName, key, sizeBytes, sha256, schemaId, schemaFingerprint⟩

def manifestObjectFields : List String :=
  ["object_name", "key", "size_bytes", "sha256", "schema_id", "schema_fingerprint"]

/-- `ManifestObject.from_document` -/
def manifestObjectOf : Json → Except Exn ManifestObject
  | .obj kvs => do
      require (Json.hasExactly manifestObjectFields kvs) (.valueError "manifest object fields are not exact")
      makeManifestObject (field kvs "object_name") (field kvs "key") (field kvs "size_bytes")
        (field kvs "sha256") (field kvs "schema_id") (field kvs "schema_fingerprint")
  | _ => .error (.valueError "manifest object fields are not exact")

/-- A manifest of format version 1. -/
structure ImmutableManifest where
  dataset : Component
  scale : Component
  rawRegistrySha256 : Sha256Hex
  selectedPlanSha256 : Sha256Hex
  planId : Sha256Hex
  publicationId : Uuid4Hex
  physicalPrefix : RelativeKey
  objects : List ManifestObject
  publishedAt : Instant
  /-- `previous_manifest_sha256`, from which `previous_manifest_key` follows -/
  previous : Option Sha256Hex
  selected : selectedPlanSha256 = planId
  nonempty : objects ≠ []
  distinctNames : (objects.map (·.objectName)).Nodup

/-- The names of the objects of a manifest are not empty and each one's own, with the proof. -/
def requireObjects (objects : List ManifestObject) :
    Except Exn (PLift (objects ≠ [] ∧ (objects.map (·.objectName)).Nodup)) :=
  if hne : objects ≠ [] then
    if hnd : (objects.map (·.objectName)).Nodup then .ok ⟨hne, hnd⟩
    else .error (.valueError "manifest object names must be unique")
  else .error (.valueError "manifest must contain at least one object")

def requireEqual (a b : Sha256Hex) (message : String) : Except Exn (PLift (a = b)) :=
  if h : a = b then .ok ⟨h⟩ else .error (.valueError message)

/-- The two fields about the manifest before: both absent, or a digest and its key. -/
def previousOf (dataset : Component) (key digest : Json) : Except Exn (Option Sha256Hex) :=
  match key, digest with
  | .null, .null => .ok none
  | .null, _ | _, .null =>
      .error (.valueError "previous manifest key and digest must be both present or both absent")
  | key, digest => do
      let digest ← requireSha256 digest "manifest digest"
      match key with
      | .str key => do
          require (key == immutableManifestKey dataset digest)
            (.valueError "previous manifest key does not match its digest")
          return some digest
      | _ => throw (.valueError "previous manifest key does not match its digest")

def manifestFields : List String :=
  ["dataset", "format_version", "objects", "physical_prefix", "plan_id", "previous_manifest_key",
    "previous_manifest_sha256", "publication_id", "published_at", "raw_registry_sha256", "scale",
    "selected_plan_sha256"]

/-- `ImmutableManifest(...)`, its objects and its instant already read. -/
def makeManifest (kvs : List (Str × Json)) (objects : List ManifestObject) (publishedAt : Instant) :
    Except Exn ImmutableManifest := do
  require (isFormatVersion (field kvs "format_version")) (.valueError "manifest format version is unsupported")
  let dataset ← requireComponent (field kvs "dataset") "dataset"
  let scale ← requireComponent (field kvs "scale") "scale"
  let rawRegistrySha256 ← requireSha256 (field kvs "raw_registry_sha256") "raw registry sha256"
  let selectedPlanSha256 ← requireSha256 (field kvs "selected_plan_sha256") "selected plan sha256"
  let planId ← requireSha256 (field kvs "plan_id") "plan identifier"
  let selected ← requireEqual selectedPlanSha256 planId "selected plan sha256 must equal plan identifier"
  let publicationId ← requireUuid4Hex (field kvs "publication_id")
  let physicalPrefix ← requireRelativeKey (field kvs "physical_prefix") "physical prefix"
  let names ← requireObjects objects
  let previous ← previousOf dataset (field kvs "previous_manifest_key") (field kvs "previous_manifest_sha256")
  return ⟨dataset, scale, rawRegistrySha256, selectedPlanSha256, planId, publicationId, physicalPrefix, objects,
    publishedAt, previous, selected.down, names.down.1, names.down.2⟩

/-- `ImmutableManifest.from_bytes` -/
def manifestOfBytes (body : Bytes) : Except Exn ImmutableManifest := do
  let kvs ← decodeCanonicalMapping body "immutable manifest"
  require (Json.hasExactly manifestFields kvs) (.valueError "immutable manifest fields are not exact")
  match field kvs "objects" with
  | .arr items => do
      let objects ← checkAll manifestObjectOf items
      let publishedAt ← parseInstant (field kvs "published_at")
      makeManifest kvs objects publishedAt
  | _ => throw (.valueError "immutable manifest objects must be a list")

/-- `previous_manifest_key` -/
def ImmutableManifest.previousKey (m : ImmutableManifest) : Option Str :=
  m.previous.map (immutableManifestKey m.dataset)

/-! ### The active pointer -/

/-- A pointer of format version 1; the key of the manifest follows from its digest. -/
structure ActivePointer where
  dataset : Component
  manifestSha256 : Sha256Hex
deriving DecidableEq

def ActivePointer.manifestKey (p : ActivePointer) : Str := immutableManifestKey p.dataset p.manifestSha256

def pointerFields : List String := ["format_version", "dataset", "manifest_key", "manifest_sha256"]

/-- `ActivePointer.from_bytes` -/
def pointerOfBytes (body : Bytes) : Except Exn ActivePointer := do
  let kvs ← decodeCanonicalMapping body "active pointer"
  require (Json.hasExactly pointerFields kvs) (.valueError "active pointer fields are not exact")
  require (isFormatVersion (field kvs "format_version")) (.valueError "pointer format version is unsupported")
  let dataset ← requireComponent (field kvs "dataset") "dataset"
  let manifestSha256 ← requireSha256 (field kvs "manifest_sha256") "manifest digest"
  match field kvs "manifest_key" with
  | .str key => do
      require (key == immutableManifestKey dataset manifestSha256)
        (.valueError "pointer manifest key does not match its digest")
      return ⟨dataset, manifestSha256⟩
  | _ => throw (.valueError "pointer manifest key does not match its digest")

end Publication
