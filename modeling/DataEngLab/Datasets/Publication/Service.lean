/-
The resolver's service.

A request names a dataset and the scale that is expected of it; the answer is the canonical
JSON of the dataset that was resolved.  An error is answered too, with another status.

Left of a request is what its headers do not decide: its body.
-/
import DataEngLab.Datasets.Publication.Resolve

namespace Publication

open Lib Registry

/-- What becomes of a request that is not answered with status 200. -/
inductive ServiceExn where
  /-- `RequestError` -/
  | request (message : String)
  | resolution (e : Exn)
deriving DecidableEq

/-- `_BUCKET` -/
def landingBucket : Str := lit "landing"

/-- `_DATASET_RE` -/
def isIdentifier : Str → Bool
  | [] => false
  | c :: rest => (97 ≤ c && c ≤ 122) && rest.all fun c => (97 ≤ c && c ≤ 122) || isDigit c || c == 95 || c == 45

/-- `_SCALES` -/
def scales : List Str := [lit "tiny", lit "small", lit "medium"]

/-- `_require_identifier` and `_require_scale`: a field that is a text and passes a test. -/
def requireField (document : List (Str × Json)) (field : String) (test : Str → Bool) (message : String) :
    Except ServiceExn Str :=
  match Json.get field document with
  | none | some .null => .error (.request (field ++ " is required"))
  | some (.str s) => if test s then .ok s else .error (.request (field ++ message))
  | some _ => .error (.request (field ++ message))

def requestFields : List String := ["dataset", "expected_scale"]

def requireFields (document : List (Str × Json)) : Except ServiceExn Unit :=
  if Json.hasExactly requestFields document then .ok ()
  else if (Json.get "dataset" document).isNone then .error (.request "dataset is required")
  else if (Json.get "expected_scale" document).isNone then .error (.request "expected_scale is required")
  else .error (.request "request fields are not exact")

/-- The dataset and the scale of a request. -/
def requested (registry : Dict Str Dataset) (document : List (Str × Json)) : Except ServiceExn (Str × Str) := do
  requireFields document
  let dataset ← requireField document "dataset" isIdentifier " must be a valid identifier"
  let scale ← requireField document "expected_scale" (scales.contains ·) " must be one of: tiny, small, medium"
  require (registry.get? dataset).isSome (.request "unknown dataset")
  return (dataset, scale)

def ResolvedObject.fields (o : ResolvedObject) : List (String × Json) :=
  [("object_name", .str o.objectName), ("uri", .str o.uri), ("size_bytes", .int o.sizeBytes),
    ("sha256", .str o.sha256), ("schema_id", .str o.schemaId)]

def ResolvedObject.document (o : ResolvedObject) : Json := .obj (members o.fields)

def ResolvedDataset.fields (r : ResolvedDataset) : List (String × Json) :=
  [("dataset", .str r.dataset), ("scale", .str r.scale), ("plan_id", .str r.planId),
    ("manifest_sha256", .str r.manifestSha256), ("publication_id", .str r.publicationId),
    ("objects", .arr (r.objects.map ResolvedObject.document))]

/-- `asdict(resolved)` -/
def ResolvedDataset.document (r : ResolvedDataset) : Json := .obj (members r.fields)

abbrev Serving (α : Type) := Proc Call Answer ServiceExn α

def resolveRequest (registry : Dict Str Dataset) (document : List (Str × Json)) : Serving Bytes := do
  let (dataset, scale) ← Proc.lift (requested registry document)
  let resolved ← (resolveActiveDataset registry dataset scale landingBucket).mapError ServiceExn.resolution
  Proc.lift (orElse (canonicalJson resolved.document) (.resolution (.valueError "not encodable")))

/-- `_decode_request` -/
def decodeRequest (body : Bytes) : Except ServiceExn (List (Str × Json)) :=
  match loadsBytes ⟨true, true⟩ body with
  | .ok (.obj kvs) => .ok kvs
  | .ok _ => .error (.request "request body must be a JSON mapping")
  | .error .duplicateKey => .error (.request "request fields must be unique")
  | .error _ => .error (.request "request body must be valid JSON")

/-- `do_POST`, with the body of the request. -/
def serve (registry : Dict Str Dataset) (body : Bytes) : Serving Bytes := do
  let document ← Proc.lift (decodeRequest body)
  resolveRequest registry document

/-- What a request is answered with is what the resolver returned, in canonical form. -/
theorem resolveRequest_ok {W : Type} {answer : W → (e : Call) → Answer e × W} {w : W} {registry : Dict Str Dataset}
    {document : List (Str × Json)} {dataset scale : Str} {body : Bytes}
    (hr : requested registry document = .ok (dataset, scale))
    (h : (Proc.run answer (resolveRequest registry document) w).1 = .ok body) :
    ∃ resolved, (Proc.run answer (resolveActiveDataset registry dataset scale landingBucket) w).1 = .ok resolved ∧
      canonicalJson resolved.document = some body := by
  rw [resolveRequest, hr] at h
  cases hrun : Proc.run answer (resolveActiveDataset registry dataset scale landingBucket) w with
  | mk result w' =>
      cases result with
      | error e => simp [run_bind, run_mapError, hrun, Except.mapError] at h
      | ok resolved =>
          refine ⟨resolved, rfl, ?_⟩
          simpa [run_bind, run_mapError, hrun, Except.mapError] using h

end Publication
