/-
Where a publication is stored.

Everything that makes a dataset at a scale what it is, and nothing else, goes into one
document; the digest of its canonical bytes is the identifier of the plan.  The objects of
a publication lie below the dataset's landing prefix, the plan and the publication; what
controls them (manifests, the pointer to the active one, the lease) lies in a namespace of
its own.

Path components, relative keys, digests and identifiers are types here: a value of one of
them has passed the check that the source makes.
-/
import DataEngLab.Datasets.Registry
import DataEngLab.Datasets.Leases

namespace Publication

open Lib Registry

/-- What the publication code raises. -/
inductive Exn where
  /-- `LockMismatch`: where, and which field -/
  | lockMismatch (dataset scale : Str) (stage : String) (field : Str)
  | ambiguousWrite (message : String)
  | valueError (message : String)
  | typeError
  | keyError
  | raised (f : Datasets.Failure)
deriving DecidableEq

def Exn.ofRaised : Raised → Exn
  | .keyError => .keyError
  | .typeError => .typeError
  | .valueError => .valueError ""

/-! ### Checked texts -/

/-- `validate_relative_path` of a text has no errors; what it asks of `PurePosixPath(value)` follows
from what it asks of the components. -/
def isRelativePath (s : Str) : Bool :=
  !s.isEmpty && ((s.splitOn 47).all fun part => part ∉ [[], lit ".", lit ".."]) &&
    !s.contains 92 && s.all fun c => 32 ≤ c && c ≠ 127

def isComponent (s : Str) : Bool := isRelativePath s && !s.contains 47

abbrev Sha256Hex := { s : Str // isSha256 s = true }
abbrev Uuid4Hex := { s : Str // Datasets.isUuid4Hex s = true }
abbrev RelativeKey := { s : Str // isRelativePath s = true }
abbrev Component := { s : Str // isComponent s = true }

/-- A value is a text that passes a test. -/
def requireText (test : Str → Bool) (message : String) : Json → Except Exn { s : Str // test s = true }
  | .str s => if h : test s = true then .ok ⟨s, h⟩ else .error (.valueError message)
  | _ => .error (.valueError message)

@[simp] theorem requireText_eq_ok {test : Str → Bool} {message : String} {value : Json}
    {s : { s : Str // test s = true }} : requireText test message value = .ok s ↔ value = .str s.1 := by
  constructor
  · intro h
    unfold requireText at h
    split at h
    · split at h
      · rw [← Except.ok.inj h]
      · cases h
    · cases h
  · rintro rfl
    simp [requireText, s.2]

section
variable (value : Json) (label : String)

def requireSha256 : Except Exn Sha256Hex :=
  requireText isSha256 (label ++ " must be 64 lowercase hexadecimal characters") value

def requireUuid4Hex : Except Exn Uuid4Hex :=
  requireText Datasets.isUuid4Hex
    "publication identifier must be a uuid4-style 32-character lowercase hexadecimal value" value

def requireComponent : Except Exn Component :=
  requireText isComponent (label ++ " must be a safe single path component") value

def requireRelativeKey : Except Exn RelativeKey :=
  requireText isRelativePath (label ++ " must be a safe relative POSIX path") value

end

/-! ### The plan document -/

/-- `_provenance_document` -/
def provenanceDocument : Option Provenance → Json
  | none => .null
  | some p => .obj (members [("publisher", .str p.publisher), ("homepage", .str p.homepage),
      ("license_name", .str p.licenseName), ("license_url", .str p.licenseUrl),
      ("attribution", .str p.attribution), ("source_stability", .str p.sourceStability),
      ("update_policy", .str p.updatePolicy)])

def fieldDocument (f : SchemaField) : Json :=
  .obj (members [("name", .str f.name), ("logical_type", .str f.logicalType),
    ("nullable", .bool f.nullable)])

/-- `_schema_document` -/
def schemaDocument (c : SchemaContract) : Except Exn Json := do
  let options ← orElse (Value.dict c.options).plain .typeError
  return .obj (members [("fields", .arr (c.fields.map fieldDocument)),
    ("fingerprint", .str c.fingerprint), ("format", .str c.format), ("id", .str c.id),
    ("mode", .str c.mode), ("options", options)])

/-- What downloaded and generated objects have in common. -/
structure Output where
  objectName : Str
  sizeBytes : Int
  sha256 : Str
  schemaId : Str

def ofLanding (o : LandingObject) : Output := ⟨o.objectName, o.sizeBytes, o.sha256, o.schemaId⟩

def ofGenerated (o : GeneratorOutput) : Output := ⟨o.objectName, o.sizeBytes, o.sha256, o.schemaId⟩

/-- `_output_document` -/
def outputDocument (o : Output) (schema : SchemaContract) : Json :=
  .obj (members [("object_name", .str o.objectName), ("schema_fingerprint", .str schema.fingerprint),
    ("schema_id", .str o.schemaId), ("sha256", .str o.sha256), ("size_bytes", .int o.sizeBytes)])

/-- `_selected_outputs` -/
def selectedOutputs (plan : ScalePlan) : List Output :=
  match plan.generatorScale with
  | some scale => scale.outputs.map ofGenerated
  | none => plan.artifacts.flatMap fun artifact => artifact.outputs.map ofLanding

def landingDocument (o : LandingObject) : Json :=
  .obj (members [("object_name", .str o.objectName), ("size_bytes", .int o.sizeBytes),
    ("sha256", .str o.sha256), ("schema_id", .str o.schemaId),
    ("member_path", o.memberPath.elim .null .str), ("raw_identity", .bool o.rawIdentity)])

def generatedDocument (o : GeneratorOutput) : Json :=
  .obj (members [("table", .str o.table), ("object_name", .str o.objectName),
    ("size_bytes", .int o.sizeBytes), ("sha256", .str o.sha256), ("schema_id", .str o.schemaId)])

/-- An artifact without a provenance of its own has the dataset's. -/
def artifactDocument (ds : Dataset) (a : HttpArtifact) : Json :=
  .obj (members [("id", .str a.id), ("provenance", provenanceDocument (a.provenance.or ds.provenance)),
    ("raw", .obj (members [("name", .str a.raw.name), ("size_bytes", .int a.raw.sizeBytes),
      ("sha256", .str a.raw.sha256)])),
    ("outputs", .arr (a.outputs.map landingDocument)), ("stability", .str a.stability),
    ("url", .str a.url),
    ("version", .obj (members [("kind", .str a.version.kind), ("value", .str a.version.value)]))])

def environmentDocument (e : GeneratorEnvironment) : Json :=
  .obj (members [("image", .str e.image), ("image_digest", .str e.imageDigest),
    ("platform", .str e.platform), ("uv_lock_sha256", .str e.uvLockSha256), ("locale", .str e.locale),
    ("timezone", .str e.timezone), ("threads", .int e.threads),
    ("preserve_insertion_order", .bool e.preserveInsertionOrder)])

def httpSource (plan : ScalePlan) : Json :=
  .obj (members [("artifacts", .arr (plan.artifacts.map (artifactDocument plan.dataset))),
    ("kind", .str (lit "http")), ("unzip", .bool plan.dataset.unzip)])

def generatorSource (g : GeneratorContract) (scale : GeneratorScale) : Json :=
  .obj (members [("compression", .str g.compression),
    ("engine", .obj (members [("name", .str g.engineName), ("version", .str g.engineVersion),
      ("wheel_sha256", .str g.engineWheelSha256)])),
    ("environment", environmentDocument g.environment), ("export_format", .str g.exportFormat),
    ("extension", .obj (members [("name", .str g.extensionName),
      ("repository_url", .str g.extensionRepositoryUrl), ("sha256", .str g.extensionSha256),
      ("version_relation", .str g.extensionVersionRelation)])),
    ("kind", .str (lit "generator")),
    ("order_by", .obj (g.orderBy.map fun x => (x.1, .arr (x.2.map .str)))),
    ("procedure", .str g.procedure), ("row_group_size", .int g.rowGroupSize),
    ("scale_factor", .float scale.scaleFactor), ("scale_parameter", .str g.scaleParameter),
    ("outputs", .arr (scale.outputs.map generatedDocument))])

def sourceDocument (plan : ScalePlan) : Except Exn Json :=
  match plan.generatorScale, plan.dataset.generator with
  | none, _ => .ok (httpSource plan)
  | some _, none => .error (.valueError "generator scale requires a generator contract")
  | some scale, some g => .ok (generatorSource g scale)

/-- `_DEFAULT_LOCK_POLICY` -/
def defaultLockPolicy : Json :=
  .obj (members [("algorithm", .str (lit "sha256")), ("object_drift", .str (lit "fail")),
    ("schema_fingerprint", .str (lit "sha256-canonical-json")), ("source_drift", .str (lit "fail")),
    ("update_policy", .str (lit "reviewed-lock-update"))])

/-- `plan.dataset.schemas[schema_id]` -/
def schemaOf (plan : ScalePlan) (schemaId : Str) : Except Exn SchemaContract :=
  orElse (plan.dataset.schemas.get? schemaId) .keyError

/-- Each once, in the order of their first places. -/
def distinct : List Str → List Str
  | [] => []
  | x :: xs => x :: (distinct xs).filter (· ≠ x)

def selectedPlanDocument (plan : ScalePlan) : Except Exn Json := do
  let outputs := selectedOutputs plan
  let source ← sourceDocument plan
  let objects ← checkAll (fun o => do return outputDocument o (← schemaOf plan o.schemaId)) outputs
  let schemas ← checkAll (fun id => do schemaDocument (← schemaOf plan id))
    (distinct (outputs.map (·.schemaId)))
  return .obj (members [("dataset", .str plan.dataset.name),
    ("dataset_contract", .obj (members [("format", .str plan.dataset.format),
      ("landing_prefix", .str plan.dataset.landingPrefix), ("license", .str plan.dataset.license),
      ("provenance", provenanceDocument plan.dataset.provenance)])),
    ("lock", defaultLockPolicy), ("objects", .arr objects), ("publication_layout_version", .int 1),
    ("registry_schema_version", .int 2), ("scale", .str plan.scale), ("schemas", .arr schemas),
    ("source", source)])

def planId (plan : ScalePlan) : Except Exn Str := do
  let document ← selectedPlanDocument plan
  let body ← orElse (canonicalJson document) (.valueError "not encodable")
  return sha256 body

/-! ### Keys -/

/-- `key.split("/", 1)[0]` -/
def firstComponent (key : Str) : Str := key.takeWhile (· ≠ 47)

def controlNamespace : Str := lit "_data-eng-locks"

def publicationPrefix (plan : ScalePlan) (publicationId : Str) : Except Exn Str := do
  let identifier ← requireUuid4Hex (.str publicationId)
  let landingPrefix ← requireRelativeKey (.str plan.dataset.landingPrefix) "landing prefix"
  require (firstComponent landingPrefix != controlNamespace)
    (.valueError "landing prefix must not enter the global control namespace")
  let plan ← planId plan
  return landingPrefix ++ lit "/_generations/" ++ plan ++ lit "/" ++ identifier

def activePointerKey (dataset : Component) : Str :=
  lit "_data-eng-locks/current/" ++ dataset ++ lit ".json"

def immutableManifestKey (dataset : Component) (digest : Sha256Hex) : Str :=
  lit "_data-eng-locks/manifests/" ++ dataset ++ lit "/" ++ digest ++ lit ".json"

end Publication
