/-
The datasets of the registry, as the code that uses them sees them.

A dataset lists its scales, and a scale either selects artifacts to download or says how to
generate the objects.  `resolveScale` makes the plan of one scale.
-/
import DataEngLab.Lib.Dynamic
import DataEngLab.Lib.Dict

namespace Registry

open Lib

structure Provenance where
  publisher : Str
  homepage : Str
  licenseName : Str
  licenseUrl : Str
  attribution : Str
  sourceStability : Str
  updatePolicy : Str

structure SchemaField where
  name : Str
  logicalType : Str
  nullable : Bool

structure SchemaContract where
  id : Str
  format : Str
  mode : Str
  fields : List SchemaField
  options : List (Value × Value)
  fingerprint : Str

structure SourceVersion where
  kind : Str
  value : Str

structure RawArtifact where
  name : Str
  sizeBytes : Int
  sha256 : Str

structure LandingObject where
  objectName : Str
  sizeBytes : Int
  sha256 : Str
  schemaId : Str
  memberPath : Option Str
  rawIdentity : Bool

structure HttpArtifact where
  id : Str
  url : Str
  version : SourceVersion
  stability : Str
  evidence : Value
  raw : RawArtifact
  outputs : List LandingObject
  provenance : Option Provenance

structure GeneratorEnvironment where
  image : Str
  imageDigest : Str
  platform : Str
  uvLockSha256 : Str
  locale : Str
  timezone : Str
  threads : Int
  preserveInsertionOrder : Bool

structure GeneratorOutput where
  table : Str
  objectName : Str
  sizeBytes : Int
  sha256 : Str
  schemaId : Str

/-- The factor is a float, given by its text. -/
structure GeneratorScale where
  name : Str
  scaleFactor : Str
  outputs : List GeneratorOutput

structure GeneratorContract where
  engineName : Str
  engineVersion : Str
  engineWheelSha256 : Str
  extensionName : Str
  extensionVersionRelation : Str
  extensionRepositoryUrl : Str
  extensionSha256 : Str
  environment : GeneratorEnvironment
  procedure : Str
  scaleParameter : Str
  exportFormat : Str
  compression : Str
  rowGroupSize : Int
  orderBy : Dict Str (List Str)
  scales : Dict Str GeneratorScale

/-- What a scale of a dataset is: the artifacts it selects, or how it is generated. -/
inductive ScaleSpec where
  | artifacts (ids : List Str)
  | generator (scale : GeneratorScale)

structure Dataset where
  name : Str
  description : Str
  format : Str
  license : Str
  landingPrefix : Str
  kind : Str
  unzip : Bool
  scales : Dict Str ScaleSpec
  provenance : Option Provenance
  schemas : Dict Str SchemaContract
  artifacts : Dict Str HttpArtifact
  generator : Option GeneratorContract

structure ScalePlan where
  dataset : Dataset
  scale : Str
  urls : List Str
  sf : Option Str
  artifacts : List HttpArtifact
  generatorScale : Option GeneratorScale

/-- What registry code raises. -/
inductive Raised where
  | keyError
  | typeError
  | valueError
deriving DecidableEq

/-- `d[k]` -/
def item {ν : Type} (d : Dict Str ν) (k : Str) : Except Raised ν := orElse (d.get? k) .keyError

def resolveScale (ds : Dataset) (scale : Str) : Except Raised ScalePlan := do
  match ← item ds.scales scale with
  | .generator spec => return ⟨ds, scale, [], some spec.scaleFactor, [], some spec⟩
  | .artifacts ids =>
      let artifacts ← checkAll (item ds.artifacts) ids
      return ⟨ds, scale, artifacts.map (·.url), none, artifacts, none⟩

section
variable {ds : Dataset} {scale : Str} {plan : ScalePlan}

theorem resolveScale_fields (h : resolveScale ds scale = .ok plan) :
    plan.dataset = ds ∧ plan.scale = scale := by
  simp only [resolveScale, bind_eq_ok] at h
  obtain ⟨spec, -, h⟩ := h
  cases spec with
  | generator spec => exact Except.ok.inj h ▸ ⟨rfl, rfl⟩
  | artifacts ids =>
      simp only [bind_eq_ok, pure_eq_ok] at h
      obtain ⟨artifacts, -, rfl⟩ := h
      exact ⟨rfl, rfl⟩

end

end Registry
