/-
The DAG between the resolver and the Spark jobs.

Its first task asks the resolver for one dataset and stores what it was told as a text of
its own; every later task reads that text again, strictly, and makes the arguments of its
job from it.

What the DAG asks of a document is `Expected` of the dataset it was made from: then the
document is accepted as often as it is read, and it says of the dataset what the dataset is.
-/
import DataEngLab.GhArchive.Sources
import DataEngLab.Datasets.Publication.Service
import DataEngLab.Lib.JsonWidth

namespace GhArchive

open Lib
open Publication (ResolvedObject ResolvedDataset)

namespace Dag

structure ValueError where
  message : String
deriving DecidableEq

def failed : ValueError := ⟨"dataset resolution failed"⟩

/-- `SCALES` -/
def scales : List Str := [lit "tiny", lit "small", lit "medium"]

/-- `EXPECTED_NAMES` -/
def expectedNames : Dict Str (List Str) :=
  [(lit "tiny", [lit "2023-01-01-0.json.gz"]),
    (lit "small", [lit "2023-01-01-0.json.gz", lit "2023-01-01-1.json.gz", lit "2023-01-01-2.json.gz"]),
    (lit "medium", (List.range 6).map fun hour => lit "2023-01-01-" ++ decDigits hour ++ lit ".json.gz")]

def datasetName : Str := lit "gh_archive"

/-- `SCHEMA_ID` -/
def schemaId : Str := lit "gh_archive_consumed_fields"

def objectFields : List String := ["object_name", "uri", "size_bytes", "sha256", "schema_id"]

def resultFields : List String := ["dataset", "scale", "plan_id", "manifest_sha256", "publication_id", "objects"]

def maxResolutionBytes : Nat := 1048576

def maxJsonDepth : Nat := 16

structure Resolution where
  uris : List Str
  scale : Str
  planId : Str
  publicationId : Str
  manifestSha256 : Str
deriving DecidableEq

/-! ### The scale of a run -/

/-- `dag_run.conf`, an empty one where there is none, and `DATASET_SCALE`. -/
structure Context where
  conf : List (Str × Json)
  environ : Option Str

/-- `_effective_scale` -/
def effectiveScale (context : Context) : Except ValueError Str :=
  let invalid := ValueError.mk "dataset scale must be one of: tiny, small, medium"
  let checked := fun scale => if scale ∈ scales then .ok scale else .error invalid
  match Json.get "dataset_scale" context.conf with
  | none | some .null => checked (context.environ.getD (lit "small"))
  | some (.str scale) => checked scale
  | some _ => .error invalid

/-! ### Reading a resolution -/

/-- A text that passes a test. -/
def textOf (test : Str → Bool) : Option Json → Except ValueError Str
  | some (.str s) => if test s then .ok s else .error failed
  | _ => .error failed

/-- An `int` that is positive, and no `bool`. -/
def isPositive : Option Json → Bool
  | some (.int n) => 0 < n
  | _ => false

/-- The name and the URI of an object. -/
def objectOf : Json → Except ValueError (Str × Str)
  | .obj kvs => do
      require (Json.hasExactly objectFields kvs) failed
      let name ← textOf (fun _ => true) (Json.get "object_name" kvs)
      require (isPositive (Json.get "size_bytes" kvs)) failed
      let _ ← textOf isSha256 (Json.get "sha256" kvs)
      let _ ← textOf (· == schemaId) (Json.get "schema_id" kvs)
      let uri ← textOf (fun _ => true) (Json.get "uri" kvs)
      return (name, uri)
  | _ => .error failed

def objectUri (plan publication name : Str) : Str :=
  lit "s3://landing/gh_archive/_generations/" ++ plan ++ lit "/" ++ publication ++ lit "/" ++ name

/-- The part of `_parse_resolution` that looks at the document. -/
def resolutionOf (kvs : List (Str × Json)) (expectedScale : Str) : Except ValueError Resolution := do
  require (Json.hasExactly resultFields kvs && decide ((Json.obj kvs).nesting ≤ maxJsonDepth)) failed
  let _ ← textOf (· == datasetName) (Json.get "dataset" kvs)
  let _ ← textOf (· == expectedScale) (Json.get "scale" kvs)
  let plan ← textOf isSha256 (Json.get "plan_id" kvs)
  let publication ← textOf Datasets.isUuid4Hex (Json.get "publication_id" kvs)
  let manifest ← textOf isSha256 (Json.get "manifest_sha256" kvs)
  let names ← orElse (expectedNames.get? expectedScale) failed
  match Json.get "objects" kvs with
  | some (.arr items) => do
      require (items.length == names.length) failed
      let objects ← checkAll objectOf items
      require (objects.map Prod.fst == names && decide (objects.map Prod.fst).Nodup) failed
      require (objects.all fun object => object.2 == objectUri plan publication object.1) failed
      return ⟨objects.map Prod.snd, expectedScale, plan, publication, manifest⟩
  | _ => throw failed

/-- `_parse_resolution`.  A document with a float is refused, whatever its text. -/
def parseResolution (payload : Json) (expectedScale : Str) : Except ValueError Resolution :=
  match payload with
  | .str text => do
      let body ← orElse (utf8Encode text) failed
      require (body.length ≤ maxResolutionBytes) failed
      match loads ⟨true, true⟩ text with
      | .ok (.obj kvs) => do
          let resolution ← resolutionOf kvs expectedScale
          require (dumps (.obj kvs) == some text) failed
          return resolution
      | _ => throw failed
  | _ => .error failed

/-! ### The tasks -/

/-- The members of the request for a scale. -/
def request (scale : Str) : List (Str × Json) :=
  members [("dataset", .str datasetName), ("expected_scale", .str scale)]

/-- `_resolve_dataset`; `urlopen` is the exchange with the resolver, body for body. -/
def resolveDataset {ε : Type} (urlopen : Bytes → Except ε Bytes) (scale : Str) : Except ValueError Str := do
  let data ← orElse (dumps (.obj (request scale))) failed
  let body ← (urlopen (asciiBytes data)).mapError fun _ => failed
  require (body.length ≤ maxResolutionBytes) failed
  let document ← (loadsBytes ⟨true, true⟩ body).mapError fun _ => failed
  let payload ← orElse (dumps document) failed
  let _ ← parseResolution (.str payload) scale
  return payload

/-- `_resolve_task`; its result is what the later tasks pull. -/
def resolveTask {ε : Type} (urlopen : Bytes → Except ε Bytes) (context : Context) : Except ValueError Str := do
  resolveDataset urlopen (← effectiveScale context)

/-- `AtlasResolvedSparkSubmitOperator.execute`, up to the submission. -/
def applicationArgs (payload : Json) (context : Context) : Except ValueError (List Str) := do
  let scale ← effectiveScale context
  let resolution ← parseResolution payload scale
  return resolution.uris ++ [lit "--dataset-scale", scale, lit "--plan-id", resolution.planId,
    lit "--publication-id", resolution.publicationId, lit "--manifest-sha256", resolution.manifestSha256]

/-! ### A document that was made of a dataset -/

/-- What the DAG expects of a resolved dataset at a scale. -/
structure Expected (scale : Str) (r : ResolvedDataset) : Prop where
  dataset : r.dataset = datasetName
  asked : r.scale = scale
  planId : isSha256 r.planId = true
  publicationId : Datasets.isUuid4Hex r.publicationId = true
  manifestSha256 : isSha256 r.manifestSha256 = true
  names : expectedNames.get? scale = some (r.objects.map fun o => o.objectName)
  objects : ∀ o ∈ r.objects, 0 < o.sizeBytes ∧ isSha256 o.sha256 = true ∧ o.schemaId = schemaId ∧
    o.uri = objectUri r.planId r.publicationId o.objectName

theorem textOf_some {test : Str → Bool} {s : Str} (h : test s = true) : textOf test (some (.str s)) = .ok s := by
  rw [textOf, if_pos h]

theorem objectOf_document {o : ResolvedObject} (hsize : 0 < o.sizeBytes) (hdigest : isSha256 o.sha256 = true)
    (hschema : o.schemaId = schemaId) : objectOf o.document.sortKeys = .ok (o.objectName, o.uri) := by
  have hn : (o.fields.map Prod.fst).Nodup := by simp [ResolvedObject.fields]
  have hexact : Json.hasExactly objectFields (sortedMembers (members o.fields)) = true := hasExactly_sorted_members hn
  have hget := get_sorted_members hn
  have hname : Json.get "object_name" (sortedMembers (members o.fields)) = some (.str o.objectName) := hget _
  have huri : Json.get "uri" (sortedMembers (members o.fields)) = some (.str o.uri) := hget _
  have hbytes : Json.get "size_bytes" (sortedMembers (members o.fields)) = some (.int o.sizeBytes) := hget _
  have hsha : Json.get "sha256" (sortedMembers (members o.fields)) = some (.str o.sha256) := hget _
  have hid : Json.get "schema_id" (sortedMembers (members o.fields)) = some (.str o.schemaId) := hget _
  rw [ResolvedObject.document, sortKeys_obj]
  simp only [objectOf, bind_eq_ok, require_eq_ok, pure_eq_ok, hname, huri, hbytes, hsha, hid]
  exact ⟨(), hexact, _, textOf_some rfl, (), by simpa [isPositive] using hsize, _, textOf_some hdigest, _,
    textOf_some (by rw [hschema, beq_self_eq_true]), _, textOf_some rfl, rfl⟩

/-- No name is there twice. -/
theorem expectedNames_nodup {scale : Str} {names : List Str} (h : expectedNames.get? scale = some names) :
    names.Nodup := by
  have hall : ∀ x ∈ expectedNames, x.2.Nodup := by decide
  exact hall _ (Dict.mem_of_get? h)

theorem document_nesting (r : ResolvedDataset) : r.document.nesting ≤ 3 := by
  have hobjects : nestingElems (r.objects.map ResolvedObject.document) ≤ 1 := by
    rw [nestingElems_le]
    intro v hv
    obtain ⟨o, -, rfl⟩ := List.mem_map.mp hv
    exact Nat.le_refl 1
  show max 0 (max 0 (max 0 (max 0 (max 0 (max (nestingElems _ + 1) 0))))) + 1 ≤ 3
  omega

/-- A document that was made of the dataset says what the dataset is. -/
theorem resolutionOf_document {scale : Str} {r : ResolvedDataset} (h : Expected scale r) :
    resolutionOf (sortedMembers (members r.fields)) scale =
      .ok ⟨r.objects.map fun o => o.uri, scale, r.planId, r.publicationId, r.manifestSha256⟩ := by
  have hn : (r.fields.map Prod.fst).Nodup := by simp [ResolvedDataset.fields]
  have hexact : Json.hasExactly resultFields (sortedMembers (members r.fields)) = true := hasExactly_sorted_members hn
  have hdepth : (Json.obj (sortedMembers (members r.fields))).nesting ≤ maxJsonDepth := by
    rw [← sortKeys_obj]
    exact nesting_sortKeys_le ((document_nesting r).trans (by decide))
  have hget := get_sorted_members hn
  have hdataset : Json.get "dataset" (sortedMembers (members r.fields)) = some (.str r.dataset) := hget _
  have hscale : Json.get "scale" (sortedMembers (members r.fields)) = some (.str r.scale) := hget _
  have hplan : Json.get "plan_id" (sortedMembers (members r.fields)) = some (.str r.planId) := hget _
  have hmanifest : Json.get "manifest_sha256" (sortedMembers (members r.fields)) = some (.str r.manifestSha256) :=
    hget _
  have hpublication : Json.get "publication_id" (sortedMembers (members r.fields)) = some (.str r.publicationId) :=
    hget _
  have hobjects : Json.get "objects" (sortedMembers (members r.fields)) =
      some (.arr (r.objects.map fun o => o.document.sortKeys)) := by
    rw [hget]
    show some (Json.arr _).sortKeys = _
    rw [sortKeys_arr, List.map_map]
    rfl
  have hchecked : checkAll objectOf (r.objects.map fun o => o.document.sortKeys) =
      .ok (r.objects.map fun o => (o.objectName, o.uri)) := by
    rw [checkAll_eq_ok, List.forall₂_map_left_iff, List.forall₂_map_right_iff, List.forall₂_same]
    intro o ho
    obtain ⟨hsize, hdigest, hschema, -⟩ := h.objects o ho
    exact objectOf_document hsize hdigest hschema
  simp only [resolutionOf, bind_eq_ok, require_eq_ok, orElse_eq_ok, hdataset, hscale, hplan, hmanifest, hpublication,
    hobjects, Bool.and_eq_true, decide_eq_true_eq, pure_eq_ok]
  refine ⟨(), ⟨hexact, hdepth⟩, _, textOf_some (by rw [h.dataset, beq_self_eq_true]), _,
    textOf_some (by rw [h.asked, beq_self_eq_true]), _, textOf_some h.planId, _, textOf_some h.publicationId, _,
    textOf_some h.manifestSha256, _, h.names, (), ?_, _, hchecked, (), ?_, (), ?_, ?_⟩
  · simp
  · simpa [List.map_map, Function.comp_def] using expectedNames_nodup h.names
  · simpa using fun o ho => (h.objects o ho).2.2.2
  · simp [List.map_map, Function.comp_def]

/-! ### How the document is written -/

theorem isSha256_ascii {s : Str} (h : isSha256 s = true) : ∀ c ∈ s, c < 128 :=
  (Pattern.ascii_times fun _ => isHex_lt).of_fullmatch h

theorem isUuid4Hex_ascii {s : Str} (h : Datasets.isUuid4Hex s = true) : ∀ c ∈ s, c < 128 := by
  have hex : ∀ n, (Pattern.times n isHex).Ascii := fun n => Pattern.ascii_times fun _ => isHex_lt
  refine Pattern.Ascii.of_fullmatch ?_ h
  refine (hex 12).append (.cons (fun a ha => ?_) ((hex 3).append (.cons (fun a ha => ?_) (hex 15))))
  · rw [beq_iff_eq] at ha
    omega
  · simp only [isVariant, Bool.or_eq_true, beq_iff_eq] at ha
    omega

/-- The scales and their names are short texts of ASCII. -/
theorem expectedNames_short {scale : Str} {names : List Str} (h : expectedNames.get? scale = some names) :
    (scale.length ≤ 6 ∧ ∀ c ∈ scale, c < 128) ∧ names.length ≤ 6 ∧
      ∀ name ∈ names, name.length ≤ 20 ∧ ∀ c ∈ name, c < 128 := by
  have hall : ∀ x ∈ expectedNames, (x.1.length ≤ 6 ∧ ∀ c ∈ x.1, c < 128) ∧ x.2.length ≤ 6 ∧
      ∀ name ∈ x.2, name.length ≤ 20 ∧ ∀ c ∈ name, c < 128 := by decide
  exact hall _ (Dict.mem_of_get? h)

theorem objectUri_ascii {plan publication name : Str} (hplan : isSha256 plan = true)
    (hpublication : Datasets.isUuid4Hex publication = true) (hname : ∀ c ∈ name, c < 128) :
    ∀ c ∈ objectUri plan publication name, c < 128 := by
  have hstart : ∀ c ∈ lit "s3://landing/gh_archive/_generations/", c < 128 := by decide
  have hslash : ∀ c ∈ lit "/", c < 128 := by decide
  intro c hc
  simp only [objectUri, List.mem_append] at hc
  rcases hc with ((((hc | hc) | hc) | hc) | hc) | hc
  · exact hstart c hc
  · exact isSha256_ascii hplan c hc
  · exact hslash c hc
  · exact isUuid4Hex_ascii hpublication c hc
  · exact hslash c hc
  · exact hname c hc

section
variable {scale : Str} {r : ResolvedDataset}

theorem Expected.name (h : Expected scale r) {o : ResolvedObject} (ho : o ∈ r.objects) :
    o.objectName.length ≤ 20 ∧ ∀ c ∈ o.objectName, c < 128 :=
  (expectedNames_short h.names).2.2 _ (List.mem_map_of_mem ho)

/-- Neither way of writing text loses a part of the document. -/
theorem Expected.plain (h : Expected scale r) : r.document.Plain := by
  have htext : ∀ {s : Str}, (∀ c ∈ s, c < 128) → (Json.str s).Plain := fun hs => Str.joined_of_ascii hs
  have hschema : (Json.str schemaId).Plain := joined_lit _
  have hobject : ∀ o ∈ r.objects, o.document.Plain := by
    intro o ho
    obtain ⟨-, hdigest, hid, huri⟩ := h.objects o ho
    refine plain_members (by simp [ResolvedObject.fields]) ?_
    simp only [ResolvedObject.fields, List.forall_mem_cons, hid, huri]
    exact ⟨htext (h.name ho).2, htext (objectUri_ascii h.planId h.publicationId (h.name ho).2), trivial,
      htext (isSha256_ascii hdigest), hschema, by simp⟩
  refine plain_members (by simp [ResolvedDataset.fields]) ?_
  simp only [ResolvedDataset.fields, List.forall_mem_cons, h.dataset, h.asked]
  refine ⟨joined_lit _, htext (expectedNames_short h.names).1.2, htext (isSha256_ascii h.planId),
    htext (isSha256_ascii h.manifestSha256), htext (isUuid4Hex_ascii h.publicationId), ?_, by simp⟩
  simpa [Json.Plain] using hobject

theorem objectUri_length (name : Str) {plan publication : Str} (hplan : isSha256 plan = true)
    (hpublication : Datasets.isUuid4Hex publication = true) :
    (objectUri plan publication name).length = name.length + 135 := by
  have hstart : (lit "s3://landing/gh_archive/_generations/").length = 37 := by decide
  have hp := isSha256_length hplan
  have hq := GhArchiveSources.isUuid4Hex_length hpublication
  have hslash : (lit "/").length = 1 := rfl
  simp only [objectUri, List.length_append, hstart, hp, hq, hslash]
  omega

/-- The resolver's answer is far below what the DAG is willing to read. -/
theorem Expected.width_le (h : Expected scale r) : 4 * r.document.width ≤ maxResolutionBytes := by
  have hlabels : (lit "object_name").length = 11 ∧ (lit "uri").length = 3 ∧ (lit "size_bytes").length = 10 ∧
      (lit "sha256").length = 6 ∧ (lit "schema_id").length = 9 ∧ schemaId.length = 26 := by decide
  have hobject : ∀ o ∈ r.objects, o.document.width + 1 ≤ 9000 := by
    intro o ho
    obtain ⟨-, hdigest, hid, huri⟩ := h.objects o ho
    have hname := (h.name ho).1
    have hlength := objectUri_length o.objectName h.planId h.publicationId
    have hsha := isSha256_length hdigest
    obtain ⟨h₁, h₂, h₃, h₄, h₅, h₆⟩ := hlabels
    simp only [ResolvedObject.document, ResolvedObject.fields, members, List.map_cons, List.map_nil, Json.width,
      widthMembers, hid, huri, hlength, hsha, h₁, h₂, h₃, h₄, h₅, h₆, intDigitLimit]
    omega
  have helems : widthElems (r.objects.map ResolvedObject.document) ≤ 6 * 9000 := by
    have hcount := (expectedNames_short h.names).2.1
    rw [List.length_map] at hcount
    rw [widthElems_eq, List.map_map]
    have hsum := List.sum_le_card_nsmul _ 9000 (List.forall_mem_map.mpr hobject)
    rw [List.length_map, nsmul_eq_mul, Nat.cast_id] at hsum
    exact hsum.trans (Nat.mul_le_mul_right _ hcount)
  have hlabels : (lit "dataset").length = 7 ∧ (lit "scale").length = 5 ∧ (lit "plan_id").length = 7 ∧
      (lit "manifest_sha256").length = 15 ∧ (lit "publication_id").length = 14 ∧ (lit "objects").length = 7 ∧
      datasetName.length = 10 := by decide
  have hscale := (expectedNames_short h.names).1.1
  have hplan := isSha256_length h.planId
  have hmanifest := isSha256_length h.manifestSha256
  have hpublication := GhArchiveSources.isUuid4Hex_length h.publicationId
  obtain ⟨h₁, h₂, h₃, h₄, h₅, h₆, h₇⟩ := hlabels
  simp only [ResolvedDataset.document, ResolvedDataset.fields, members, List.map_cons, List.map_nil, Json.width,
    widthMembers, h.dataset, h.asked, hplan, hmanifest, hpublication, h₁, h₂, h₃, h₄, h₅, h₆, h₇,
    maxResolutionBytes]
  omega

end

end Dag

end GhArchive
