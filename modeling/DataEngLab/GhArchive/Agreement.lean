/-
The resolver, the DAG and the jobs agree on a publication.

The dataset that was resolved is written, read, written in another way and read again, put
into arguments and taken out of them, by three programs that each restate what an
identifier looks like and which objects a scale has.  `Agrees` is that nothing is lost on
the way, for any store: a job gets the URIs of the objects that were verified, in order,
with the scale, the plan, the publication and the manifest.

It holds where the registry keeps the dataset below the prefix that the DAG expects
(`agree`); the registry is free to keep it elsewhere, and then the DAG refuses what the
resolver returned (`relocated_disagrees`).
-/
import DataEngLab.GhArchive.Resolutions
import DataEngLab.Datasets.Publication.Resolved

namespace GhArchive

open Lib Registry
open Publication

namespace Dag

/-! ### The request -/

theorem scales_short {scale : Str} (h : scale ∈ scales) : ∃ names, expectedNames.get? scale = some names := by
  have hall : ∀ scale ∈ scales, (expectedNames.get? scale).isSome = true := by decide
  exact Option.isSome_iff_exists.mp (hall scale h)

theorem effectiveScale_mem {context : Context} {scale : Str} (h : effectiveScale context = .ok scale) :
    scale ∈ scales := by
  have hchecked : ∀ {asked : Str} {e : ValueError},
      (if asked ∈ scales then Except.ok asked else .error e) = .ok scale → scale ∈ scales := by
    intro asked e h
    split at h
    · rwa [← Except.ok.inj h]
    · cases h
  unfold effectiveScale at h
  split at h
  · exact hchecked h
  · exact hchecked h
  · exact hchecked h
  · cases h

def requestFields (scale : Str) : List (String × Json) :=
  [("dataset", .str datasetName), ("expected_scale", .str scale)]

theorem request_keys (scale : Str) : ((requestFields scale).map Prod.fst).Nodup := by
  simp [requestFields]

/-- The members of a request stand in order. -/
theorem sorted_request (scale : Str) : sortedMembers (request scale) = request scale := by
  have hle : lit "dataset" ≤ lit "expected_scale" := by decide
  have hpair : (request scale).Pairwise fun a b => a.1 ≤ b.1 := by
    simpa [request, members] using hle
  exact hpair.insertionSort_eq

theorem requested_request {registry : Dict Str Dataset} {ds : Dataset} {scale : Str}
    (hregistered : registry.get? datasetName = some ds) (hscale : scale ∈ scales) :
    requested registry (request scale) = .ok (datasetName, scale) := by
  have hexact : Json.hasExactly Publication.requestFields (request scale) = true := by
    rw [← sorted_request]
    exact hasExactly_sorted_members (request_keys scale)
  have hdataset : Json.get "dataset" (request scale) = some (.str datasetName) := get_members _ _
  have hasked : Json.get "expected_scale" (request scale) = some (.str scale) := get_members _ _
  have hname : isIdentifier datasetName = true := by decide
  have hcontains : Publication.scales.contains scale = true := List.contains_iff_mem.mpr hscale
  have hknown : (registry.get? datasetName).isSome = true := by rw [hregistered]; rfl
  simp only [requested, bind_eq_ok, requireFields, hexact, if_true, requireField, hdataset, hname, hasked, hcontains,
    require_eq_ok, pure_eq_ok]
  exact ⟨(), trivial, _, rfl, _, rfl, (), hknown, rfl⟩

/-- The resolver reads the request that the DAG wrote. -/
theorem serve_request (registry : Dict Str Dataset) {scale : Str} {names : List Str}
    (h : expectedNames.get? scale = some names) :
    ∃ data, dumps (.obj (request scale)) = some data ∧
      serve registry (asciiBytes data) = resolveRequest registry (request scale) := by
  have hplain : (Json.obj (request scale)).Plain := by
    refine plain_members (request_keys scale) ?_
    simp only [List.forall_mem_cons]
    exact ⟨joined_lit _, Str.joined_of_ascii (expectedNames_short h).1.2, by simp⟩
  have hdata : dumps (.obj (request scale)) = some (Json.obj (request scale)).sortKeys.print :=
    dumps_eq_some.mpr ⟨rfl, rfl⟩
  have hread := loadsBytes_dumps ⟨true, true⟩ hplain (show 1 ≤ nestingLimit by decide) hdata
  refine ⟨_, hdata, ?_⟩
  rw [serve, decodeRequest, hread, sortKeys_obj, sorted_request]
  rfl

/-! ### The answer -/

/-- What the DAG reads from a document, however often. -/
def resolutionFrom (r : ResolvedDataset) : Resolution :=
  ⟨r.objects.map fun o => o.uri, r.scale, r.planId, r.publicationId, r.manifestSha256⟩

section
variable {scale : Str} {r : ResolvedDataset}

theorem Expected.nesting_le (r : ResolvedDataset) : r.document.nesting ≤ nestingLimit :=
  (document_nesting r).trans (by decide)

/-- A payload that was stored is accepted. -/
theorem parseResolution_document {payload : Str} (h : Expected scale r) (hp : dumps r.document = some payload) :
    parseResolution (.str payload) scale = .ok (resolutionFrom r) := by
  have hencoded := utf8Encode_ascii (dumps_ascii h.plain hp)
  have hlength : (asciiBytes payload).length ≤ maxResolutionBytes := by
    have hwidth := h.width_le
    have hdumped := dumps_length_le hp
    rw [asciiBytes, List.length_map]
    omega
  have hread := loads_dumps ⟨true, true⟩ h.plain (Expected.nesting_le r) hp
  have hcanonical := dumps_sortKeys hp
  have hdocument := resolutionOf_document h
  rw [ResolvedDataset.document, sortKeys_obj] at hread hcanonical
  simp only [parseResolution, hread, bind_eq_ok, orElse_eq_ok, require_eq_ok, decide_eq_true_eq, pure_eq_ok]
  refine ⟨_, hencoded, (), hlength, _, hdocument, (), by rw [hcanonical, beq_self_eq_true], ?_⟩
  rw [resolutionFrom, h.asked]

/-- The first task stores what the later ones accept. -/
theorem resolveDataset_document {ε : Type} (urlopen : Bytes → Except ε Bytes) {data : Str} {body : Bytes}
    (h : Expected scale r) (hdata : dumps (.obj (request scale)) = some data)
    (hopen : urlopen (asciiBytes data) = .ok body) (hbody : canonicalJson r.document = some body) :
    ∃ payload, resolveDataset urlopen scale = .ok payload ∧
      parseResolution (.str payload) scale = .ok (resolutionFrom r) := by
  obtain ⟨hfit, -⟩ := canonicalJson_eq_some.mp hbody
  have hp : dumps r.document = some r.document.sortKeys.print := dumps_eq_some.mpr ⟨hfit, rfl⟩
  have hparsed := parseResolution_document h hp
  have hlength : body.length ≤ maxResolutionBytes := (canonicalJson_length_le hbody).trans h.width_le
  have hread := loadsBytes_canonicalJson ⟨true, true⟩ (Json.Plain.document h.plain) (Expected.nesting_le r) hbody
  refine ⟨_, ?_, hparsed⟩
  simp only [resolveDataset, bind_eq_ok, orElse_eq_ok, mapError_eq_ok, require_eq_ok, decide_eq_true_eq, pure_eq_ok]
  exact ⟨data, hdata, body, hopen, (), hlength, _, hread, _, dumps_sortKeys hp, _, hparsed, rfl⟩

end

/-! ### What is resolved -/

/-- A publication below the prefix of the DAG is one that the DAG expects. -/
theorem expected_of_matches {plan : ScalePlan} {manifest : ImmutableManifest} (digest : Sha256Hex)
    (hmatches : Matches manifest plan) (hname : plan.dataset.name = datasetName)
    (hlanding : plan.dataset.landingPrefix = lit "gh_archive")
    (hnames : expectedNames.get? plan.scale = some ((selectedOutputs plan).map fun o => o.objectName))
    (hschema : ∀ o ∈ selectedOutputs plan, o.schemaId = schemaId) :
    Expected plan.scale ⟨plan.dataset.name, plan.scale, manifest.planId, digest, manifest.publicationId,
      manifest.objects.map (resolvedObject landingBucket)⟩ := by
  obtain ⟨id, hid, huuid, -, -, hphysical⟩ := publicationPrefix_ok hmatches.publication
  obtain rfl : manifest.planId.1 = id := Except.ok.inj (hmatches.planId.symm.trans hid)
  have hstart : lit "s3://landing/gh_archive/_generations/" =
      lit "s3://" ++ landingBucket ++ lit "/" ++ lit "gh_archive" ++ lit "/_generations/" := by decide +kernel
  refine ⟨hname, rfl, manifest.planId.2, huuid, digest.2, ?_, ?_⟩
  · rw [hnames, List.map_map]
    congr 1
    rw [← List.forall₂_eq_eq_eq, List.forall₂_map_left_iff, List.forall₂_map_right_iff]
    exact hmatches.objects.flip.imp fun output item h => (expectedObject_ok h).1.objectName.symm
  · intro o ho
    obtain ⟨item, hitem, rfl⟩ := List.mem_map.mp ho
    obtain ⟨output, houtput, hexpected⟩ := exists_right_of_mem hmatches.objects hitem
    obtain ⟨hdescribes, hkey⟩ := expectedObject_ok hexpected
    refine ⟨item.sizeBytes.2, item.sha256.2, hdescribes.schemaId.trans (hschema output houtput), ?_⟩
    simp only [resolvedObject, Publication.objectUri, Dag.objectUri, hkey, hphysical, hlanding, hstart,
      hdescribes.objectName, List.append_assoc]

end Dag

/-! ### The three programs -/

/-- The dataset selects the objects that are expected of each scale, in order. -/
structure Selects (registry : Dict Str Dataset) (ds : Dataset) : Prop where
  registered : registry.get? Dag.datasetName = some ds
  /-- a registry that was loaded gives every dataset the name it is registered under -/
  named : ds.name = Dag.datasetName
  selects : ∀ scale names, Dag.expectedNames.get? scale = some names →
    ∃ plan, resolveScale ds scale = .ok plan ∧ (selectedOutputs plan).map (fun o => o.objectName) = names ∧
      ∀ o ∈ selectedOutputs plan, o.schemaId = Dag.schemaId

/-- A payload delivers a resolved dataset: each task that pulls it starts a job that finds the dataset in
its arguments. -/
def Delivers (payload scale : Str) (r : ResolvedDataset) : Prop :=
  ∀ context, Dag.effectiveScale context = .ok scale → ∃ args sources,
    Dag.applicationArgs (.str payload) context = .ok args ∧ GhArchiveSources.parse args = .ok sources ∧
      sources.canonicalUris = r.objects.map (fun o => o.uri) ∧
      sources.provenance = ⟨r.scale, r.planId, r.publicationId, r.manifestSha256⟩

/-- Whatever the store answers, what the resolver returns reaches the jobs. -/
def Agrees (registry : Dict Str Dataset) : Prop :=
  ∀ (W : Type) (answer : W → (e : Call) → Answer e × W) (w : W) (context : Dag.Context) (scale : Str) (body : Bytes),
    Dag.effectiveScale context = .ok scale →
    (Proc.run answer (resolveRequest registry (Dag.request scale)) w).1 = .ok body →
    ∃ resolved payload,
      (Proc.run answer (resolveActiveDataset registry Dag.datasetName scale landingBucket) w).1 = .ok resolved ∧
      canonicalJson resolved.document = some body ∧
      Dag.resolveTask (fun request => (Proc.run answer (serve registry request) w).1) context = .ok payload ∧
      Delivers payload scale resolved

/-- The scales of the jobs are the scales of the DAG. -/
theorem expectedNames_eq : GhArchiveSources.expectedNames = Dag.expectedNames := by decide +kernel

theorem delivers_of_expected {payload scale : Str} {r : ResolvedDataset} (h : Dag.Expected scale r)
    (hparsed : Dag.parseResolution (.str payload) scale = .ok (Dag.resolutionFrom r)) : Delivers payload scale r := by
  intro context hscale
  let provenance : GhArchiveSources.Provenance := ⟨scale, r.planId, r.publicationId, r.manifestSha256⟩
  let uris := r.objects.map fun o => o.uri
  refine ⟨uris ++ provenance.arguments, ⟨uris, uris.map GhArchiveSources.sparkUri, provenance⟩, ?_, ?_, rfl,
    by rw [h.asked]⟩
  · simp only [Dag.applicationArgs, bind_eq_ok, pure_eq_ok]
    refine ⟨scale, hscale, _, hparsed, ?_⟩
    rfl
  · refine GhArchiveSources.parse_eq_ok.mpr ⟨r.objects.map fun o => o.objectName,
      ⟨expectedNames_eq ▸ h.names, h.planId, h.publicationId, h.manifestSha256⟩, ?_, rfl, rfl⟩
    have huris : uris = (r.objects.map fun o => o.objectName).map (Dag.objectUri r.planId r.publicationId) := by
      rw [List.map_map]
      exact List.map_congr_left fun o ho => (h.objects o ho).2.2.2
    exact huris

/-- **Resolver, DAG and jobs agree**, where the dataset is kept below the prefix that the DAG expects; and a
job accepts no arguments whose URIs are of another generation than they name. -/
theorem agree {registry : Dict Str Dataset} {ds : Dataset} (h : Selects registry ds)
    (hlanding : ds.landingPrefix = lit "gh_archive") :
    Agrees registry ∧ ∀ args sources, GhArchiveSources.parse args = .ok sources →
      args = sources.canonicalUris ++ sources.provenance.arguments ∧
      ∀ uri ∈ sources.canonicalUris, ∃ name, GhArchiveSources.immutableUri uri =
        .ok (sources.provenance.planId, sources.provenance.publicationId, name) := by
  constructor
  · intro W answer w context scale body hscale hrun
    have hmem := Dag.effectiveScale_mem hscale
    obtain ⟨names, hnames⟩ := Dag.scales_short hmem
    obtain ⟨resolved, hresolved, hbody⟩ := resolveRequest_ok (Dag.requested_request h.registered hmem) hrun
    obtain ⟨l, hplays⟩ := run_plays answer (resolveActiveDataset registry Dag.datasetName scale landingBucket) w
    rw [show (Prog.run answer _ w).1 = _ from hresolved] at hplays
    obtain ⟨plan, manifest, digest, hplan, hmatches, rfl⟩ := resolveActiveDataset_matches hplays
    obtain ⟨selected, hselected, hselects, hschema⟩ := h.selects scale names hnames
    have hplan := mapError_eq_ok.mp hplan
    simp only [item, h.registered, bind_eq_ok, orElse_eq_ok, Option.some.injEq] at hplan
    obtain ⟨_, rfl, hplan⟩ := hplan
    obtain rfl : selected = plan := Except.ok.inj (hselected.symm.trans hplan)
    obtain ⟨rfl, rfl⟩ := resolveScale_fields hplan
    have hexpected := Dag.expected_of_matches digest hmatches h.named hlanding
      (hselects.symm ▸ hnames) hschema
    obtain ⟨data, hdata, hserve⟩ := Dag.serve_request registry hnames
    obtain ⟨payload, hpayload, hparsed⟩ := Dag.resolveDataset_document
      (fun request => (Proc.run answer (serve registry request) w).1) hexpected hdata (by rw [hserve]; exact hrun) hbody
    refine ⟨_, payload, hresolved, hbody, ?_, delivers_of_expected hexpected hparsed⟩
    rw [Dag.resolveTask, hscale]
    exact hpayload
  · intro args sources hparse
    obtain ⟨names, -, -, -, hargs⟩ := GhArchiveSources.parse_eq_ok.mp hparse
    exact ⟨hargs, GhArchiveSources.parse_generation hparse⟩

/-! ### A publication of one hour -/

/-- The objects all have this content. -/
def hourContent : Bytes := asciiBytes (lit "\x7b\x7d")

def contentSha256 : Str := lit "44136fa355b3678a1146ad16f7e8649e94fb4fc21fe77e8310c060f61caaff8a"

def hourName (hour : Nat) : Str := lit "2023-01-01-" ++ decDigits hour ++ lit ".json.gz"

def hourId (hour : Nat) : Str := lit "hour_2023_01_01_" ++ decDigits hour

def hourly (hour : Nat) : HttpArtifact :=
  ⟨hourId hour, lit "https://data.gharchive.org/" ++ hourName hour, ⟨lit "revision", lit "1"⟩, lit "mutable", .none,
    ⟨hourName hour, hourContent.length, contentSha256⟩,
    [⟨hourName hour, hourContent.length, contentSha256, Dag.schemaId, none, true⟩], none⟩

def hourIds : Dict Str Nat := (List.range 6).map fun hour => (hourId hour, hour)

def hourCounts : Dict Str Nat := [(lit "tiny", 1), (lit "small", 3), (lit "medium", 6)]

def consumedFields : SchemaContract :=
  ⟨Dag.schemaId, lit "jsonl-gzip", lit "minimum", [⟨lit "id", lit "string", false⟩, ⟨lit "type", lit "string", false⟩],
    [], contentSha256⟩

/-- The dataset, below a prefix. -/
def hourlyDataset (landingPrefix : Str) : Dataset :=
  ⟨Dag.datasetName, lit "GH Archive", lit "jsonl-gzip", lit "terms", landingPrefix, lit "http", false,
    hourCounts.map fun x => (x.1, .artifacts ((List.range x.2).map hourId)), none,
    [(Dag.schemaId, consumedFields)], hourIds.map fun x => (x.1, hourly x.2), none⟩

def hourlyRegistry (landingPrefix : Str) : Dict Str Dataset := [(Dag.datasetName, hourlyDataset landingPrefix)]

theorem selects_hourly (landingPrefix : Str) :
    Selects (hourlyRegistry landingPrefix) (hourlyDataset landingPrefix) := by
  refine ⟨by simp [hourlyRegistry, Dict.get?], rfl, fun scale names hnames => ?_⟩
  have hexpected : Dag.expectedNames = hourCounts.map fun x => (x.1, (List.range x.2).map hourName) := by
    decide +kernel
  have hids : ∀ hour < 6, hourIds.get? (hourId hour) = some hour := by decide +kernel
  have hcounts : ∀ x ∈ hourCounts, x.2 ≤ 6 := by decide
  rw [hexpected, Dict.get?_map_val (fun n => (List.range n).map hourName)] at hnames
  obtain ⟨n, hcount, hhours⟩ := Option.map_eq_some_iff.mp hnames
  have hn : n ≤ 6 := hcounts _ (Dict.mem_of_get? hcount)
  have hscale : item (hourlyDataset landingPrefix).scales scale = .ok (.artifacts ((List.range n).map hourId)) := by
    rw [item, hourlyDataset, Dict.get?_map_val (fun n => ScaleSpec.artifacts ((List.range n).map hourId)), hcount]
    rfl
  have hartifacts : checkAll (item (hourlyDataset landingPrefix).artifacts) ((List.range n).map hourId) =
      .ok ((List.range n).map hourly) := by
    rw [checkAll_eq_ok, List.forall₂_map_left_iff, List.forall₂_map_right_iff, List.forall₂_same]
    intro hour hhour
    rw [item, hourlyDataset, Dict.get?_map_val hourly, hids hour (by have := List.mem_range.mp hhour; omega)]
    rfl
  let artifacts := (List.range n).map hourly
  refine ⟨⟨hourlyDataset landingPrefix, scale, artifacts.map (·.url), none, artifacts, none⟩, ?_, ?_, ?_⟩
  · rw [resolveScale, hscale]
    show (checkAll (item (hourlyDataset landingPrefix).artifacts) ((List.range n).map hourId) >>= _) = _
    rw [hartifacts]
    rfl
  · rw [show names = _ from hhours.symm]
    simp [artifacts, selectedOutputs, hourly, ofLanding, List.map_eq_flatMap, List.flatMap_assoc]
  · simp [artifacts, selectedOutputs, hourly, ofLanding]

def hourPublication : Str := lit "0123456789ab4cde8f0123456789abcd"

/-- A store that holds one publication of the smallest scale. -/
structure Shelf where
  landingPrefix : Str
  planId : Str
  manifestSha256 : Str

def Shelf.manifest (s : Shelf) : Json :=
  let physical := s.landingPrefix ++ lit "/_generations/" ++ s.planId ++ lit "/" ++ hourPublication
  .obj (members [("dataset", .str Dag.datasetName), ("format_version", .int 1),
    ("objects", .arr [.obj (members [("object_name", .str (hourName 0)),
      ("key", .str (physical ++ lit "/" ++ hourName 0)), ("size_bytes", .int hourContent.length),
      ("sha256", .str contentSha256), ("schema_id", .str Dag.schemaId),
      ("schema_fingerprint", .str contentSha256)])]),
    ("physical_prefix", .str physical), ("plan_id", .str s.planId), ("previous_manifest_key", .null),
    ("previous_manifest_sha256", .null), ("publication_id", .str hourPublication),
    ("published_at", .str (lit "2026-08-11T00:00:00Z")), ("raw_registry_sha256", .str contentSha256),
    ("scale", .str (lit "tiny")), ("selected_plan_sha256", .str s.planId)])

def Shelf.manifestKey (s : Shelf) : Str :=
  lit "_data-eng-locks/manifests/" ++ Dag.datasetName ++ lit "/" ++ s.manifestSha256 ++ lit ".json"

def Shelf.pointer (s : Shelf) : Json :=
  .obj (members [("dataset", .str Dag.datasetName), ("format_version", .int 1),
    ("manifest_key", .str s.manifestKey), ("manifest_sha256", .str s.manifestSha256)])

/-- The bytes under a key. -/
def Shelf.get (s : Shelf) (key : Str) : Bytes :=
  if key = lit "_data-eng-locks/current/" ++ Dag.datasetName ++ lit ".json" then (canonicalJson s.pointer).getD []
  else if key = s.manifestKey then (canonicalJson s.manifest).getD []
  else hourContent

/-- The answers of the store; the state says whether the body that is read has been given out. -/
def Shelf.answer (s : Shelf) : Bool → (e : Call) → Answer e × Bool
  | _, .getObject _ => (.ok ⟨.date ⟨0, by decide⟩, some (lit "etag"), some [], .present true true⟩, false)
  | false, .read loc _ => (.bytes (s.get loc.key), true)
  | true, .read _ _ => (.bytes [], true)
  | given, .close _ => (none, given)
  | given, .utcNow => (⟨0, by decide⟩, given)
  | given, .openCapture => (none, given)
  | given, .closeCapture => (none, given)
  | given, .write chunk => (.count chunk.length, given)
  | given, .flush => (none, given)
  | given, .inspectSchema _ => (.ok (), given)

def tinyRun : Dag.Context := ⟨[(lit "dataset_scale", .str (lit "tiny"))], none⟩

/-- What the resolver answers over a shelf. -/
def Shelf.answered (s : Shelf) : Except ServiceExn Bytes :=
  (Proc.run s.answer (resolveRequest (hourlyRegistry s.landingPrefix) (Dag.request (lit "tiny"))) false).1

/-- What the first task of the DAG returns over a shelf. -/
def Shelf.stored (s : Shelf) : Except Dag.ValueError Str :=
  Dag.resolveTask (fun request => (Proc.run s.answer (serve (hourlyRegistry s.landingPrefix) request) false).1) tinyRun

/-- What is answered over a shelf reaches the jobs, if the three programs agree on its registry. -/
theorem Shelf.delivers_of_agrees (s : Shelf) (h : Agrees (hourlyRegistry s.landingPrefix))
    (hanswered : s.answered.toOption.isSome = true) :
    ∃ resolved payload, s.stored = .ok payload ∧ Delivers payload (lit "tiny") resolved := by
  have hscale : Dag.effectiveScale tinyRun = .ok (lit "tiny") := by decide +kernel
  cases hbody : s.answered with
  | error e =>
      rw [hbody] at hanswered
      cases hanswered
  | ok body =>
      obtain ⟨resolved, payload, -, -, hstored, hdelivers⟩ := h Bool s.answer false tinyRun _ body hscale hbody
      exact ⟨resolved, payload, hstored, hdelivers⟩

def expectedShelf : Shelf :=
  ⟨lit "gh_archive", lit "709d7e27def966cc35718a2b9fb8b411184f82388be88f32a4c4d82cd575cb36",
    lit "3aaae302ec005b17ce2dd7eab161170bcf06005f5fa437244ec36d0ab6a7ec92"⟩

/-- The same publication, below another prefix. -/
def relocatedShelf : Shelf :=
  ⟨lit "archive", lit "3e233752eb71bcfd2f5f038648ecfa253712fa91122d963a09ae3e129aaa89af",
    lit "848b27b56294cad486077ba2c57f1ba96313f73fa8bc907a9cc5ea53b90fe9c0"⟩

theorem agree_hourly : ∃ resolved payload, expectedShelf.stored = .ok payload ∧
    Delivers payload (lit "tiny") resolved := by
  have hanswered : expectedShelf.answered.toOption.isSome = true := by decide +kernel
  exact expectedShelf.delivers_of_agrees (agree (selects_hourly expectedShelf.landingPrefix) rfl).1 hanswered

/-- A registry may keep the dataset elsewhere; the resolver resolves it there, and the DAG refuses it. -/
theorem relocated_disagrees : ¬ ∀ registry ds, Selects registry ds → Agrees registry := by
  intro h
  have hrefused : relocatedShelf.answered.toOption.isSome = true ∧ relocatedShelf.stored.toOption = none := by
    decide +kernel
  obtain ⟨_, payload, hstored, -⟩ :=
    relocatedShelf.delivers_of_agrees (h _ _ (selects_hourly relocatedShelf.landingPrefix)) hrefused.1
  have hnone := hrefused.2
  rw [hstored] at hnone
  cases hnone

end GhArchive
