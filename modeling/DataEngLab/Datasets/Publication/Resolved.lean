/-
What a resolved dataset stands for.

Whatever the store answers, a call of `resolve_active_dataset` ends, and if it returns then
everything it returns was checked in that call: the pointer's digest is the digest of the
manifest's bytes, the manifest lists the outputs of the selected plan with the registry's
sizes, digests and schemas, and the bytes that arrived for each of its keys had that size and
that digest and passed the check of their schema.

The keys of one publication are distinct and lie outside the control namespace, so what was
read under a key is what was read for its object.
-/
import DataEngLab.Datasets.Publication.Reads
import DataEngLab.Lib.Tenure

namespace Publication

open Lib Registry
open Datasets (Location)

/-! ### Keys -/

theorem firstComponent_append (p rest : Str) : firstComponent (p ++ 47 :: rest) = firstComponent p := by
  induction p with
  | nil => simp [firstComponent]
  | cons c p ih =>
      by_cases hc : c = 47
      · simp [firstComponent, hc]
      · simpa [firstComponent, hc] using ih

section
variable {plan : ScalePlan} {publicationId publication : Str}

/-- A publication lies below the landing prefix, outside the control namespace. -/
theorem publicationPrefix_ok (h : publicationPrefix plan publicationId = .ok publication) :
    ∃ id, planId plan = .ok id ∧ Datasets.isUuid4Hex publicationId = true ∧
      isRelativePath plan.dataset.landingPrefix = true ∧
      firstComponent plan.dataset.landingPrefix ≠ controlNamespace ∧
      publication = plan.dataset.landingPrefix ++ lit "/_generations/" ++ id ++ lit "/" ++ publicationId := by
  simp only [publicationPrefix, requireUuid4Hex, requireRelativeKey, bind_eq_ok, requireText_eq_ok,
    require_eq_ok, bne_iff_ne, pure_eq_ok, Json.str.injEq] at h
  obtain ⟨identifier, hid, landing, hlanding, -, hcontrol, id, hplan, rfl⟩ := h
  rw [hlanding, hid]
  exact ⟨id, hplan, identifier.2, landing.2, hcontrol, rfl⟩

theorem publicationPrefix_control (h : publicationPrefix plan publicationId = .ok publication) (name : Str) :
    firstComponent (publication ++ lit "/" ++ name) ≠ controlNamespace := by
  obtain ⟨id, -, -, -, hcontrol, rfl⟩ := publicationPrefix_ok h
  have hslash : lit "/_generations/" = 47 :: lit "_generations/" := by decide
  rw [hslash]
  simp only [List.append_assoc, List.cons_append]
  rwa [firstComponent_append]

end

theorem activePointerKey_control (dataset : Component) :
    firstComponent (activePointerKey dataset) = controlNamespace := by
  have hsplit : lit "_data-eng-locks/current/" = lit "_data-eng-locks" ++ 47 :: lit "current/" := by
    decide
  rw [activePointerKey, hsplit]
  simp only [List.append_assoc, List.cons_append]
  rw [firstComponent_append]
  decide

theorem immutableManifestKey_control (dataset : Component) (digest : Sha256Hex) :
    firstComponent (immutableManifestKey dataset digest) = controlNamespace := by
  have hsplit : lit "_data-eng-locks/manifests/" = lit "_data-eng-locks" ++ 47 :: lit "manifests/" := by
    decide
  rw [immutableManifestKey, hsplit]
  simp only [List.append_assoc, List.cons_append]
  rw [firstComponent_append]
  decide

theorem pointer_ne_manifest (dataset dataset' : Component) (digest : Sha256Hex) :
    activePointerKey dataset ≠ immutableManifestKey dataset' digest := by
  have hpointer : lit "_data-eng-locks/current/" = lit "_data-eng-locks/" ++ 99 :: lit "urrent/" := by
    decide
  have hmanifest : lit "_data-eng-locks/manifests/" = lit "_data-eng-locks/" ++ 109 :: lit "anifests/" := by
    decide
  rw [activePointerKey, immutableManifestKey, hpointer, hmanifest]
  simp only [List.append_assoc, List.cons_append]
  intro h
  have := List.append_cancel_left h
  simp at this

/-! ### One object -/

/-- The file was found to have the schema of a contract when it held `content`. -/
def Inspected (l : Log) (contract : SchemaContract) (content : Bytes) : Prop :=
  ∃ before after, l = before ++ ⟨.inspectSchema contract, Except.ok ()⟩ :: after ∧ captured before = content

/-- An object's bytes, as they were read, are the ones the manifest locks, and have their schema. -/
structure Verified (plan : ScalePlan) (bucket : Str) (l : Log) (item : ManifestObject) : Prop where
  size : ((bytesRead ⟨bucket, item.key⟩ l).length : Int) = item.sizeBytes
  digest : sha256 (bytesRead ⟨bucket, item.key⟩ l) = item.sha256
  schema : ∃ contract, plan.dataset.schemas.get? item.schemaId = some contract ∧
    Inspected l contract (bytesRead ⟨bucket, item.key⟩ l)

def resolvedObject (bucket : Str) (item : ManifestObject) : ResolvedObject :=
  ⟨item.objectName, objectUri bucket item.key, item.sizeBytes, item.sha256, item.schemaId⟩

section
variable {plan : ScalePlan} {bucket : Str} {item : ManifestObject} {l : Log}

/-- Verifying reads one key, and inspects a file that it opened itself. -/
structure VerifiesIn (plan : ScalePlan) (bucket : Str) (item : ManifestObject) (l : Log) (b : Bytes) : Prop where
  here : bytesRead ⟨bucket, item.key⟩ l = b
  elsewhere : ∀ loc, loc ≠ ⟨bucket, item.key⟩ → bytesRead loc l = []
  size : (b.length : Int) = item.sizeBytes
  digest : sha256 b = item.sha256
  schema : ∃ contract opening before after, plan.dataset.schemas.get? item.schemaId = some contract ∧
    l = ⟨.openCapture, opening⟩ :: before ++ ⟨.inspectSchema contract, Except.ok ()⟩ :: after ∧
    captured before = b

theorem verifyResolvedObject_ok {o : ResolvedObject}
    (h : Plays (verifyResolvedObject plan bucket item) l (.ok o)) :
    o = resolvedObject bucket item ∧ ∃ b, VerifiesIn plan bucket item l b := by
  obtain ⟨l₁, l₂, u, rfl, hcapture, hreturn⟩ := plays_bind_ok.mp h
  obtain ⟨rfl, ho⟩ := plays_pure.mp hreturn
  refine ⟨Except.ok.inj ho, ?_⟩
  rw [List.append_nil]
  clear h hreturn ho
  -- what is raised inside is raised again, so the block itself has returned
  obtain ⟨u, hblock, -⟩ | ⟨l₃, l₄, e, rfl, -, hraised⟩ := plays_handle.mp hcapture
  swap
  · exact absurd (plays_throw.mp hraised).2 (by simp)
  clear hcapture
  obtain ⟨opening, l₃, rfl, hopened⟩ := plays_perform_bind.mp hblock
  obtain ⟨l₄, l₅, u, rfl, hopening, hrest⟩ := plays_bind_ok.mp hopened
  obtain ⟨l₆, l₇, result, rfl, hattempt, hclosing⟩ := plays_bind_ok.mp hrest
  obtain ⟨r, hr, hinside⟩ := plays_attempt.mp hattempt
  obtain rfl := Except.ok.inj hr
  obtain ⟨closing, l₈, rfl, hclosed⟩ := plays_perform_bind.mp hclosing
  obtain ⟨l₉, l₁₀, u, rfl, hraising, hlift⟩ := plays_bind_ok.mp hclosed
  obtain ⟨rfl, hok⟩ := plays_lift.mp hlift
  subst hok
  have hopeningMoves := Quiet.moves (raising_quiet opening) hopening ⟨bucket, item.key⟩
  have hclosingMoves := Quiet.moves (raising_quiet closing) hraising ⟨bucket, item.key⟩
  obtain ⟨l₁₁, l₁₂, x, rfl, hstream, hflush⟩ := plays_bind_ok.mp hinside
  obtain ⟨flushing, l₁₃, rfl, hflushed⟩ := plays_perform_bind.mp hflush
  obtain ⟨l₁₄, l₁₅, u, rfl, hflushing, hlookup⟩ := plays_bind_ok.mp hflushed
  obtain ⟨contract, hcontract, hinspect⟩ := (plays_lift_bind.mp hlookup).resolve_left (by simp)
  obtain ⟨passed, l₁₆, rfl, hpassed⟩ := plays_perform_bind.mp hinspect
  obtain ⟨rfl, hok⟩ := plays_lift.mp hpassed
  subst hok
  have hflushingMoves := Quiet.moves (raising_quiet flushing) hflushing ⟨bucket, item.key⟩
  obtain ⟨b, hmoves, hsize, hdigest⟩ := streamVerifyObject_moves hstream
  have hflushMoves : Moves ⟨bucket, item.key⟩ [⟨.flush, flushing⟩] [] [] :=
    quiet_moves _ (by simp [Quiet])
  have hbefore := ((hopeningMoves.after hmoves).before hflushMoves).before hflushingMoves
  have hend : Moves ⟨bucket, item.key⟩ (⟨.inspectSchema contract, Except.ok ()⟩ :: ⟨.closeCapture, closing⟩ :: l₉)
      [] [] := by
    have hinspected : Moves ⟨bucket, item.key⟩ [⟨.inspectSchema contract, Except.ok ()⟩, ⟨.closeCapture, closing⟩]
        [] [] := quiet_moves _ (by simp [Quiet])
    exact hinspected.after hclosingMoves
  have hall := hbefore.before hend
  refine ⟨b, ?_, ?_, hsize, hdigest, contract, opening, l₄ ++ l₁₁ ++ [⟨.flush, flushing⟩] ++ l₁₄,
    ⟨.closeCapture, closing⟩ :: l₉, orElse_eq_ok.mp hcontract, ?_, ?_⟩
  · simpa [bytesRead, eventBytes] using hall.here
  · intro loc hloc
    simpa [bytesRead, eventBytes] using hall.elsewhere loc hloc
  · simp
  · simpa [captured] using hbefore.file []

/-- In a log that reads nothing else under its key, an object that was verified in a part is verified. -/
theorem VerifiesIn.verified {b : Bytes} (h : VerifiesIn plan bucket item l b) (before after : Log)
    (hbefore : bytesRead ⟨bucket, item.key⟩ before = []) (hafter : bytesRead ⟨bucket, item.key⟩ after = []) :
    Verified plan bucket (before ++ l ++ after) item := by
  have hread : bytesRead ⟨bucket, item.key⟩ (before ++ l ++ after) = b := by
    rw [bytesRead_append, bytesRead_append, hbefore, hafter, h.here, List.nil_append, List.append_nil]
  obtain ⟨contract, opening, l₁, l₂, hcontract, rfl, hfile⟩ := h.schema
  refine ⟨by rw [hread]; exact h.size, by rw [hread]; exact h.digest, contract, hcontract,
    before ++ ⟨.openCapture, opening⟩ :: l₁, l₂ ++ after, by simp, ?_⟩
  rw [hread, ← hfile]
  -- the file that is inspected was opened after everything before
  simp [captured, captureStep]

end

/-! ### All objects -/

section
variable {plan : ScalePlan} {bucket : Str}

/-- Objects whose keys are distinct, verified one after the other, are all verified. -/
theorem forEach_verified : ∀ {items : List ManifestObject} {l : Log} {os : List ResolvedObject},
    (items.map fun item => item.key).Nodup →
    Plays (forEach (verifyResolvedObject plan bucket) items) l (.ok os) →
      os = items.map (resolvedObject bucket) ∧
      (∀ loc, (∀ item ∈ items, loc ≠ ⟨bucket, item.key⟩) → bytesRead loc l = []) ∧
      ∀ item ∈ items, ∀ before after : Log, bytesRead ⟨bucket, item.key⟩ before = [] →
        bytesRead ⟨bucket, item.key⟩ after = [] → Verified plan bucket (before ++ l ++ after) item := by
  intro items
  induction items with
  | nil =>
      intro l os _ h
      obtain ⟨rfl, ho⟩ := plays_pure.mp h
      exact ⟨Except.ok.inj ho, fun _ _ => rfl, fun item hitem => nomatch hitem⟩
  | cons first items ih =>
      intro l os hkeys h
      rw [List.map_cons, List.nodup_cons] at hkeys
      obtain ⟨hfresh, hkeys⟩ := hkeys
      obtain ⟨l₁, l₂, o, rfl, hfirst, hrest⟩ := plays_bind_ok.mp h
      obtain ⟨l₃, l₄, os', rfl, hitems, hreturn⟩ := plays_bind_ok.mp hrest
      obtain ⟨rfl, ho⟩ := plays_pure.mp hreturn
      obtain rfl := Except.ok.inj ho
      obtain ⟨rfl, b, hb⟩ := verifyResolvedObject_ok hfirst
      obtain ⟨rfl, hquiet, hverified⟩ := ih hkeys hitems
      rw [List.append_nil]
      refine ⟨rfl, fun loc hloc => ?_, fun item hitem before after hbefore hafter => ?_⟩
      · rw [bytesRead_append, hb.elsewhere loc (hloc first (by simp)),
          hquiet loc fun item hitem => hloc item (List.mem_cons_of_mem _ hitem), List.append_nil]
      · rcases List.mem_cons.mp hitem with rfl | hitem
        · have hothers : bytesRead ⟨bucket, item.key⟩ l₃ = [] := by
            refine hquiet _ fun other hother heq => hfresh ?_
            rw [Subtype.ext (Location.mk.inj heq).2]
            exact List.mem_map_of_mem hother
          have := hb.verified before (l₃ ++ after) hbefore
            (by rw [bytesRead_append, hothers, hafter, List.append_nil])
          simpa only [List.append_assoc] using this
        · have hown : bytesRead ⟨bucket, item.key⟩ l₁ = [] := by
            refine hb.elsewhere _ fun heq => hfresh ?_
            rw [← Subtype.ext (Location.mk.inj heq).2]
            exact List.mem_map_of_mem hitem
          have := hverified item hitem (before ++ l₁) after
            (by rw [bytesRead_append, hbefore, hown, List.append_nil]) hafter
          simpa only [List.append_assoc] using this

end

/-! ### The manifest and the plan -/

/-- A manifest's entry is the output, with what the registry says of it. -/
structure Describes (plan : ScalePlan) (item : ManifestObject) (output : Output) : Prop where
  objectName : item.objectName = output.objectName
  sizeBytes : item.sizeBytes = output.sizeBytes
  sha256 : item.sha256 = output.sha256
  schemaId : item.schemaId = output.schemaId
  fingerprint : ∃ contract, plan.dataset.schemas.get? output.schemaId = some contract ∧
    item.schemaFingerprint = contract.fingerprint

section
variable {plan : ScalePlan} {manifest : ImmutableManifest}

theorem expectedObject_ok {publication : Str} {output : Output} {item : ManifestObject}
    (h : expectedObject plan publication output = .ok item) :
    Describes plan item output ∧ item.key = publication ++ lit "/" ++ output.objectName := by
  simp only [expectedObject, makeManifestObject, schemaOf, requireRelativeKey, requireSha256, requireComponent,
    bind_eq_ok, orElse_eq_ok, requireText_eq_ok, requireSize_eq_ok, Json.str.injEq, Json.int.injEq,
    pure_eq_ok] at h
  obtain ⟨contract, hcontract, name, hname, key, hkey, size, hsize, sha, hsha, schemaId, hschema, fingerprint,
    hfingerprint, rfl⟩ := h
  exact ⟨⟨hname.symm, hsize.symm, hsha.symm, hschema.symm, contract, hcontract, hfingerprint.symm⟩, hkey.symm⟩

/-- What a manifest that passed says. -/
structure Matches (manifest : ImmutableManifest) (plan : ScalePlan) : Prop where
  dataset : manifest.dataset = plan.dataset.name
  scale : manifest.scale = plan.scale
  planId : planId plan = .ok manifest.planId
  publication : publicationPrefix plan manifest.publicationId = .ok manifest.physicalPrefix
  objects : List.Forall₂ (fun item output => expectedObject plan manifest.physicalPrefix output = .ok item)
    manifest.objects (selectedOutputs plan)

theorem validateObjects_ok {publication : Str} : ∀ {items : List ManifestObject} {outputs : List Output}
    {us : List Unit}, items.length = outputs.length →
    checkAll (validateObject plan publication) (items.zip outputs) = .ok us →
      List.Forall₂ (fun item output => expectedObject plan publication output = .ok item) items outputs := by
  intro items
  induction items with
  | nil =>
      intro outputs us hlength _
      rw [List.length_eq_zero_iff.mp hlength.symm]
      exact .nil
  | cons item items ih =>
      intro outputs us hlength h
      cases outputs with
      | nil => simp at hlength
      | cons output outputs =>
          simp only [List.zip_cons_cons, checkAll, bind_eq_ok, validateObject, require_eq_ok, beq_iff_eq] at h
          obtain ⟨u, ⟨expected, hexpected, rfl⟩, us', hrest, -⟩ := h
          exact .cons hexpected (ih (by simpa using hlength) hrest)

theorem validateManifestForPlan_ok {u : Unit} (h : validateManifestForPlan manifest plan = .ok u) :
    Matches manifest plan := by
  simp only [validateManifestForPlan, bind_eq_ok, require_eq_ok, beq_iff_eq] at h
  obtain ⟨id, hid, -, hdataset, -, hscale, -, hplan, publication, hpublication, -, hphysical, -, hnames, us,
    hobjects, -⟩ := h
  subst hphysical
  rw [← hplan] at hid
  refine ⟨hdataset, hscale, hid, hpublication, validateObjects_ok ?_ hobjects⟩
  simpa using congrArg List.length hnames

/-- Keys of one publication are distinct, as the names are. -/
theorem Matches.keys_nodup (h : Matches manifest plan) : (manifest.objects.map fun item => item.key).Nodup := by
  have hkeys : ∀ item ∈ manifest.objects, item.key = manifest.physicalPrefix.1 ++ lit "/" ++ item.objectName := by
    intro item hitem
    obtain ⟨output, -, hexpected⟩ := exists_right_of_mem h.objects hitem
    obtain ⟨hdescribes, hkey⟩ := expectedObject_ok hexpected
    rw [hkey, hdescribes.objectName]
  refine List.Nodup.of_map Subtype.val ?_
  rw [List.map_map, List.map_congr_left (g := (fun name : RelativeKey =>
    manifest.physicalPrefix.1 ++ lit "/" ++ name) ∘ fun item => item.objectName) hkeys, ← List.map_map]
  refine manifest.distinctNames.map fun a b hab => Subtype.ext ?_
  simpa using hab

end

/-! ### The whole call -/

section
variable {plan : ScalePlan} {bucket : Str} {l : Log}

/-- What a call that resolves a manifest found under the manifest's key. -/
structure ReadsManifest (plan : ScalePlan) (digest : Sha256Hex) (bucket : Str) (manifest : ImmutableManifest)
    (l : Log) : Prop where
  body : ∃ dataset : Component, dataset.1 = plan.dataset.name ∧
    ∃ bytes, Moves ⟨bucket, immutableManifestKey dataset digest⟩ l bytes [] ∧ sha256 bytes = digest ∧
      manifestOfBytes bytes = .ok manifest

theorem readManifest_ok {digest : Sha256Hex} {manifest : ImmutableManifest}
    (h : Plays (readManifest plan digest bucket) l (.ok manifest)) :
    ReadsManifest plan digest bucket manifest l := by
  obtain ⟨dataset, hdataset, hread⟩ := (plays_lift_bind.mp h).resolve_left (by simp)
  obtain ⟨l₁, l₂, snapshot, rfl, hsnapshot, hchecked⟩ := plays_bind_ok.mp hread
  obtain ⟨rfl, hmanifest⟩ := plays_lift.mp hchecked
  have hmanifest := mapError_eq_ok.mp hmanifest.symm
  simp only [checkedManifest, bind_eq_ok, require_eq_ok, beq_iff_eq] at hmanifest
  obtain ⟨-, hdigest, hmanifest⟩ := hmanifest
  rw [requireComponent, requireText_eq_ok, Json.str.injEq] at hdataset
  exact ⟨dataset, hdataset.symm, snapshot.body, .before (readControlObject_moves hsnapshot) .nil, hdigest,
    hmanifest⟩

end

/-- What a resolved dataset stands for, in the log of the call. -/
structure Resolution (registry : Dict Str Dataset) (datasetId scale bucket : Str) (l : Log)
    (resolved : ResolvedDataset) (plan : ScalePlan) (pointer : ActivePointer) (manifest : ImmutableManifest) :
    Prop where
  planned : planFor registry datasetId scale = .ok plan
  /-- the pointer that was read -/
  pointed : pointerOfBytes (bytesRead ⟨bucket, activePointerKey pointer.dataset⟩ l) = .ok pointer
  pointerDataset : pointer.dataset = datasetId
  digest : resolved.manifestSha256 = pointer.manifestSha256
  /-- the manifest that was read, under the key of its digest -/
  content : ∃ dataset : Component, dataset.1 = plan.dataset.name ∧
    sha256 (bytesRead ⟨bucket, immutableManifestKey dataset pointer.manifestSha256⟩ l) = resolved.manifestSha256 ∧
    manifestOfBytes (bytesRead ⟨bucket, immutableManifestKey dataset pointer.manifestSha256⟩ l) = .ok manifest
  /-- it is the registry's plan, output by output -/
  identified : planId plan = .ok manifest.planId
  outputs : List.Forall₂ (Describes plan) manifest.objects (selectedOutputs plan)
  fields : resolved.dataset = plan.dataset.name ∧ resolved.scale = plan.scale ∧
    resolved.planId = manifest.planId ∧ resolved.publicationId = manifest.publicationId
  objects : resolved.objects = manifest.objects.map (resolvedObject bucket)
  verified : ∀ item ∈ manifest.objects, Verified plan bucket l item

section
variable {registry : Dict Str Dataset} {datasetId scale bucket : Str} {l : Log} {resolved : ResolvedDataset}

theorem resolveActiveDataset_ok
    (h : Plays (resolveActiveDataset registry datasetId scale bucket) l (.ok resolved)) :
    ∃ plan pointer manifest, Resolution registry datasetId scale bucket l resolved plan pointer manifest := by
  obtain ⟨plan, hplan, hlookup⟩ := (plays_lift_bind.mp h).resolve_left (by simp)
  obtain ⟨dataset, hdataset, hread⟩ := (plays_lift_bind.mp hlookup).resolve_left (by simp)
  obtain ⟨l₁, l₂, snapshot, rfl, hsnapshot, hpointer⟩ := plays_bind_ok.mp hread
  obtain ⟨pointer, hdecoded, hsame⟩ := (plays_lift_bind.mp hpointer).resolve_left (by simp)
  have hdecoded := mapError_eq_ok.mp hdecoded
  rw [requireComponent, requireText_eq_ok, Json.str.injEq] at hdataset
  split at hsame
  · exact absurd (plays_throw.mp hsame).2 (by simp)
  rename_i hname
  have hname := not_not.mp hname
  obtain rfl : dataset = pointer.dataset := Subtype.ext (hdataset.symm.trans hname.symm)
  obtain ⟨l₃, l₄, ⟨resolved', manifest⟩, rfl, hdocument, hreturn⟩ := plays_bind_ok.mp hsame
  obtain ⟨rfl, hresolved⟩ := plays_pure.mp hreturn
  obtain rfl := Except.ok.inj hresolved
  obtain ⟨l₅, l₆, manifest', rfl, hmanifest, hvalidate⟩ := plays_bind_ok.mp hdocument
  obtain ⟨u, hvalid, hrest⟩ := (plays_lift_bind.mp hvalidate).resolve_left (by simp)
  obtain ⟨l₇, l₈, objects, rfl, hobjects, hpair⟩ := plays_bind_ok.mp hrest
  obtain ⟨rfl, hequal⟩ := plays_pure.mp hpair
  obtain ⟨rfl, rfl⟩ := Prod.mk.inj (Except.ok.inj hequal)
  have hmatches := validateManifestForPlan_ok hvalid
  obtain ⟨rfl, hquiet, hverified⟩ := forEach_verified hmatches.keys_nodup hobjects
  obtain ⟨component, hcomponent, bytes, hmoves, hdigest, hbytes⟩ := (readManifest_ok hmanifest).body
  have hpointerMoves := readControlObject_moves hsnapshot
  -- the keys of the objects lie outside the control namespace, where the two documents are
  have houtside : ∀ item ∈ manifest.objects, firstComponent item.key ≠ controlNamespace := by
    intro item hitem
    obtain ⟨output, -, hexpected⟩ := exists_right_of_mem hmatches.objects hitem
    rw [(expectedObject_ok hexpected).2]
    exact publicationPrefix_control hmatches.publication output.objectName
  have hnot : ∀ key, firstComponent key = controlNamespace →
      bytesRead ⟨bucket, key⟩ l₇ = [] := by
    intro key hkey
    refine hquiet _ fun item hitem heq => houtside item hitem ?_
    rw [← (Location.mk.inj heq).2, hkey]
  have hpointerRead : bytesRead ⟨bucket, activePointerKey pointer.dataset⟩ (l₁ ++ (l₅ ++ (l₇ ++ []) ++ [])) =
      snapshot.body := by
    simp only [bytesRead_append, List.append_nil]
    rw [hpointerMoves.here, hnot _ (activePointerKey_control _), hmoves.elsewhere _ ?_, List.append_nil,
      List.append_nil]
    exact fun heq => pointer_ne_manifest _ _ _ (Location.mk.inj heq).2
  have hmanifestRead : bytesRead ⟨bucket, immutableManifestKey component pointer.manifestSha256⟩
      (l₁ ++ (l₅ ++ (l₇ ++ []) ++ [])) = bytes := by
    simp only [bytesRead_append, List.append_nil]
    rw [hmoves.here, hnot _ (immutableManifestKey_control _ _), hpointerMoves.elsewhere _ ?_, List.nil_append,
      List.append_nil]
    exact fun heq => pointer_ne_manifest _ _ _ (Location.mk.inj heq).2.symm
  have hdescribes : List.Forall₂ (Describes plan) manifest.objects (selectedOutputs plan) :=
    hmatches.objects.imp fun _ _ h => (expectedObject_ok h).1
  refine ⟨plan, pointer, manifest, hplan, by rw [hpointerRead]; exact hdecoded, hname, rfl,
    ⟨component, hcomponent, by rw [hmanifestRead]; exact hdigest, by rw [hmanifestRead]; exact hbytes⟩,
    hmatches.planId, hdescribes, ⟨rfl, rfl, rfl, rfl⟩, rfl, fun item hitem => ?_⟩
  have hdocuments : bytesRead ⟨bucket, item.key⟩ (l₁ ++ l₅) = [] := by
    rw [bytesRead_append, hpointerMoves.elsewhere, hmoves.elsewhere, List.append_nil]
    · exact fun heq => houtside item hitem
        (by rw [(Location.mk.inj heq).2, immutableManifestKey_control])
    · exact fun heq => houtside item hitem (by rw [(Location.mk.inj heq).2, activePointerKey_control])
  simpa only [List.append_nil, List.append_assoc] using hverified item hitem (l₁ ++ l₅) [] hdocuments rfl

/-- What is returned is what a manifest that fits the plan says. -/
theorem resolveActiveDataset_matches
    (h : Plays (resolveActiveDataset registry datasetId scale bucket) l (.ok resolved)) :
    ∃ plan manifest, ∃ digest : Sha256Hex, planFor registry datasetId scale = .ok plan ∧ Matches manifest plan ∧
      resolved = ⟨plan.dataset.name, plan.scale, manifest.planId, digest, manifest.publicationId,
        manifest.objects.map (resolvedObject bucket)⟩ := by
  obtain ⟨plan, hplan, hlookup⟩ := (plays_lift_bind.mp h).resolve_left (by simp)
  obtain ⟨dataset, -, hread⟩ := (plays_lift_bind.mp hlookup).resolve_left (by simp)
  obtain ⟨l₁, l₂, snapshot, rfl, -, hpointer⟩ := plays_bind_ok.mp hread
  obtain ⟨pointer, -, hsame⟩ := (plays_lift_bind.mp hpointer).resolve_left (by simp)
  split at hsame
  · exact absurd (plays_throw.mp hsame).2 (by simp)
  obtain ⟨l₃, l₄, ⟨resolved', manifest⟩, rfl, hdocument, hreturn⟩ := plays_bind_ok.mp hsame
  obtain ⟨-, hresolved⟩ := plays_pure.mp hreturn
  obtain rfl := Except.ok.inj hresolved
  obtain ⟨l₅, l₆, manifest', rfl, -, hvalidate⟩ := plays_bind_ok.mp hdocument
  obtain ⟨u, hvalid, hrest⟩ := (plays_lift_bind.mp hvalidate).resolve_left (by simp)
  obtain ⟨l₇, l₈, objects, rfl, hobjects, hpair⟩ := plays_bind_ok.mp hrest
  obtain ⟨-, hequal⟩ := plays_pure.mp hpair
  obtain ⟨rfl, rfl⟩ := Prod.mk.inj (Except.ok.inj hequal)
  have hmatches := validateManifestForPlan_ok hvalid
  obtain ⟨rfl, -, -⟩ := forEach_verified hmatches.keys_nodup hobjects
  exact ⟨plan, manifest, pointer.manifestSha256, hplan, hmatches, rfl⟩

end

/-- **Resolving is sound.**  Against a store, a clock and a file system that answer anything, a call either
raises or has checked, in that very call, all that it returns. -/
theorem resolveActiveDataset_sound {W : Type} (answer : W → (e : Call) → Answer e × W) (w : W)
    (registry : Dict Str Dataset) (datasetId scale bucket : Str) :
    let run := record answer (resolveActiveDataset registry datasetId scale bucket) w
    (∃ e, run.2 = .error e) ∨ ∃ resolved plan pointer manifest, run.2 = .ok resolved ∧
      Resolution registry datasetId scale bucket run.1 resolved plan pointer manifest := by
  intro run
  have hplays := record_plays answer (resolveActiveDataset registry datasetId scale bucket) w
  rcases hresult : run.2 with e | resolved
  · exact .inl ⟨e, rfl⟩
  · rw [show (record answer _ w).2 = _ from hresult] at hplays
    obtain ⟨plan, pointer, manifest, h⟩ := resolveActiveDataset_ok hplays
    exact .inr ⟨resolved, plan, pointer, manifest, rfl, h⟩

end Publication
