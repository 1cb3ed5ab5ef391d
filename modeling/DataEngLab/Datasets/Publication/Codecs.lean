/-
The bytes of the control documents.

A document is written as canonical JSON and read back by readers that accept nothing but
the canonical bytes of a document with exactly the fields they ask for.  So writing and
reading are one relation between values and bytes: `manifest_codec` and `pointer_codec`.
Two byte strings are never read as one value, and the digest of a value that was read is
the digest of the bytes it was read from.

Not every value can be written.  A name may hold a lone surrogate, which the check of
paths lets pass and UTF-8 does not encode, and a size may have more digits than Python
prints: `Writable` is the condition.
-/
import DataEngLab.Lib.JsonCanonical
import DataEngLab.Datasets.Publication.Documents

namespace Publication

open Lib

/-! ### Writing -/

/-- `_format_instant` of an instant in UTC. -/
def formatInstant (t : Instant) : Str := formatUtc t

def ManifestObject.fields (o : ManifestObject) : List (String × Json) :=
  [("object_name", .str o.objectName), ("key", .str o.key), ("size_bytes", .int o.sizeBytes),
    ("sha256", .str o.sha256), ("schema_id", .str o.schemaId), ("schema_fingerprint", .str o.schemaFingerprint)]

/-- `ManifestObject.to_document` -/
def ManifestObject.toDocument (o : ManifestObject) : Json := .obj (members o.fields)

/-- A text, or `None`. -/
def nullable (s : Option Str) : Json := s.elim .null .str

def ImmutableManifest.fields (m : ImmutableManifest) : List (String × Json) :=
  [("dataset", .str m.dataset), ("format_version", .int 1), ("objects", .arr (m.objects.map (·.toDocument))),
    ("physical_prefix", .str m.physicalPrefix), ("plan_id", .str m.planId),
    ("previous_manifest_key", nullable m.previousKey),
    ("previous_manifest_sha256", nullable (m.previous.map Subtype.val)),
    ("publication_id", .str m.publicationId), ("published_at", .str (formatInstant m.publishedAt)),
    ("raw_registry_sha256", .str m.rawRegistrySha256), ("scale", .str m.scale),
    ("selected_plan_sha256", .str m.selectedPlanSha256)]

/-- `ImmutableManifest.to_document` -/
def ImmutableManifest.toDocument (m : ImmutableManifest) : Json := .obj (members m.fields)

/-- `ImmutableManifest.to_bytes` -/
def ImmutableManifest.toBytes (m : ImmutableManifest) : Except Exn Bytes :=
  orElse (canonicalJson m.toDocument) (.valueError "not encodable")

/-- `manifest_sha256` of a manifest; of bytes it is `sha256`. -/
def manifestSha256 (m : ImmutableManifest) : Except Exn Str := do
  let body ← m.toBytes
  return sha256 body

def ActivePointer.fields (p : ActivePointer) : List (String × Json) :=
  [("format_version", .int 1), ("dataset", .str p.dataset), ("manifest_key", .str p.manifestKey),
    ("manifest_sha256", .str p.manifestSha256)]

/-- `ActivePointer.to_document` -/
def ActivePointer.toDocument (p : ActivePointer) : Json := .obj (members p.fields)

/-- `ActivePointer.to_bytes` -/
def ActivePointer.toBytes (p : ActivePointer) : Except Exn Bytes :=
  orElse (canonicalJson p.toDocument) (.valueError "not encodable")

/-! ### Instants -/

theorem zuluAsOffset_formatUtc (t : Instant) : (formatUtc t).dropLast ++ lit "+00:00" = zuluAsOffset (formatUtc t) := by
  obtain ⟨y, mo, d, h, mi, s, -, -, -, -, -, -, -, htext⟩ := formatUtc_fields t
  rw [htext]
  simp only [List.append_assoc, List.cons_append, zuluAsOffset_digits, zuluAsOffset_cons (show 45 ≠ 90 by decide),
    zuluAsOffset_cons (show 84 ≠ 90 by decide), zuluAsOffset_cons (show 58 ≠ 90 by decide)]
  rfl

theorem instantPattern_formatInstant (t : Instant) : instantPattern.fullmatch (formatInstant t) = true := by
  obtain ⟨y, mo, d, h, mi, s, -, -, -, -, -, -, -, htext⟩ := formatUtc_fields t
  have hdigit : ∀ k, isDigit (48 + k % 10) = true := by
    intro k
    simp only [isDigit, Bool.and_eq_true, decide_eq_true_eq]
    omega
  rw [formatInstant, htext]
  simp only [padDigits, List.nil_append, List.cons_append, instantPattern, Pattern.times, List.replicate,
    Pattern.fullmatch, hdigit, beq_self_eq_true, Bool.and_self]

/-- The one text of an instant. -/
theorem parseInstant_eq_ok {value : Json} {t : Instant} :
    parseInstant value = .ok t ↔ value = .str (formatInstant t) := by
  unfold parseInstant
  constructor
  · intro h
    simp only [bind_eq_ok, requireText_eq_ok] at h
    obtain ⟨text, rfl, h⟩ := h
    split at h
    · cases h
    · simp only [bind_eq_ok, require_eq_ok, pure_eq_ok, beq_iff_eq] at h
      obtain ⟨_, -, _, htext, rfl⟩ := h
      rw [formatInstant, htext]
  · rintro rfl
    simp only [bind_eq_ok, requireText_eq_ok]
    refine ⟨⟨formatInstant t, instantPattern_formatInstant t⟩, rfl, ?_⟩
    simp only [formatInstant, zuluAsOffset_formatUtc, fromIsoFormat_formatUtc]
    simp only [bind_eq_ok, require_eq_ok, pure_eq_ok, Instant.moment_instant, Instant.moment_micros,
      Nat.mul_mod_left, beq_self_eq_true, and_true, exists_const]

/-! ### Decoding -/

/-- A mapping that was decoded, and the bytes it was decoded from. -/
theorem decodeCanonicalMapping_eq_ok {body : Bytes} {label : String} {kvs : List (Str × Json)} :
    decodeCanonicalMapping body label = .ok kvs ↔
      loadsBytes ⟨false, true⟩ body = .ok (.obj kvs) ∧ canonicalJson (.obj kvs) = some body := by
  unfold decodeCanonicalMapping
  constructor
  · intro h
    split at h
    · cases h
    · rename_i hload
      split at h
      · cases h
      · rename_i hcanonical
        split at h
        · rename_i heq
          cases h
          exact ⟨hload, heq ▸ hcanonical⟩
        · cases h
    · cases h
  · rintro ⟨hload, hcanonical⟩
    rw [hload]
    simp only [hcanonical, if_true]

/-- A mapping with exactly the fields of a document, each as the document has it, sorts like it. -/
theorem sortKeys_of_fields {fs : List (String × Json)} {kvs : List (Str × Json)} (hn : (fs.map Prod.fst).Nodup)
    (hexact : Json.hasExactly (fs.map Prod.fst) kvs = true)
    (hfields : ∀ f ∈ fs, (field kvs f.1).sortKeys = f.2.sortKeys) :
    (Json.obj kvs).sortKeys = (Json.obj (members fs)).sortKeys := by
  rw [sortKeys_of_hasExactly hn hexact]
  refine sortKeys_members_congr ?_
  rw [List.map_map, List.map_map]
  exact List.map_congr_left fun f hf => congrArg (Prod.mk f.1) (hfields f hf)

/-- The fields of a document that was written and read. -/
theorem field_sortedMembers {fs : List (String × Json)} (hn : (fs.map Prod.fst).Nodup) :
    ∀ f ∈ fs, field (sortedMembers (members fs)) f.1 = f.2.sortKeys := by
  intro f hf
  have hget : Json.get f.1 (members fs) = some f.2 :=
    get_of_mem (members_keys_nodup hn) (List.mem_map.mpr ⟨f, hf, rfl⟩)
  rw [field, get_sortedMembers (members_keys_nodup hn), hget]
  rfl

@[simp] theorem isFormatVersion_iff {value : Json} : isFormatVersion value = true ↔ value = .int 1 := by
  unfold isFormatVersion
  split
  · simp only [beq_iff_eq, Json.int.injEq]
  · rename_i hne
    exact ⟨fun h => absurd h Bool.false_ne_true, fun h => absurd h (hne 1)⟩

/-! ### The objects of a manifest -/

section
variable (o : ManifestObject)

theorem ManifestObject.fields_nodup : (o.fields.map Prod.fst).Nodup := by
  simp only [ManifestObject.fields, List.map_cons, List.map_nil]
  decide

/-- The fields of an object are texts and a number. -/
theorem ManifestObject.fields_atoms : ∀ f ∈ o.fields, f.2.sortKeys = f.2 := by
  intro f hf
  simp only [ManifestObject.fields, List.mem_cons, List.not_mem_nil, or_false] at hf
  rcases hf with rfl | rfl | rfl | rfl | rfl | rfl <;> rfl

theorem ManifestObject.toDocument_document : o.toDocument.Document := by
  simp only [ManifestObject.toDocument, Json.Document, documentMembers_iff]
  refine ⟨members_keys_nodup o.fields_nodup, fun kv hkv => ?_⟩
  obtain ⟨f, hf, rfl⟩ := List.mem_map.mp hkv
  simp only [ManifestObject.fields, List.mem_cons, List.not_mem_nil, or_false] at hf
  rcases hf with rfl | rfl | rfl | rfl | rfl | rfl <;> trivial

end

/-- An object is read of a mapping that has exactly its fields. -/
theorem manifestObjectOf_eq_ok {value : Json} {o : ManifestObject} : manifestObjectOf value = .ok o ↔
    ∃ kvs, value = .obj kvs ∧ Json.hasExactly manifestObjectFields kvs = true ∧
      ∀ f ∈ o.fields, field kvs f.1 = f.2 := by
  simp only [ManifestObject.fields, List.forall_mem_cons, List.not_mem_nil, false_implies, implies_true, and_true]
  constructor
  · intro h
    unfold manifestObjectOf at h
    split at h
    · rename_i kvs
      simp only [makeManifestObject, requireRelativeKey, requireSha256, requireComponent, bind_eq_ok, require_eq_ok,
        requireText_eq_ok, requireSize_eq_ok, pure_eq_ok] at h
      obtain ⟨_, hexact, name, hname, key, hkey, size, hsize, digest, hdigest, id, hid, print, hprint, rfl⟩ := h
      exact ⟨kvs, rfl, hexact, hname, hkey, hsize, hdigest, hid, hprint⟩
    · cases h
  · rintro ⟨kvs, rfl, hexact, hname, hkey, hsize, hdigest, hid, hprint⟩
    simp only [manifestObjectOf, makeManifestObject, requireRelativeKey, requireSha256, requireComponent, bind_eq_ok,
      require_eq_ok, requireText_eq_ok, requireSize_eq_ok, pure_eq_ok]
    exact ⟨(), hexact, o.objectName, hname, o.key, hkey, o.sizeBytes, hsize, o.sha256, hdigest, o.schemaId, hid,
      o.schemaFingerprint, hprint, rfl⟩

/-- The document of an object is read back, sorted. -/
theorem manifestObjectOf_toDocument (o : ManifestObject) : manifestObjectOf o.toDocument.sortKeys = .ok o := by
  rw [ManifestObject.toDocument, sortKeys_obj]
  refine manifestObjectOf_eq_ok.mpr ⟨_, rfl, hasExactly_sorted_members o.fields_nodup, fun f hf => ?_⟩
  rw [field_sortedMembers o.fields_nodup f hf, o.fields_atoms f hf]

theorem sortKeys_of_manifestObject {value : Json} {o : ManifestObject} (h : manifestObjectOf value = .ok o) :
    value.sortKeys = o.toDocument.sortKeys := by
  obtain ⟨kvs, rfl, hexact, hfields⟩ := manifestObjectOf_eq_ok.mp h
  exact sortKeys_of_fields o.fields_nodup hexact fun f hf => congrArg Json.sortKeys (hfields f hf)

/-! ### Manifests -/

section
variable (m : ImmutableManifest)

theorem ImmutableManifest.fields_nodup : (m.fields.map Prod.fst).Nodup := by
  simp only [ImmutableManifest.fields, List.map_cons, List.map_nil]
  decide

theorem ImmutableManifest.objects_mem : ("objects", .arr (m.objects.map (·.toDocument))) ∈ m.fields :=
  List.mem_cons_of_mem _ (List.mem_cons_of_mem _ List.mem_cons_self)

/-- All fields but the objects are texts, numbers or absent. -/
theorem ImmutableManifest.forall_fields {P : Json → Prop} (hnull : P .null) (hint : ∀ n, P (.int n))
    (hstr : ∀ s, P (.str s)) (hobjects : P (.arr (m.objects.map (·.toDocument)))) : ∀ f ∈ m.fields, P f.2 := by
  have hnullable : ∀ s : Option Str, P (nullable s) := fun s => by
    cases s with
    | none => exact hnull
    | some s => exact hstr s
  intro f hf
  simp only [ImmutableManifest.fields, List.mem_cons, List.not_mem_nil, or_false] at hf
  rcases hf with rfl | rfl | rfl | rfl | rfl | rfl | rfl | rfl | rfl | rfl | rfl | rfl <;>
    first | exact hstr _ | exact hint _ | exact hnullable _ | exact hobjects

theorem ImmutableManifest.toDocument_document : m.toDocument.Document := by
  have hobjects : (Json.arr (m.objects.map (·.toDocument))).Document := by
    simp only [Json.Document, documentElems_iff, List.mem_map, forall_exists_index, and_imp, forall_apply_eq_imp_iff₂]
    exact fun o _ => o.toDocument_document
  simp only [ImmutableManifest.toDocument, Json.Document, documentMembers_iff]
  refine ⟨members_keys_nodup m.fields_nodup, fun kv hkv => ?_⟩
  obtain ⟨f, hf, rfl⟩ := List.mem_map.mp hkv
  exact m.forall_fields trivial (fun _ => trivial) (fun _ => trivial) hobjects f hf

theorem ImmutableManifest.toDocument_nesting : m.toDocument.nesting ≤ nestingLimit := by
  have hobject : ∀ o : ManifestObject, o.toDocument.nesting ≤ 1 := fun o => by
    simp [ManifestObject.toDocument, ManifestObject.fields, members, Json.nesting, nestingMembers]
  have hobjects : (Json.arr (m.objects.map (·.toDocument))).nesting ≤ 2 := by
    simp only [Json.nesting, Nat.reduceLeDiff, nestingElems_le, List.mem_map, forall_exists_index, and_imp,
      forall_apply_eq_imp_iff₂]
    exact fun o _ => hobject o
  have hmembers : nestingMembers (members m.fields) ≤ 2 := by
    rw [nestingMembers_le]
    intro kv hkv
    obtain ⟨f, hf, rfl⟩ := List.mem_map.mp hkv
    exact m.forall_fields (P := fun v => v.nesting ≤ 2) (Nat.zero_le 2) (fun _ => Nat.zero_le 2)
      (fun _ => Nat.zero_le 2) hobjects f hf
  rw [ImmutableManifest.toDocument, Json.nesting]
  exact (Nat.succ_le_succ hmembers).trans (by decide)

end

/-- The two fields about the manifest before are those of its digest. -/
theorem previousOf_eq_ok {dataset : Component} {key digest : Json} {previous : Option Sha256Hex} :
    previousOf dataset key digest = .ok previous ↔
      key = nullable (previous.map (immutableManifestKey dataset)) ∧
        digest = nullable (previous.map Subtype.val) := by
  unfold previousOf
  constructor
  · intro h
    split at h
    · cases h
      exact ⟨rfl, rfl⟩
    · cases h
    · cases h
    · simp only [requireSha256, bind_eq_ok, requireText_eq_ok] at h
      obtain ⟨digest, rfl, h⟩ := h
      split at h
      · simp only [bind_eq_ok, require_eq_ok, pure_eq_ok, beq_iff_eq] at h
        obtain ⟨_, rfl, rfl⟩ := h
        exact ⟨rfl, rfl⟩
      · cases h
  · rintro ⟨rfl, rfl⟩
    cases previous with
    | none => rfl
    | some digest =>
        simp [nullable, requireSha256]

/-- A manifest is read of the canonical bytes of a mapping that has exactly its fields. -/
theorem manifestOfBytes_eq_ok {body : Bytes} {m : ImmutableManifest} : manifestOfBytes body = .ok m ↔
    ∃ kvs items, loadsBytes ⟨false, true⟩ body = .ok (.obj kvs) ∧ canonicalJson (.obj kvs) = some body ∧
      Json.hasExactly manifestFields kvs = true ∧ field kvs "objects" = .arr items ∧
      List.Forall₂ (fun item o => manifestObjectOf item = .ok o) items m.objects ∧
      ∀ f ∈ m.fields, f.1 ≠ "objects" → field kvs f.1 = f.2 := by
  simp only [ImmutableManifest.fields, List.forall_mem_cons, List.not_mem_nil, false_implies, implies_true, and_true,
    ne_eq, String.reduceEq, not_false_eq_true, not_true_eq_false, forall_const, true_and]
  constructor
  · intro h
    simp only [manifestOfBytes, bind_eq_ok, require_eq_ok, decodeCanonicalMapping_eq_ok] at h
    obtain ⟨kvs, ⟨hload, hcanonical⟩, _, hexact, h⟩ := h
    split at h
    · rename_i items hitems
      simp only [makeManifest, requireComponent, requireSha256, requireUuid4Hex, requireRelativeKey, bind_eq_ok,
        require_eq_ok, requireText_eq_ok, isFormatVersion_iff, checkAll_eq_ok, parseInstant_eq_ok, previousOf_eq_ok,
        pure_eq_ok] at h
      obtain ⟨objects, hobjects, instant, hinstant, _, hversion, dataset, hdataset, scale, hscale, raw, hraw, selected,
        hselected, plan, hplan, _, -, publication, hpublication, physical, hphysical, _, -, previous,
        ⟨hkey, hdigest⟩, rfl⟩ := h
      exact ⟨kvs, items, hload, hcanonical, hexact, hitems, hobjects, hdataset, hversion, hphysical, hplan, hkey,
        hdigest, hpublication, hinstant, hraw, hscale, hselected⟩
    · cases h
  · rintro ⟨kvs, items, hload, hcanonical, hexact, hitems, hobjects, hdataset, hversion, hphysical, hplan, hkey,
        hdigest, hpublication, hinstant, hraw, hscale, hselected⟩
    simp only [manifestOfBytes, bind_eq_ok, require_eq_ok, decodeCanonicalMapping_eq_ok]
    refine ⟨kvs, ⟨hload, hcanonical⟩, (), hexact, ?_⟩
    rw [hitems]
    simp only [makeManifest, requireComponent, requireSha256, requireUuid4Hex, requireRelativeKey, bind_eq_ok,
      require_eq_ok, requireText_eq_ok, isFormatVersion_iff, checkAll_eq_ok, parseInstant_eq_ok, previousOf_eq_ok,
      pure_eq_ok]
    refine ⟨m.objects, hobjects, m.publishedAt, hinstant, (), hversion, m.dataset, hdataset, m.scale, hscale,
      m.rawRegistrySha256, hraw, m.selectedPlanSha256, hselected, m.planId, hplan, ⟨m.selected⟩, ?_, m.publicationId,
      hpublication, m.physicalPrefix, hphysical, ⟨m.nonempty, m.distinctNames⟩, ?_, m.previous, ⟨hkey, hdigest⟩, rfl⟩
    · rw [requireEqual, dif_pos m.selected]
    · rw [requireObjects, dif_pos m.nonempty, dif_pos m.distinctNames]

theorem ImmutableManifest.toBytes_eq_ok {m : ImmutableManifest} {body : Bytes} :
    m.toBytes = .ok body ↔ canonicalJson m.toDocument = some body := orElse_eq_ok

/-- Sorting keeps the fields, but for those of the objects. -/
theorem ImmutableManifest.fields_sortKeys (m : ImmutableManifest) :
    ∀ f ∈ m.fields, f.1 ≠ "objects" → f.2.sortKeys = f.2 := by
  have hnullable : ∀ s : Option Str, (nullable s).sortKeys = nullable s := fun s => by cases s <;> rfl
  simp only [ImmutableManifest.fields, List.forall_mem_cons, List.not_mem_nil, false_implies, implies_true, ne_eq,
    String.reduceEq, not_false_eq_true, not_true_eq_false, hnullable, Json.sortKeys, and_self]

/-- What is written of a manifest is read as that manifest. -/
theorem manifestOfBytes_toBytes {m : ImmutableManifest} {body : Bytes} (h : m.toBytes = .ok body) :
    manifestOfBytes body = .ok m := by
  have hcanonical := ImmutableManifest.toBytes_eq_ok.mp h
  have hload := loadsBytes_canonicalJson ⟨false, true⟩ m.toDocument_document m.toDocument_nesting hcanonical
  have hsorted := canonicalJson_sortKeys hcanonical
  have hfields := field_sortedMembers m.fields_nodup
  rw [ImmutableManifest.toDocument, sortKeys_obj] at hload hsorted
  refine manifestOfBytes_eq_ok.mpr ⟨_, (m.objects.map (·.toDocument)).map Json.sortKeys, hload, hsorted,
    hasExactly_sorted_members m.fields_nodup, ?_, ?_, fun f hf hne => ?_⟩
  · rw [hfields _ m.objects_mem, sortKeys_arr]
  · rw [List.map_map, List.forall₂_map_left_iff]
    exact List.forall₂_same.mpr fun o _ => manifestObjectOf_toDocument o
  · rw [hfields f hf, m.fields_sortKeys f hf hne]

/-- A manifest is written as the bytes it was read from. -/
theorem toBytes_manifestOfBytes {m : ImmutableManifest} {body : Bytes} (h : manifestOfBytes body = .ok m) :
    m.toBytes = .ok body := by
  obtain ⟨kvs, items, -, hcanonical, hexact, hitems, hobjects, hfields⟩ := manifestOfBytes_eq_ok.mp h
  have hitemsSorted : (Json.arr items).sortKeys = (Json.arr (m.objects.map (·.toDocument))).sortKeys := by
    rw [sortKeys_arr, sortKeys_arr, List.map_map]
    refine congrArg Json.arr (List.forall₂_eq_eq_eq ▸ ?_)
    rw [List.forall₂_map_left_iff, List.forall₂_map_right_iff]
    exact hobjects.imp fun item o => sortKeys_of_manifestObject
  have hsame : (Json.obj kvs).sortKeys = m.toDocument.sortKeys := by
    refine sortKeys_of_fields m.fields_nodup hexact fun f hf => ?_
    by_cases hne : f.1 = "objects"
    · rw [List.inj_on_of_nodup_map m.fields_nodup hf m.objects_mem hne, hitems, hitemsSorted]
    · rw [hfields f hf hne]
  rw [ImmutableManifest.toBytes_eq_ok, ← canonicalJson_congr hsame]
  exact hcanonical

/-! ### The active pointer -/

section
variable (p : ActivePointer)

theorem ActivePointer.fields_nodup : (p.fields.map Prod.fst).Nodup := by
  simp only [ActivePointer.fields, List.map_cons, List.map_nil]
  decide

theorem ActivePointer.fields_sortKeys : ∀ f ∈ p.fields, f.2.sortKeys = f.2 := by
  simp only [ActivePointer.fields, List.forall_mem_cons, List.not_mem_nil, false_implies, implies_true, Json.sortKeys,
    and_self]

theorem ActivePointer.toDocument_document : p.toDocument.Document := by
  simp only [ActivePointer.toDocument, Json.Document, documentMembers_iff]
  refine ⟨members_keys_nodup p.fields_nodup, fun kv hkv => ?_⟩
  obtain ⟨f, hf, rfl⟩ := List.mem_map.mp hkv
  simp only [ActivePointer.fields, List.mem_cons, List.not_mem_nil, or_false] at hf
  rcases hf with rfl | rfl | rfl | rfl <;> trivial

theorem ActivePointer.toDocument_nesting : p.toDocument.nesting ≤ nestingLimit := by
  simp [ActivePointer.toDocument, ActivePointer.fields, members, Json.nesting, nestingMembers, nestingLimit]

end

/-- A pointer is read of the canonical bytes of a mapping that has exactly its fields. -/
theorem pointerOfBytes_eq_ok {body : Bytes} {p : ActivePointer} : pointerOfBytes body = .ok p ↔
    ∃ kvs, loadsBytes ⟨false, true⟩ body = .ok (.obj kvs) ∧ canonicalJson (.obj kvs) = some body ∧
      Json.hasExactly pointerFields kvs = true ∧ ∀ f ∈ p.fields, field kvs f.1 = f.2 := by
  simp only [ActivePointer.fields, List.forall_mem_cons, List.not_mem_nil, false_implies, implies_true, and_true]
  constructor
  · intro h
    simp only [pointerOfBytes, requireComponent, requireSha256, bind_eq_ok, require_eq_ok, requireText_eq_ok,
      isFormatVersion_iff, decodeCanonicalMapping_eq_ok] at h
    obtain ⟨kvs, ⟨hload, hcanonical⟩, _, hexact, _, hversion, dataset, hdataset, digest, hdigest, h⟩ := h
    split at h
    · rename_i key hkey
      simp only [bind_eq_ok, require_eq_ok, pure_eq_ok, beq_iff_eq] at h
      obtain ⟨_, rfl, rfl⟩ := h
      exact ⟨kvs, hload, hcanonical, hexact, hversion, hdataset, hkey, hdigest⟩
    · cases h
  · rintro ⟨kvs, hload, hcanonical, hexact, hversion, hdataset, hkey, hdigest⟩
    simp only [pointerOfBytes, requireComponent, requireSha256, bind_eq_ok, require_eq_ok, requireText_eq_ok,
      isFormatVersion_iff, decodeCanonicalMapping_eq_ok]
    refine ⟨kvs, ⟨hload, hcanonical⟩, (), hexact, (), hversion, p.dataset, hdataset, p.manifestSha256, hdigest, ?_⟩
    rw [hkey]
    simp only [ActivePointer.manifestKey, beq_self_eq_true, bind_eq_ok, require_eq_ok, pure_eq_ok, and_true,
      exists_const]

theorem ActivePointer.toBytes_eq_ok {p : ActivePointer} {body : Bytes} :
    p.toBytes = .ok body ↔ canonicalJson p.toDocument = some body := orElse_eq_ok

theorem pointerOfBytes_toBytes {p : ActivePointer} {body : Bytes} (h : p.toBytes = .ok body) :
    pointerOfBytes body = .ok p := by
  have hcanonical := ActivePointer.toBytes_eq_ok.mp h
  have hload := loadsBytes_canonicalJson ⟨false, true⟩ p.toDocument_document p.toDocument_nesting hcanonical
  have hsorted := canonicalJson_sortKeys hcanonical
  rw [ActivePointer.toDocument, sortKeys_obj] at hload hsorted
  refine pointerOfBytes_eq_ok.mpr ⟨_, hload, hsorted, hasExactly_sorted_members p.fields_nodup, fun f hf => ?_⟩
  rw [field_sortedMembers p.fields_nodup f hf, p.fields_sortKeys f hf]

theorem toBytes_pointerOfBytes {p : ActivePointer} {body : Bytes} (h : pointerOfBytes body = .ok p) :
    p.toBytes = .ok body := by
  obtain ⟨kvs, -, hcanonical, hexact, hfields⟩ := pointerOfBytes_eq_ok.mp h
  have hsame : (Json.obj kvs).sortKeys = p.toDocument.sortKeys :=
    sortKeys_of_fields p.fields_nodup hexact fun f hf => congrArg Json.sortKeys (hfields f hf)
  rw [ActivePointer.toBytes_eq_ok, ← canonicalJson_congr hsame]
  exact hcanonical

/-! ### What can be written -/

theorem intFits_one : intFits 1 = true := by decide

/-- Every character of a text is one that UTF-8 encodes. -/
def Encodable (s : Str) : Prop := ∀ c ∈ s, IsScalar c

theorem encodable_sha256 (digest : Sha256Hex) : Encodable digest := by
  have hpattern : (Pattern.times 64 isHex).Ascii := Pattern.ascii_times fun _ => isHex_lt
  exact fun c hc => isScalar_ascii c (hpattern.of_fullmatch digest.2 c hc)

theorem encodable_uuid4 (id : Uuid4Hex) : Encodable id := by
  have hex : ∀ n, (Pattern.times n isHex).Ascii := fun n => Pattern.ascii_times fun _ => isHex_lt
  have hversion : ∀ a : Nat, (a == 52) = true → a < 128 := fun a ha => by
    rw [beq_iff_eq] at ha
    omega
  have hvariant : ∀ a : Nat, isVariant a = true → a < 128 := fun a ha => by
    simp only [isVariant, Bool.or_eq_true, beq_iff_eq] at ha
    omega
  have hpattern := (hex 12).append (.cons hversion ((hex 3).append (.cons hvariant (hex 15))))
  exact fun c hc => isScalar_ascii c (hpattern.of_fullmatch id.2 c hc)

theorem encodable_formatInstant (t : Instant) : Encodable (formatInstant t) := fun c hc =>
  isScalar_ascii c ((formatUtc_ascii t c hc).2.trans (by decide))

/-- The key of a manifest can be written when the name of the dataset can. -/
theorem encodable_manifestKey {dataset : Component} (digest : Sha256Hex) :
    Encodable (immutableManifestKey dataset digest) ↔ Encodable dataset := by
  simp only [Encodable, immutableManifestKey, List.forall_mem_append]
  exact ⟨fun h => h.1.1.1.2, fun h => ⟨⟨⟨⟨isScalar_lit _, h⟩, isScalar_lit _⟩, encodable_sha256 digest⟩, isScalar_lit _⟩⟩

/-- The names of an object can be encoded, and its size is short enough to be printed. -/
structure ManifestObject.Writable (o : ManifestObject) : Prop where
  objectName : Encodable o.objectName
  key : Encodable o.key
  schemaId : Encodable o.schemaId
  sizeBytes : intFits o.sizeBytes = true

structure ImmutableManifest.Writable (m : ImmutableManifest) : Prop where
  dataset : Encodable m.dataset
  scale : Encodable m.scale
  physicalPrefix : Encodable m.physicalPrefix
  objects : ∀ o ∈ m.objects, o.Writable

theorem ManifestObject.writable_iff (o : ManifestObject) :
    (canonicalJson o.toDocument).isSome = true ↔ o.Writable := by
  rw [ManifestObject.toDocument, canonicalJson_members_isSome]
  simp only [ManifestObject.fields, List.forall_mem_cons, List.not_mem_nil, false_implies, implies_true, and_true,
    Json.intsFit, Json.Chars, true_and]
  constructor
  · rintro ⟨hname, hkey, hsize, -, hid, -⟩
    exact ⟨hname, hkey, hid, hsize⟩
  · intro h
    exact ⟨h.objectName, h.key, h.sizeBytes, encodable_sha256 _, h.schemaId, encodable_sha256 _⟩

theorem nullable_chars (s : Option Str) : (nullable s).Chars IsScalar ↔ ∀ t ∈ s, Encodable t := by
  cases s with
  | none => simp [nullable, Json.Chars]
  | some s => simp [nullable, Json.Chars, Encodable]

theorem nullable_intsFit (s : Option Str) : (nullable s).intsFit = true := by cases s <;> rfl

theorem ImmutableManifest.writable_iff (m : ImmutableManifest) : (∃ body, m.toBytes = .ok body) ↔ m.Writable := by
  have hobjects : (Json.arr (m.objects.map (·.toDocument))).intsFit = true ∧
      (Json.arr (m.objects.map (·.toDocument))).Chars IsScalar ↔ ∀ o ∈ m.objects, o.Writable := by
    rw [Json.intsFit, elemsFit_iff, Json.Chars, charsElems_iff]
    simp only [List.mem_map, forall_exists_index, and_imp, forall_apply_eq_imp_iff₂, ← forall₂_and]
    exact forall₂_congr fun o _ => by rw [← canonicalJson_isSome, o.writable_iff]
  have hkey : Encodable m.dataset → ∀ t ∈ m.previousKey, Encodable t := by
    intro hdataset t ht
    obtain ⟨digest, -, rfl⟩ := Option.map_eq_some_iff.mp ht
    exact (encodable_manifestKey digest).mpr hdataset
  have hdigest : ∀ t ∈ m.previous.map Subtype.val, Encodable t := by
    intro t ht
    obtain ⟨digest, -, rfl⟩ := Option.map_eq_some_iff.mp ht
    exact encodable_sha256 digest
  simp only [ImmutableManifest.toBytes_eq_ok, ← Option.isSome_iff_exists]
  rw [ImmutableManifest.toDocument, canonicalJson_members_isSome]
  simp only [ImmutableManifest.fields, List.forall_mem_cons, List.not_mem_nil, false_implies, implies_true, and_true,
    hobjects, nullable_chars, nullable_intsFit]
  simp only [Json.intsFit, Json.Chars, intFits_one, true_and]
  constructor
  · rintro ⟨hdataset, hobjects, hprefix, -, -, -, -, -, -, hscale, -⟩
    exact ⟨hdataset, hscale, hprefix, hobjects⟩
  · intro h
    exact ⟨h.dataset, h.objects, h.physicalPrefix, encodable_sha256 _, hkey h.dataset, hdigest, encodable_uuid4 _,
      encodable_formatInstant _, encodable_sha256 _, h.scale, encodable_sha256 _⟩

theorem ActivePointer.writable_iff (p : ActivePointer) : (∃ body, p.toBytes = .ok body) ↔ Encodable p.dataset := by
  simp only [ActivePointer.toBytes_eq_ok, ← Option.isSome_iff_exists]
  rw [ActivePointer.toDocument, canonicalJson_members_isSome]
  simp only [ActivePointer.fields, List.forall_mem_cons, List.not_mem_nil, false_implies, implies_true, and_true,
    Json.intsFit, Json.Chars, intFits_one, true_and]
  constructor
  · exact fun h => h.1
  · exact fun h => ⟨h, (encodable_manifestKey _).mpr h, encodable_sha256 _⟩

/-! ### Values and bytes -/

/-- **Writing and reading manifests are one relation.**  Every manifest that can be written is read
back from its bytes, and bytes that are read are those of the manifest they are read as. -/
theorem manifest_codec (m : ImmutableManifest) (body : Bytes) :
    m.toBytes = .ok body ↔ manifestOfBytes body = .ok m :=
  ⟨manifestOfBytes_toBytes, toBytes_manifestOfBytes⟩

/-- **Writing and reading the pointer are one relation.** -/
theorem pointer_codec (p : ActivePointer) (body : Bytes) : p.toBytes = .ok body ↔ pointerOfBytes body = .ok p :=
  ⟨pointerOfBytes_toBytes, toBytes_pointerOfBytes⟩

/-- Two byte strings are not read as one manifest. -/
theorem manifestOfBytes_injective {m : ImmutableManifest} {body body' : Bytes} (h : manifestOfBytes body = .ok m)
    (h' : manifestOfBytes body' = .ok m) : body = body' := by
  rw [← manifest_codec] at h h'
  rw [h] at h'
  exact Except.ok.inj h'

theorem pointerOfBytes_injective {p : ActivePointer} {body body' : Bytes} (h : pointerOfBytes body = .ok p)
    (h' : pointerOfBytes body' = .ok p) : body = body' := by
  rw [← pointer_codec] at h h'
  rw [h] at h'
  exact Except.ok.inj h'

/-- The digest of a manifest is the digest of the bytes it was read from. -/
theorem manifestSha256_of_read {m : ImmutableManifest} {body : Bytes} (h : manifestOfBytes body = .ok m) :
    manifestSha256 m = .ok (sha256 body) := by
  rw [manifestSha256, (manifest_codec m body).mpr h]
  rfl

/-- **The documents that control a dataset are read as they were written.**  A document can be written
when its texts can be encoded and its sizes printed; then it is read back from its bytes.  Bytes that are
accepted are the bytes of the value they are read as, so no other bytes are read as that value, and the
digest of the value is theirs. -/
theorem control_documents_lossless :
    (∀ m : ImmutableManifest,
      ((∃ body, m.toBytes = .ok body) ↔ m.Writable) ∧ ∀ body, m.toBytes = .ok body → manifestOfBytes body = .ok m) ∧
    (∀ p : ActivePointer, ((∃ body, p.toBytes = .ok body) ↔ Encodable p.dataset) ∧
      ∀ body, p.toBytes = .ok body → pointerOfBytes body = .ok p) ∧
    (∀ body m, manifestOfBytes body = .ok m → m.toBytes = .ok body ∧ manifestSha256 m = .ok (sha256 body) ∧
      ∀ body', manifestOfBytes body' = .ok m → body' = body) ∧
    ∀ body p, pointerOfBytes body = .ok p →
      p.toBytes = .ok body ∧ ∀ body', pointerOfBytes body' = .ok p → body' = body := by
  refine ⟨fun m => ⟨m.writable_iff, fun body => (manifest_codec m body).mp⟩,
    fun p => ⟨p.writable_iff, fun body => (pointer_codec p body).mp⟩, fun body m h => ?_, fun body p h => ?_⟩
  · exact ⟨(manifest_codec m body).mpr h, manifestSha256_of_read h, fun _ h' => manifestOfBytes_injective h' h⟩
  · exact ⟨(pointer_codec p body).mpr h, fun _ h' => pointerOfBytes_injective h' h⟩

/-- A name of one lone surrogate passes the check of paths and cannot be written. -/
theorem surrogate_unwritable : ¬ ∀ p : ActivePointer, ∃ body, p.toBytes = .ok body ∧ pointerOfBytes body = .ok p := by
  intro hall
  obtain ⟨body, hbody, -⟩ := hall ⟨⟨[0xD800], by decide⟩, ⟨List.replicate 64 97, by decide⟩⟩
  have hscalar : IsScalar 0xD800 := (ActivePointer.writable_iff _).mp ⟨body, hbody⟩ _ List.mem_cons_self
  exact absurd hscalar (by decide)

end Publication
