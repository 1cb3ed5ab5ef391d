/-
Plans are read back as they were written.

The planner writes a plan body and the service reads one, with a reader of its own: the
plan travels to an operator as JSON, comes back inside a request, is parsed, written in
canonical form and decoded.  `plan_roundTrip` shows that this loses nothing, for whatever
the bucket and its control records held, and that nothing but a canonical body with
sorted, distinct and rightly named shards is ever decoded.

The two sides were written separately, so the proof goes the same way the data does: one
record, one shard, the list of shards, the whole artifact.
-/
import DataEngLab.Checkpoints.Planner
import DataEngLab.Checkpoints.LeaseRecord
import DataEngLab.Lib.Utf8
import Mathlib.Algebra.Order.BigOperators.Group.List

namespace Checkpoints

open Lib

/-! ### One record -/

theorem isPartSuffix_ascii {s : Str} (h : isPartSuffix s = true) : ∀ c ∈ s, c < 128 := by
  unfold isPartSuffix at h
  split at h
  · simp
  · rename_i c rest
    simp only [Bool.and_eq_true, List.all_eq_true] at h
    have hdigit : ∀ {d : Nat}, isDigit d = true → d < 128 := by
      intro d hd
      simp only [isDigit, Bool.and_eq_true, decide_eq_true_eq] at hd
      omega
    intro d hd
    rcases List.mem_cons.mp hd with rfl | hd
    · decide
    rcases List.mem_cons.mp hd with rfl | hd
    · exact hdigit h.1.1.1
    · exact hdigit (h.2 d hd)
  · cases h

theorem isEtag_ascii {s : Str} (h : isEtag s = true) : ∀ c ∈ s, c < 128 := by
  simp only [isEtag, Bool.and_eq_true] at h
  intro c hc
  rw [← List.take_append_drop 32 s, List.mem_append] at hc
  rcases hc with hc | hc
  · have hall := Pattern.fullmatch_all (Q := fun c => c < 128) h.1 fun p hp a ha => by
      rw [Pattern.times, List.mem_replicate] at hp
      rw [hp.2] at ha
      exact isHex_lt ha
    exact hall c hc
  · exact isPartSuffix_ascii h.2 c hc

section
variable (r : ObjectRecord)

/-- A safe key can be encoded. -/
theorem ObjectRecord.key_encodes : ∃ b, utf8Encode r.key = some b := by
  have h := r.key_safe
  simp only [safeKey, Bool.and_eq_true] at h
  obtain ⟨⟨⟨-, henc⟩, -⟩, -⟩ := h
  cases hb : utf8Encode r.key with
  | none => simp [hb] at henc
  | some b => exact ⟨b, rfl⟩

theorem ObjectRecord.joined_key : Str.Joined r.key := by
  obtain ⟨b, hb⟩ := r.key_encodes
  exact joined_of_utf8 hb

def ObjectRecord.fields : List (String × Json) :=
  [("etag", .str r.etag), ("key", .str r.key), ("last_modified", .str (formatUtc r.lastModified)),
    ("size_bytes", .int r.sizeBytes)]

theorem ObjectRecord.asJson_eq : r.asJson = .obj (members r.fields) := rfl

theorem ObjectRecord.fields_nodup : (r.fields.map Prod.fst).Nodup := by
  simp [ObjectRecord.fields]

theorem ObjectRecord.asJson_plain : r.asJson.Plain := by
  rw [r.asJson_eq]
  refine plain_members r.fields_nodup fun f hf => ?_
  simp only [ObjectRecord.fields, List.mem_cons, List.not_mem_nil, or_false] at hf
  rcases hf with rfl | rfl | rfl | rfl
  · exact Str.joined_of_ascii (isEtag_ascii r.etag_valid)
  · exact r.joined_key
  · exact joined_formatUtc r.lastModified
  · trivial

theorem ObjectRecord.create_self : ObjectRecord.create (.str r.key) (.str r.etag) (.int r.sizeBytes)
    (some r.lastModified) = .ok r := by
  simp only [ObjectRecord.create, dif_pos r.key_safe, dif_pos r.etag_valid, Int.toNat_natCast,
    dif_pos r.size_pos]

/-- **A record is decoded from what was written of it.** -/
theorem decodePlanRecord_asJson : decodePlanRecord r.asJson.sortKeys = .ok r := by
  have hexact : Json.hasExactly recordFields (sortedMembers (members r.fields)) = true :=
    hasExactly_sorted_members r.fields_nodup
  have hget := get_sorted_members r.fields_nodup
  have hkey : Json.get "key" (sortedMembers (members r.fields)) = some (.str r.key) := hget _
  have hetag : Json.get "etag" (sortedMembers (members r.fields)) = some (.str r.etag) := hget _
  have hsize : Json.get "size_bytes" (sortedMembers (members r.fields)) = some (.int r.sizeBytes) :=
    hget _
  have htime : parseUtcValue (Json.get "last_modified" (sortedMembers (members r.fields))) =
      some r.lastModified := by
    rw [hget]
    show parseUtc (formatUtc r.lastModified) = _
    exact parseUtc_formatUtc r.lastModified
  rw [r.asJson_eq, sortKeys_obj]
  simp only [decodePlanRecord, hexact, require_true, htime, orElse, hkey, hetag, hsize]
  exact r.create_self

end

/-! ### The order of the records -/

/-- Sorted by the bytes of their keys, and no key twice. -/
def KeyOrdered (records : List ObjectRecord) : Prop :=
  records.Pairwise fun a b => a.keyBytes < b.keyBytes

theorem keyBytes_inj {a b : ObjectRecord} (h : a.keyBytes = b.keyBytes) : a.key = b.key := by
  obtain ⟨x, hx⟩ := a.key_encodes
  obtain ⟨y, hy⟩ := b.key_encodes
  simp only [ObjectRecord.keyBytes, hx, hy, Option.getD_some] at h
  have hinj : Function.Injective UInt8.toNat := fun x y hxy => UInt8.toNat_inj.mp hxy
  rw [hinj.list_map h] at hx
  exact utf8Encode_inj hx hy

theorem keyOrdered_of_sorted : ∀ {records : List ObjectRecord},
    (records.Pairwise fun a b => a.keyBytes ≤ b.keyBytes) → adjacentDuplicate records = false →
      KeyOrdered records := by
  intro records
  induction records with
  | nil => intro _ _; exact List.Pairwise.nil
  | cons a rest ih =>
      intro hsorted hdup
      cases rest with
      | nil => exact List.pairwise_singleton _ _
      | cons b rest =>
          obtain ⟨hle, htail⟩ := List.pairwise_cons.mp hsorted
          simp only [adjacentDuplicate, Bool.or_eq_false_iff, beq_eq_false_iff_ne, ne_eq] at hdup
          have hrest := ih htail hdup.2
          have hab : a.keyBytes < b.keyBytes :=
            lt_of_le_of_ne (hle b (by simp)) fun h => hdup.1 (keyBytes_inj h)
          refine List.pairwise_cons.mpr ⟨fun c hc => ?_, hrest⟩
          rcases List.mem_cons.mp hc with rfl | hc
          · exact hab
          · exact lt_trans hab ((List.pairwise_cons.mp hrest).1 c hc)

theorem adjacentDuplicate_of_ordered : ∀ {records : List ObjectRecord},
    KeyOrdered records → adjacentDuplicate records = false := by
  intro records
  induction records with
  | nil => intro _; rfl
  | cons a rest ih =>
      intro h
      cases rest with
      | nil => rfl
      | cons b rest =>
          obtain ⟨hlt, htail⟩ := List.pairwise_cons.mp h
          simp only [adjacentDuplicate, Bool.or_eq_false_iff, beq_eq_false_iff_ne, ne_eq]
          refine ⟨fun hkey => ?_, ih htail⟩
          have hbytes : a.keyBytes = b.keyBytes := by simp only [ObjectRecord.keyBytes, hkey]
          exact absurd hbytes (ne_of_lt (hlt b (by simp)))

/-- `canonical_records` returns the records in strict order, and accepts those that are in it. -/
theorem canonicalRecords_eq_ok {records ordered : List ObjectRecord} :
    canonicalRecords records = .ok ordered ↔
      ordered = records.insertionSort (fun a b => a.keyBytes ≤ b.keyBytes) ∧ KeyOrdered ordered := by
  simp only [canonicalRecords, bind_eq_ok, require_eq_ok, pure_eq_ok, Bool.not_eq_true', exists_and_left,
    exists_const]
  constructor
  · rintro ⟨hdup, rfl⟩
    refine ⟨rfl, keyOrdered_of_sorted ?_ hdup⟩
    exact List.pairwise_insertionSort (fun a b : ObjectRecord => a.keyBytes ≤ b.keyBytes) records
  · rintro ⟨rfl, hord⟩
    exact ⟨adjacentDuplicate_of_ordered hord, rfl⟩

theorem canonicalRecords_self {records : List ObjectRecord} (h : KeyOrdered records) :
    canonicalRecords records = .ok records := by
  have hsorted : records.Pairwise fun a b => a.keyBytes ≤ b.keyBytes := h.imp fun hlt => le_of_lt hlt
  exact canonicalRecords_eq_ok.mpr ⟨(List.Pairwise.insertionSort_eq hsorted).symm, h⟩

/-! ### Shards -/

section
variable {α : Type} {tooLarge : Exn} {maxBytes : Nat}

/-- Grouping keeps every value, in order, and makes no empty group. -/
theorem groupBySize_flatten : ∀ {rest : List (α × Bytes)} {current : List α} {size : Nat}
    {groups : List (List α)}, groupBySize tooLarge maxBytes rest current size = .ok groups →
      groups.flatten = current.reverse ++ rest.map Prod.fst ∧ ∀ g ∈ groups, g ≠ [] := by
  intro rest
  induction rest with
  | nil =>
      intro current size groups h
      simp only [groupBySize, Except.ok.injEq] at h
      subst h
      cases current with
      | nil => simp
      | cons a current => simp
  | cons pair rest ih =>
      obtain ⟨a, body⟩ := pair
      intro current size groups h
      unfold groupBySize at h
      by_cases hbig : maxBytes < body.length + 2
      · rw [if_pos hbig] at h
        cases h
      rw [if_neg hbig] at h
      by_cases hcut : (!current.isEmpty) = true ∧
          maxBytes < size + (body.length + if current.isEmpty then 0 else 1)
      · rw [if_pos hcut] at h
        simp only [bind_eq_ok, pure_eq_ok] at h
        obtain ⟨groups', hgroups, rfl⟩ := h
        obtain ⟨hflat, hne⟩ := ih hgroups
        refine ⟨by simp [hflat], fun g hg => ?_⟩
        rcases List.mem_cons.mp hg with rfl | hg
        · -- the group that is closed has been filled
          simp only [Bool.not_eq_true', List.isEmpty_eq_false_iff] at hcut
          simpa using hcut.1
        · exact hne g hg
      · rw [if_neg hcut] at h
        obtain ⟨hflat, hne⟩ := ih h
        exact ⟨by simp [hflat], hne⟩

end

/-- A group of records as it stands in a plan body. -/
def shardJson (group : List ObjectRecord) : Json := .arr (group.map fun r => r.asJson.sortKeys)

theorem sortKeys_group (group : List ObjectRecord) :
    (Json.arr (group.map ObjectRecord.asJson)).sortKeys = shardJson group := by
  rw [sortKeys_arr, List.map_map]
  rfl

theorem group_plain (group : List ObjectRecord) : (Json.arr (group.map ObjectRecord.asJson)).Plain := by
  simp only [Json.Plain, plainElems_iff, List.mem_map]
  rintro v ⟨r, -, rfl⟩
  exact r.asJson_plain

theorem decodePlanRecords_group (group : List ObjectRecord) :
    checkAll decodePlanRecord (group.map fun r => r.asJson.sortKeys) = .ok group := by
  induction group with
  | nil => rfl
  | cons r group ih =>
      simp only [List.map_cons, checkAll, bind_eq_ok, pure_eq_ok]
      exact ⟨r, decodePlanRecord_asJson r, group, ih, rfl⟩

section
variable {maxBytes maxNodes : Nat}

/-- **A shard is decoded from what was written of it**, under the same bound on its bytes. -/
theorem shard_roundTrip {index : Nat} {group : List ObjectRecord} {shard : ManifestShard}
    (hne : group ≠ []) (hord : KeyOrdered group) (hnodes : (shardJson group).nodes ≤ maxNodes)
    (h : shardOf maxBytes index group = .ok shard) :
    loadShard shard = .ok (shardJson group) ∧
      decodePlanShard maxBytes maxNodes index (shardJson group) = .ok shard := by
  simp only [shardOf, bind_eq_ok, pure_eq_ok] at h
  obtain ⟨body, hbody, rfl⟩ := h
  have hload := (loads_canonical (group_plain group) hbody .plain).1
  have hsorted := canonicalJsonBytes_sortKeys (group_plain group) hbody
  rw [sortKeys_group] at hload hsorted
  refine ⟨by simp only [loadShard, hload], ?_⟩
  have hwritten : canonicalJsonBytes (shardJson group) maxBytes maxNodes = .ok body := by
    obtain ⟨h2, -⟩ := canonicalJsonBytes_eq_ok.mp hbody
    exact canonicalJsonBytes_mono hsorted (canonicalJsonBytes_length hbody) h2 hnodes
  have hdecode := decodePlanRecords_group group
  cases group with
  | nil => exact absurd rfl hne
  | cons r group =>
      simp only [shardJson, List.map_cons] at hdecode hwritten ⊢
      simp only [decodePlanShard, bind_eq_ok, require_eq_ok, pure_eq_ok]
      exact ⟨_, hdecode, _, canonicalRecords_self hord, (), beq_self_eq_true _, _, hwritten, rfl⟩

theorem shards_roundTrip : ∀ {groups : List (List ObjectRecord)} {index : Nat}
    {shards : List ManifestShard}, (∀ g ∈ groups, g ≠ []) → (∀ g ∈ groups, KeyOrdered g) →
      (∀ g ∈ groups, (shardJson g).nodes ≤ maxNodes) → shardsOf maxBytes index groups = .ok shards →
        checkAll loadShard shards = .ok (groups.map shardJson) ∧
          decodePlanShards maxBytes maxNodes index (groups.map shardJson) = .ok shards := by
  intro groups
  induction groups with
  | nil =>
      intro index shards _ _ _ h
      simp only [shardsOf, Except.ok.injEq] at h
      subst h
      exact ⟨rfl, rfl⟩
  | cons group groups ih =>
      intro index shards hne hord hnodes h
      simp only [shardsOf, bind_eq_ok, pure_eq_ok] at h
      obtain ⟨shard, hshard, rest, hrest, rfl⟩ := h
      obtain ⟨hload, hdecode⟩ := shard_roundTrip (hne group (by simp)) (hord group (by simp))
        (hnodes group (by simp)) hshard
      obtain ⟨hloads, hdecodes⟩ := ih (fun g hg => hne g (List.mem_cons_of_mem _ hg))
        (fun g hg => hord g (List.mem_cons_of_mem _ hg))
        (fun g hg => hnodes g (List.mem_cons_of_mem _ hg)) hrest
      refine ⟨?_, ?_⟩
      · simp only [checkAll, bind_eq_ok, pure_eq_ok]
        exact ⟨_, hload, _, hloads, rfl⟩
      · simp only [List.map_cons, decodePlanShards, bind_eq_ok, pure_eq_ok]
        exact ⟨_, hdecode, _, hdecodes, rfl⟩

end

/-- What `shard_inventory` makes: shards of groups that are ordered and not empty. -/
theorem shardInventory_eq_ok {records : List ObjectRecord} {maxBytes : Nat} {shards : List ManifestShard}
    (h : shardInventory records maxBytes = .ok shards) : ∃ groups, (∀ g ∈ groups, g ≠ []) ∧
      (∀ g ∈ groups, KeyOrdered g) ∧ (records ≠ [] → groups ≠ []) ∧
        shardsOf maxBytes 0 groups = .ok shards := by
  simp only [shardInventory, bind_eq_ok, require_eq_ok] at h
  obtain ⟨-, -, ordered, hordered, encoded, hencoded, groups, hgroups, hshards⟩ := h
  obtain ⟨rfl, hord⟩ := canonicalRecords_eq_ok.mp hordered
  obtain ⟨hflat, hne⟩ := groupBySize_flatten hgroups
  have hlen := (checkAll_eq_ok.mp hencoded).length_eq
  rw [List.reverse_nil, List.nil_append, List.map_fst_zip (by omega)] at hflat
  refine ⟨groups, hne, fun g hg => ?_, fun hrecords hnil => hrecords ?_, hshards⟩
  · rw [← hflat] at hord
    exact (List.pairwise_flatten.mp hord).1 g hg
  · subst hnil
    have hperm := List.perm_insertionSort (fun a b : ObjectRecord => a.keyBytes ≤ b.keyBytes) records
    rw [← hflat] at hperm
    exact hperm.nil_eq.symm

/-! ### The artifact -/

/-- The plan of a prepare request, decoded with the bounds of the service. -/
def decodeRequestPlan (maxShardBytes : Nat) (plan : Json) : Except Exn PlanArtifact := do
  let body ← canonicalJsonBytes plan maxPlanBytes maxPlanNodes
  decodePlanArtifact body maxPlanBytes maxShardBytes maxPlanNodes

/-- Equality of two artifacts; their summaries are mappings, whose order does not count. -/
structure SamePlan (a b : PlanArtifact) : Prop where
  body : a.body = b.body
  sha256 : a.sha256 = b.sha256
  shards : a.shards = b.shards
  summary : (Json.obj a.summary).sortKeys = (Json.obj b.summary).sortKeys

/-- However it is parsed, the body of the artifact is the plan of a request for the same artifact. -/
def RoundTrips (maxShardBytes : Nat) (a : PlanArtifact) : Prop :=
  ∀ hooks, ∃ value, loadsBytes hooks a.body = .ok value ∧
    canonicalJsonBytes value maxPlanBytes maxPlanNodes = .ok a.body ∧
      ∃ b, decodeRequestPlan maxShardBytes value = .ok b ∧ SamePlan b a

def planFields (summary : List (Str × Json)) (values : List Json) : List (String × Json) :=
  [("schema_version", .int 1), ("summary", .obj summary), ("shards", .arr values)]

section
variable {summary : List (Str × Json)} {values : List Json}

theorem planFields_nodup (summary : List (Str × Json)) (values : List Json) :
    ((planFields summary values).map Prod.fst).Nodup := by
  simp [planFields]

theorem planFields_plain (hp : (Json.obj summary).Plain) (hv : ∀ v ∈ values, v.Plain) :
    (Json.obj (members (planFields summary values))).Plain := by
  refine plain_members (planFields_nodup _ _) fun f hf => ?_
  simp only [planFields, List.mem_cons, List.not_mem_nil, or_false] at hf
  rcases hf with rfl | rfl | rfl
  · trivial
  · exact hp
  · simpa [Json.Plain] using hv

theorem nodes_le_planFields {v : Json} (hv : v ∈ values) :
    v.nodes ≤ (Json.obj (members (planFields summary values))).nodes := by
  have hsum : v.nodes ≤ (values.map Json.nodes).sum :=
    List.le_sum_of_mem (List.mem_map.mpr ⟨v, hv, rfl⟩)
  simp only [planFields, members, List.map_cons, List.map_nil, Json.nodes, nodesMembers_eq, nodesElems_eq,
    List.sum_cons, List.sum_nil]
  omega

/-- The parts of a plan body that was read back. -/
theorem planParts_sorted (hne : values ≠ []) (hv : ∀ v ∈ values, v.sortKeys = v) :
    planParts (.obj (sortedMembers (members (planFields summary values)))) =
      .ok (sortedMembers summary, values) := by
  have hget := get_sorted_members (planFields_nodup summary values)
  have hversion : Json.get "schema_version" (sortedMembers (members (planFields summary values))) =
      some (.int 1) := hget _
  have hsummary : Json.get "summary" (sortedMembers (members (planFields summary values))) =
      some (.obj (sortedMembers summary)) := by
    rw [hget, ← sortKeys_obj]
    rfl
  have hshards : Json.get "shards" (sortedMembers (members (planFields summary values))) =
      some (.arr values) := by
    rw [hget]
    show some (Json.arr values).sortKeys = _
    rw [sortKeys_arr, List.map_congr_left hv, List.map_id']
  have hlen : (sortedMembers (members (planFields summary values))).length = 3 :=
    (sortedMembers_perm _).length_eq.trans rfl
  have hexact : Json.hasExactly ["schema_version", "shards", "summary"]
      (sortedMembers (members (planFields summary values))) = true := by
    simp [Json.hasExactly, hlen, hversion, hsummary, hshards]
  cases values with
  | nil => exact absurd rfl hne
  | cons v values =>
      simp only [planParts, hsummary, hshards, hexact, hversion]
      rfl

end

theorem shardJson_sorted (group : List ObjectRecord) : (shardJson group).sortKeys = shardJson group := by
  rw [← sortKeys_group, sortKeys_idem]

theorem namesShards_self (shards : List ManifestShard) :
    namesShards shards (some (.arr (shards.map fun s => .str s.sha256))) = true := by
  simp [namesShards, List.map_map, Function.comp_def, Json.str?]

/-- **An artifact of a non-empty inventory survives the way to the operator and back.** -/
theorem planArtifact_roundTrip {records : List ObjectRecord} {maxBytes : Nat}
    {summary : List (Str × Json)} {shards : List ManifestShard} {a : PlanArtifact}
    (hrecords : records ≠ []) (hp : (Json.obj summary).Plain)
    (hnames : Json.get "manifest_shards" summary = some (.arr (shards.map fun s => .str s.sha256)))
    (hshards : shardInventory records maxBytes = .ok shards) (h : planArtifact summary shards = .ok a) :
    RoundTrips maxBytes a := by
  obtain ⟨groups, hne, hord, hsome, hgroups⟩ := shardInventory_eq_ok hshards
  simp only [planArtifact, bind_eq_ok] at h
  obtain ⟨values, hvalues, h⟩ := h
  cases hbody : canonicalJsonBytes (object (planFields summary values)) maxPlanBytes maxPlanNodes with
  | error e =>
      simp only [planFields] at hbody
      rw [hbody] at h
      cases h
  | ok body =>
  have hartifact : a = ⟨summary, shards, body, sha256 body, rfl⟩ := by
    have hwritten := hbody
    simp only [planFields] at hwritten
    rw [hwritten] at h
    cases h
    rfl
  subst hartifact
  rw [object_eq] at hbody
  obtain ⟨-, -, -, hnodes, hheight, -⟩ := canonicalJsonBytes_eq_ok.mp hbody
  -- the values of the shards are the groups, whatever bound on the nodes is asked for
  have hloaded : values = groups.map shardJson := by
    have hnodes : ∀ g ∈ groups, (shardJson g).nodes ≤ (groups.map fun g => (shardJson g).nodes).sum :=
      fun g hg => List.le_sum_of_mem (List.mem_map.mpr ⟨g, hg, rfl⟩)
    obtain ⟨hload, -⟩ := shards_roundTrip hne hord hnodes hgroups
    rw [hload] at hvalues
    exact (Except.ok.inj hvalues).symm
  subst hloaded
  have hgroupNodes : ∀ g ∈ groups, (shardJson g).nodes ≤ maxPlanNodes := fun g hg =>
    (nodes_le_planFields (List.mem_map.mpr ⟨g, hg, rfl⟩)).trans hnodes
  obtain ⟨-, hdecoded⟩ := shards_roundTrip hne hord hgroupNodes hgroups
  have hplain : (Json.obj (members (planFields summary (groups.map shardJson)))).Plain := by
    refine planFields_plain hp fun v hv => ?_
    obtain ⟨g, -, rfl⟩ := List.mem_map.mp hv
    rw [← sortKeys_group]
    exact (group_plain g).sortKeys
  have hsorted := canonicalJsonBytes_sortKeys hplain hbody
  have hparts : planParts (.obj (sortedMembers (members (planFields summary (groups.map shardJson))))) =
      .ok (sortedMembers summary, groups.map shardJson) := by
    refine planParts_sorted (by simpa using hsome hrecords) fun v hv => ?_
    obtain ⟨g, -, rfl⟩ := List.mem_map.mp hv
    exact shardJson_sorted g
  intro hooks
  obtain ⟨hload, -⟩ := loads_canonical hplain hbody hooks
  obtain ⟨-, hread⟩ := loads_canonical hplain hbody ⟨true, false⟩
  refine ⟨_, hload, hsorted, ⟨sortedMembers summary, shards, body, sha256 body, rfl⟩, ?_, ?_⟩
  · rw [sortKeys_obj] at hsorted hread ⊢
    have hbounds : checkDecodedBounds maxJsonDepth maxPlanNodes
        (.obj (sortedMembers (members (planFields summary (groups.map shardJson))))) = .ok () := by
      rw [← sortKeys_obj]
      exact checkDecodedBounds_eq_ok.mpr ⟨hplain.sortKeys.noFloats, by rwa [nodes_sortKeys],
        (height_sortKeys_le _).trans hheight⟩
    have hnamed : namesShards shards (Json.get "manifest_shards" (sortedMembers summary)) = true := by
      have hnodup : (summary.map Prod.fst).Nodup := by
        simp only [Json.Plain] at hp
        exact hp.1
      rw [get_sortedMembers hnodup, hnames]
      show namesShards shards (some (Json.arr _).sortKeys) = true
      have hatoms : ∀ v ∈ shards.map fun s => Json.str s.sha256, v.sortKeys = v := by
        intro v hv
        obtain ⟨s, -, rfl⟩ := List.mem_map.mp hv
        rfl
      rw [sortKeys_arr, List.map_congr_left hatoms, List.map_id']
      exact namesShards_self shards
    simp only [decodeRequestPlan, decodePlanArtifact, bind_eq_ok, require_eq_ok, pure_eq_ok]
    exact ⟨body, hsorted, (), by simpa using canonicalJsonBytes_length hbody, _,
      by rw [hread]; rfl, _, hparts, (), hbounds, body, hsorted, (), beq_self_eq_true _, shards,
      hdecoded, (), hnamed, rfl⟩
  · refine ⟨rfl, rfl, rfl, ?_⟩
    rw [← sortKeys_obj, sortKeys_idem]

/-! ### The planner -/

theorem joined_sha256 (b : Bytes) : Str.Joined (sha256 b) := by
  refine Str.joined_of_ascii fun c hc => ?_
  have hall := Pattern.fullmatch_all (Q := fun c => c < 128) (sha256_isSha256 b) fun p hp a ha => by
    rw [Pattern.times, List.mem_replicate] at hp
    rw [hp.2] at ha
    exact isHex_lt ha
  exact hall c hc

theorem optionalUtc_plain (t : Option Instant) : (optionalUtc t).Plain := by
  cases t with
  | none => trivial
  | some t => exact joined_formatUtc t

theorem evaluateRetention_policySha256 {policy : CheckpointPolicy} {facts : EvaluationInput}
    {decision : RetentionDecision} (h : evaluateRetention policy facts = .ok decision) :
    decision.policySha256 = policySha256 policy := by
  simp only [evaluateRetention, bind_eq_ok, orElse_eq_ok, require_eq_ok, pure_eq_ok] at h
  obtain ⟨matched, -, entry, -, text, -, -, -, rfl⟩ := h
  rfl

section
variable {policy : CheckpointPolicy} {request : PlanRequest} {matched : MatchedCheckpoint}
  {evaluatedAt newest : Instant} {records : List ObjectRecord} {decision : RetentionDecision}
  {shards : List ManifestShard} {digest prefixSha : Str}

-- a digest is text here, not something to compute
attribute [local irreducible] sha256

theorem planSummary_plain (hactor : Str.Joined request.actor) (hpfx : Str.Joined request.keyPrefix)
    (hdigest : Str.Joined digest) (hsha : Str.Joined prefixSha) (hpolicy : Str.Joined decision.policySha256)
    (hshards : ∀ s ∈ shards, Str.Joined s.sha256) :
    (Json.obj (planSummary request matched evaluatedAt newest records digest prefixSha decision
      shards)).Plain := by
  have htext : ∀ s, (textJson s).Plain := fun s => joined_lit s
  refine plain_members (by simp) fun f hf => ?_
  simp only [List.mem_cons, List.not_mem_nil, or_false] at hf
  rcases hf with rfl | rfl | rfl | rfl | rfl | rfl | rfl | rfl | rfl | rfl | rfl | rfl | rfl
  · exact hactor
  · exact htext _
  · exact htext _
  · exact optionalUtc_plain _
  · exact joined_formatUtc _
  · refine plain_members (by simp) fun g hg => ?_
    simp only [List.mem_cons, List.not_mem_nil, or_false] at hg
    rcases hg with rfl | rfl | rfl | rfl
    · exact joined_formatUtc _
    · trivial
    · exact hdigest
    · trivial
  · simp only [Json.Plain, plainElems_iff, List.mem_map]
    rintro v ⟨s, hs, rfl⟩
    exact hshards s hs
  · exact hpolicy
  · exact hpfx
  · exact hsha
  · simp only [Json.Plain, plainElems_iff, List.mem_map]
    rintro v ⟨s, -, rfl⟩
    exact htext s
  · exact optionalUtc_plain _
  · trivial

theorem planSummary_names : Json.get "manifest_shards" (planSummary request matched evaluatedAt newest
    records digest prefixSha decision shards) = some (.arr (shards.map fun s => .str s.sha256)) := by
  refine (get_members _ _).trans ?_
  rfl

theorem shardsOf_digests {maxBytes : Nat} : ∀ {groups : List (List ObjectRecord)} {index : Nat}
    {shards : List ManifestShard}, shardsOf maxBytes index groups = .ok shards →
      ∀ s ∈ shards, s.sha256 = sha256 s.body := by
  intro groups
  induction groups with
  | nil => intro index shards h; cases h; simp
  | cons group groups ih =>
      intro index shards h s hs
      simp only [shardsOf, shardOf, bind_eq_ok, pure_eq_ok] at h
      obtain ⟨shard, ⟨body, -, rfl⟩, rest, hrest, rfl⟩ := h
      rcases List.mem_cons.mp hs with rfl | hs
      · rfl
      · exact ih hrest s hs

theorem evaluatePlan_roundTrip {lease : Option LeaseFacts} {terminal : Option TerminalFacts}
    {a : PlanArtifact} (hactor : isIdentity request.actor = true)
    (h : evaluatePlan policy request matched evaluatedAt records lease terminal = .ok a) :
    RoundTrips policy.bounds.maxManifestShardBytes a := by
  simp only [evaluatePlan, bind_eq_ok, orElse_eq_ok, mapError_eq_ok] at h
  obtain ⟨newest, hnewest, digest, hdigest, decision, hdecision, shards, hshards, encoded, hencoded,
    hartifact⟩ := h
  have hrecords : records ≠ [] := by
    rintro rfl
    cases hnewest
  have hpolicy := evaluateRetention_policySha256 hdecision
  have hpfx : Str.Joined request.keyPrefix := by
    unfold encodeAscii at hencoded
    split at hencoded
    · rename_i hascii; exact joined_isAscii hascii
    · cases hencoded
  have hdigestJoined : Str.Joined digest := by
    simp only [inventorySha256, bind_eq_ok, pure_eq_ok] at hdigest
    obtain ⟨ordered, -, bodies, -, rfl⟩ := hdigest
    exact joined_sha256 (joinBodies bodies)
  have hnamed : ∀ s ∈ shards, Str.Joined s.sha256 := by
    obtain ⟨groups, -, -, -, hgroups⟩ := shardInventory_eq_ok hshards
    intro s hs
    rw [shardsOf_digests hgroups s hs]
    exact joined_sha256 s.body
  have hpolicyJoined : Str.Joined decision.policySha256 := by
    rw [hpolicy, policySha256]
    exact joined_sha256 _
  have hplain : (Json.obj (planSummary request matched evaluatedAt newest records digest
      (sha256 encoded) decision shards)).Plain :=
    planSummary_plain (joined_isIdentity hactor) hpfx hdigestJoined (joined_sha256 encoded)
      hpolicyJoined hnamed
  exact planArtifact_roundTrip hrecords hplain planSummary_names hshards hartifact

end

/-- Every plan the planner returns, whatever it read, survives the way to the operator and back. -/
theorem ends_plan (policy : CheckpointPolicy) (d : Deadline) (request : PlanRequest) :
    Ends (fun r => ∀ a, r = .ok a → RoundTrips policy.bounds.maxManifestShardBytes a)
      (plan policy d request) := by
  have hskip {α : Type} {x : M α} : Ends (fun r => ∀ e, r = .error e →
      ∀ a, (.error e : Except Exn PlanArtifact) = .ok a →
        RoundTrips policy.bounds.maxManifestShardBytes a) x :=
    (Ends.any x).mono fun _ _ _ _ _ h => nomatch h
  unfold plan
  refine Ends.prog_bind (P := (validatePlanRequest policy request = ·)) rfl fun r hr => ?_
  cases r with
  | error e => exact fun a h => nomatch h
  | ok checked =>
      obtain ⟨matched, evaluatedAt⟩ := checked
      have hactor : isIdentity request.actor = true := by
        unfold validatePlanRequest at hr
        split at hr
        · cases hr
        · simp only [bind_eq_ok, require_eq_ok] at hr
          obtain ⟨-, -, -, hactor, -⟩ := hr
          exact hactor
      refine Ends.bind hskip fun records => Ends.bind hskip fun _ => Ends.bind hskip fun lease =>
        Ends.bind hskip fun terminal => ?_
      exact Ends.lift fun a h => evaluatePlan_roundTrip hactor h

/-! ### What is decoded -/

/-- A decoded shard and the value it was decoded from. -/
structure ShardOf (maxBytes maxNodes : Nat) (raw : Json) (shard : ManifestShard) : Prop where
  records : ∃ xs, raw = .arr xs ∧ checkAll decodePlanRecord xs = .ok shard.records
  ordered : KeyOrdered shard.records
  body : canonicalJsonBytes raw maxBytes maxNodes = .ok shard.body
  digest : shard.sha256 = sha256 shard.body

/-- A decoded plan and the body it was decoded from. -/
structure PlanOf (maxBytes maxShardBytes maxNodes : Nat) (body : Bytes) (a : PlanArtifact) : Prop where
  /-- the body is the canonical encoding of its own value, which holds the summary and the shards -/
  value : ∃ kvs raws, (∀ hooks, loadsBytes hooks body = .ok (.obj kvs)) ∧
    canonicalJsonBytes (.obj kvs) maxBytes maxNodes = .ok body ∧
    Json.get "summary" kvs = some (.obj a.summary) ∧ Json.get "shards" kvs = some (.arr raws) ∧
      List.Forall₂ (ShardOf maxShardBytes maxNodes) raws a.shards
  body_eq : a.body = body
  digest : a.sha256 = sha256 body
  named : Json.get "manifest_shards" a.summary = some (.arr (a.shards.map fun s => .str s.sha256))

section
variable {maxBytes maxShardBytes maxNodes : Nat}

theorem decodePlanShard_sound {index : Nat} {raw : Json} {shard : ManifestShard}
    (h : decodePlanShard maxShardBytes maxNodes index raw = .ok shard) :
    ShardOf maxShardBytes maxNodes raw shard := by
  unfold decodePlanShard at h
  split at h
  · rename_i x xs
    simp only [bind_eq_ok, require_eq_ok, pure_eq_ok, beq_iff_eq] at h
    obtain ⟨records, hrecords, ordered, hordered, -, rfl, body, hbody, rfl⟩ := h
    exact ⟨⟨_, rfl, hrecords⟩, (canonicalRecords_eq_ok.mp hordered).2, hbody, rfl⟩
  · cases h

theorem decodePlanShards_sound : ∀ {raws : List Json} {index : Nat} {shards : List ManifestShard},
    decodePlanShards maxShardBytes maxNodes index raws = .ok shards →
      List.Forall₂ (ShardOf maxShardBytes maxNodes) raws shards := by
  intro raws
  induction raws with
  | nil =>
      intro index shards h
      simp only [decodePlanShards, Except.ok.injEq] at h
      subst h
      exact List.Forall₂.nil
  | cons raw raws ih =>
      intro index shards h
      simp only [decodePlanShards, bind_eq_ok, pure_eq_ok] at h
      obtain ⟨shard, hshard, rest, hrest, rfl⟩ := h
      exact List.Forall₂.cons (decodePlanShard_sound hshard) (ih hrest)

theorem namesShards_eq {shards : List ManifestShard} {v : Option Json} (h : namesShards shards v = true) :
    v = some (.arr (shards.map fun s => .str s.sha256)) := by
  unfold namesShards at h
  split at h
  · rename_i xs
    rw [beq_iff_eq] at h
    have hx : xs = shards.map fun s => .str s.sha256 := by
      refine List.ext_getElem (by simpa using congrArg List.length h) fun i h1 h2 => ?_
      have hi := congrArg (·[i]?) h
      simp only [List.length_map] at h2
      simp only [List.getElem?_map, List.getElem?_eq_getElem h1, List.getElem?_eq_getElem h2,
        Option.map_some, Option.some.injEq] at hi
      rw [List.getElem_map]
      unfold Json.str? at hi
      split at hi
      · rename_i s hs
        rw [hs, Option.some.inj hi]
      · cases hi
    rw [hx]
  · cases h

theorem planParts_sound {v : Json} {summary : List (Str × Json)} {raws : List Json}
    (h : planParts v = .ok (summary, raws)) : ∃ kvs, v = .obj kvs ∧
      Json.get "summary" kvs = some (.obj summary) ∧ Json.get "shards" kvs = some (.arr raws) := by
  unfold planParts at h
  split at h
  · rename_i kvs
    split at h
    · rename_i s x xs hs hr
      simp only [bind_eq_ok, pure_eq_ok, Prod.mk.injEq] at h
      obtain ⟨-, -, rfl, rfl⟩ := h
      exact ⟨kvs, rfl, hs, hr⟩
    · cases h
  · cases h

theorem decodePlanArtifact_sound {body : Bytes} {a : PlanArtifact}
    (h : decodePlanArtifact body maxBytes maxShardBytes maxNodes = .ok a) :
    PlanOf maxBytes maxShardBytes maxNodes body a := by
  simp only [decodePlanArtifact, bind_eq_ok, require_eq_ok, pure_eq_ok, beq_iff_eq] at h
  obtain ⟨-, -, value, hvalue, ⟨summary, raws⟩, hparts, -, -, canonical, hcanonical, -, rfl, shards,
    hshards, -, hnames, rfl⟩ := h
  have hload : loadsUtf8 ⟨true, false⟩ canonical = .ok value := by
    unfold planValue at hvalue
    split at hvalue
    · rename_i v hv
      cases hvalue
      exact hv
    · cases hvalue
    · cases hvalue
  obtain ⟨-, -, hfloats, -⟩ := canonicalJsonBytes_eq_ok.mp hcanonical
  have hplain := (loadsUtf8_decoded hload).plain hfloats
  -- a canonical body stands for the sorted value, which is the value that was read
  have hsorted : value.sortKeys = value := by
    have h2 := (loads_canonical hplain hcanonical ⟨true, false⟩).2
    rw [hload] at h2
    exact (Except.ok.inj h2).symm
  obtain ⟨kvs, rfl, hsummary, hraws⟩ := planParts_sound hparts
  refine ⟨⟨kvs, raws, fun hooks => ?_, hcanonical, hsummary, hraws, decodePlanShards_sound hshards⟩,
    rfl, rfl, namesShards_eq hnames⟩
  rw [← hsorted]
  exact (loads_canonical hplain hcanonical hooks).1

end

/-- **Plans round trip.**  Whatever the planner reads, the plan it returns is decoded again, from
its parsed and rewritten body and with the bounds of the service, as the same body, digest, shards
and summary; and whatever body is decoded, under any bounds, is canonical and its shards are
sorted, distinct and named by their digests. -/
theorem plan_roundTrip (policy : CheckpointPolicy) (d : Deadline) (request : PlanRequest) :
    Ends (fun r => ∀ a, r = .ok a → RoundTrips policy.bounds.maxManifestShardBytes a)
      (plan policy d request) ∧
    ∀ maxBytes maxShardBytes maxNodes body a,
      decodePlanArtifact body maxBytes maxShardBytes maxNodes = .ok a →
        PlanOf maxBytes maxShardBytes maxNodes body a :=
  ⟨ends_plan policy d request, fun _ _ _ _ _ h => decodePlanArtifact_sound h⟩

/-- One object, one shard, and a summary that names it. -/
def samplePlan : Except Exn PlanArtifact := do
  let record ← ObjectRecord.create (textJson "streaming_test/state/a")
    (textJson "0123456789abcdef0123456789abcdef-2") (.int 7) (parseUtc (lit "2026-08-01T09:30:00Z"))
  let shards ← shardInventory [record] 1048576
  planArtifact [(lit "manifest_shards", .arr (shards.map fun s => .str s.sha256))] shards

theorem plan_roundTrip_sample : ∃ a b, samplePlan = .ok a ∧
    decodePlanArtifact a.body maxPlanBytes 1048576 maxPlanNodes = .ok b ∧
      PlanOf maxPlanBytes 1048576 maxPlanNodes a.body b := by
  have hdecodes : (samplePlan.bind fun a =>
      decodePlanArtifact a.body maxPlanBytes 1048576 maxPlanNodes).isOk = true := by
    decide +kernel
  cases ha : samplePlan with
  | error e => rw [ha] at hdecodes; cases hdecodes
  | ok a =>
      rw [ha] at hdecodes
      change (decodePlanArtifact a.body maxPlanBytes 1048576 maxPlanNodes).isOk = true at hdecodes
      cases hb : decodePlanArtifact a.body maxPlanBytes 1048576 maxPlanNodes with
      | error e => rw [hb] at hdecodes; cases hdecodes
      | ok b =>
          exact ⟨a, b, rfl, hb, (plan_roundTrip registry .none
            ⟨lit "streaming-events-v1", lit "events/", lit "operator", none⟩).2 _ _ _ _ _ hb⟩

end Checkpoints
