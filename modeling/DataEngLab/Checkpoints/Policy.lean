/-
The checkpoint registry.

`parsePolicy` starts from the value the YAML loader returns.  It accepts almost nothing:
the numbers are fixed, the five entries and their order are fixed, and what an operator
may change is whether each of the three durable streams is active or retired, and when
and by which review it was retired.  `parsePolicy_wellFormed` says exactly that, and it is
the only thing the rest of the development needs to know of a policy.

A prefix names a checkpoint in one of three ways: a durable stream owns one fixed prefix,
the file stream one prefix per generation, and the acceptance run one per run.
-/
import DataEngLab.Lib.Utc
import DataEngLab.Lib.JsonDumps
import DataEngLab.Lib.Digest
import DataEngLab.Lib.Checks

namespace Checkpoints

open Lib

/-- `PolicyError`, by its code. -/
inductive PolicyFailure where
  | policy (code : String)
  /-- a `TypeError` or `ValueError` of the runtime that no handler turns into a code -/
  | runtime
deriving DecidableEq

/-! ### Records -/

structure LeasePolicy where
  heartbeatSeconds : Nat
  ttlSeconds : Nat
  futureToleranceSeconds : Nat
  quiescenceSeconds : Nat
deriving DecidableEq

structure OperationBounds where
  maxPages : Nat
  maxObjects : Nat
  maxBytes : Nat
  maxDeleteKeys : Nat
  maxActiveSeconds : Nat
  maxSummaryBytes : Nat
  maxManifestShardBytes : Nat
deriving DecidableEq

inductive Lifecycle where
  | active
  | retired
deriving DecidableEq

inductive Durability where
  | durableStream
  | generationReproducibility
  | disposableAcceptance
deriving DecidableEq

def Lifecycle.text : Lifecycle → String
  | .active => "active"
  | .retired => "retired"

def Durability.text : Durability → String
  | .durableStream => "durable_stream"
  | .generationReproducibility => "generation_reproducibility"
  | .disposableAcceptance => "disposable_acceptance"

/-- The states a lease of this durability ends in. -/
def Durability.leaseStates : Durability → List String
  | .durableStream => ["stopped", "retired"]
  | .generationReproducibility => ["completed", "stopped"]
  | .disposableAcceptance => ["stopped"]

/-- What the registry fixes of an entry: `_EXPECTED_ENTRIES`. -/
structure ExpectedEntry where
  checkpointId : String
  keyPrefix : String
  owner : String
  workload : String
  source : String
  sink : String
  durability : Durability
  terminalStates : List String
  retentionSeconds : Nat
  recoveryClass : String
  sinkDisposition : String
  concurrentWriters : String
  retirementAuthorization : String
  scales : Option (List String)
deriving DecidableEq

structure CheckpointEntry extends ExpectedEntry where
  lifecycle : Lifecycle
  retiredAt : Option Instant
  retirementReview : Option Str
deriving DecidableEq

structure CheckpointPolicy where
  version : Nat
  bucket : String
  controlPrefix : String
  lease : LeasePolicy
  bounds : OperationBounds
  entries : List CheckpointEntry
deriving DecidableEq

structure MatchedCheckpoint where
  checkpointId : String
  keyPrefix : Str
  generation : List (String × Str)
deriving DecidableEq

def leaseValues : LeasePolicy := ⟨60, 600, 300, 900⟩

def boundValues : OperationBounds := ⟨100, 100000, 10737418240, 1000, 900, 65536, 1048576⟩

def generationTemplate : String := "gh_events_file/\x7bscale\x7d/\x7bpublication_id\x7d/\x7bmanifest_sha256\x7d/"

def scratchTemplate : String := "streaming_test/\x7brun_uuid\x7d/"

/-- The three durable streams share all but their identity, prefix, workload, source and sink. -/
def durableEntry (checkpointId keyPrefix workload source sink : String) : ExpectedEntry where
  checkpointId := checkpointId
  keyPrefix := keyPrefix
  owner := "Streaming Data Engineering"
  workload := workload
  source := source
  sink := sink
  durability := .durableStream
  terminalStates := ["stopped", "retired"]
  retentionSeconds := 2592000
  recoveryClass := "coordinated_replay"
  sinkDisposition := "snapshot_or_reset"
  concurrentWriters := "forbidden"
  retirementAuthorization := "required"
  scales := none

def streamingEvents : ExpectedEntry :=
  durableEntry "streaming-events-v1" "events/" "streaming_ingest-events-spark-iceberg"
    "redpanda:events" "lakehouse.bronze.events"

def streamingEventWindows : ExpectedEntry :=
  durableEntry "streaming-event-windows-v1" "event_windows/" "streaming_windows-events-spark-iceberg"
    "redpanda:events" "lakehouse.gold.event_windows"

def streamingOnlineRetailCdc : ExpectedEntry :=
  durableEntry "streaming-online-retail-cdc-v1" "online_retail_cdc/"
    "cdc_streaming-online_retail-spark-iceberg" "redpanda:online_retail_cdc"
    "lakehouse.silver.online_retail_cdc"

def streamingGhArchiveFile : ExpectedEntry where
  checkpointId := "streaming-gh-archive-file-v1"
  keyPrefix := generationTemplate
  owner := "Streaming Data Engineering Education"
  workload := "streaming_ingest-gh_archive-spark-iceberg"
  source := "resolver:gh_archive"
  sink := "lakehouse.bronze.gh_events_stream"
  durability := .generationReproducibility
  terminalStates := ["completed", "stopped"]
  retentionSeconds := 1209600
  recoveryClass := "exact_generation_replay"
  sinkDisposition := "reset_required"
  concurrentWriters := "forbidden"
  retirementAuthorization := "not_applicable"
  scales := some ["tiny", "small", "medium"]

def goLiveStreamingTest : ExpectedEntry where
  checkpointId := "go-live-streaming-test-v1"
  keyPrefix := scratchTemplate
  owner := "Lab Acceptance Engineering"
  workload := "go-live-streaming-test"
  source := "bounded_synthetic"
  sink := "s3a://lakehouse/bronze/streaming_test"
  durability := .disposableAcceptance
  terminalStates := ["successful", "stopped"]
  retentionSeconds := 86400
  recoveryClass := "disposable_recreate"
  sinkDisposition := "reset_required"
  concurrentWriters := "forbidden"
  retirementAuthorization := "not_applicable"
  scales := none

/-- `_EXPECTED_ENTRIES`, in its order. -/
def expectedEntries : List ExpectedEntry :=
  [streamingEvents, streamingEventWindows, streamingOnlineRetailCdc, streamingGhArchiveFile,
    goLiveStreamingTest]

/-- The registry as it is shipped: nothing retired. -/
def registry : CheckpointPolicy where
  version := 1
  bucket := "checkpoints"
  controlPrefix := "_retention/"
  lease := leaseValues
  bounds := boundValues
  entries := expectedEntries.map fun e =>
    { e with lifecycle := .active, retiredAt := none, retirementReview := none }

/-! ### Prefixes -/

/-- Whether `needle` occurs in `s`. -/
def contains (needle : Str) : Str → Bool
  | [] => needle.isEmpty
  | c :: s => needle.isPrefixOf (c :: s) || contains needle s

/-- `_validate_concrete_prefix`, for a value that is a string. -/
def validateConcretePrefix (keyPrefix : Str) (controlPrefix : String) : Except PolicyFailure Unit :=
  if keyPrefix.isEmpty || !(lit "/").isSuffixOf keyPrefix || (lit "/").isPrefixOf keyPrefix ||
      (lit controlPrefix).isPrefixOf keyPrefix || contains (lit "://") keyPrefix ||
      contains (lit "\\") keyPrefix || contains (lit "//") keyPrefix ||
      (keyPrefix.dropLast.splitOn 47).any (fun part => part ∈ [[], lit ".", lit ".."]) ||
      !isAscii keyPrefix then
    .error (.policy (if (lit controlPrefix).isPrefixOf keyPrefix then "control_prefix" else "unsafe_prefix"))
  else .ok ()

/-- The groups of `_SCRATCH_PATTERN`. -/
def scratchPattern : Pattern := uuidPattern isHex isHex

def matchScratch (keyPrefix : Str) : Option (List (String × Str)) :=
  let head := lit "streaming_test/"
  if head.isPrefixOf keyPrefix then
    let run := (keyPrefix.drop head.length).dropLast
    if (Pattern.text head ++ scratchPattern ++ Pattern.text (lit "/")).fullmatch keyPrefix then
      some [("run_uuid", run)]
    else none
  else none

def scaleNames : List String := ["tiny", "small", "medium"]

/-- `_GENERATION_PATTERN` with its scale spelled out. -/
def generationPattern (scale : String) : Pattern :=
  Pattern.text (lit "gh_events_file/") ++ Pattern.text (lit scale) ++ Pattern.text (lit "/") ++
    Pattern.times 32 isHex ++ Pattern.text (lit "/") ++ Pattern.times 64 isHex ++
    Pattern.text (lit "/")

/-- The groups of `_GENERATION_PATTERN`. -/
def matchGeneration (keyPrefix : Str) : Option (List (String × Str)) :=
  (scaleNames.find? fun scale => (generationPattern scale).fullmatch keyPrefix).map fun scale =>
    let rest := keyPrefix.drop (15 + scale.length + 1)
    [("scale", lit scale), ("publication_id", rest.take 32),
      ("manifest_sha256", (rest.drop 33).take 64)]

/-- One step of the loop of `match_prefix`. -/
def CheckpointEntry.match? (entry : CheckpointEntry) (keyPrefix : Str) : Option MatchedCheckpoint :=
  if entry.keyPrefix = scratchTemplate then
    (matchScratch keyPrefix).map fun g => ⟨entry.checkpointId, keyPrefix, g⟩
  else
    match entry.scales with
    | none => if keyPrefix = lit entry.keyPrefix then some ⟨entry.checkpointId, keyPrefix, []⟩ else none
    | some scales =>
        match matchGeneration keyPrefix with
        | some g =>
            if scales.any fun scale => ("scale", lit scale) ∈ g then
              some ⟨entry.checkpointId, keyPrefix, g⟩
            else none
        | none => none

/-- `match_prefix`, for a prefix that is a string. -/
def CheckpointPolicy.matchPrefix (policy : CheckpointPolicy) (keyPrefix : Str) :
    Except PolicyFailure MatchedCheckpoint :=
  match validateConcretePrefix keyPrefix policy.controlPrefix with
  | .error e => .error e
  | .ok () =>
      match policy.entries.findSome? fun entry => entry.match? keyPrefix with
      | some matched => .ok matched
      | none => .error (.policy "unknown_prefix")

/-- `policy.entries[checkpoint_id]` -/
def CheckpointPolicy.entry? (policy : CheckpointPolicy) (checkpointId : String) :
    Option CheckpointEntry :=
  policy.entries.find? fun entry => entry.checkpointId = checkpointId

/-! ### Parsing -/

/-- What the YAML loader returns; `other` is a float, a date or a byte string. -/
inductive Yaml where
  | null
  | bool (b : Bool)
  | int (n : Int)
  | str (s : Str)
  | seq (xs : List Yaml)
  | map (kvs : List (Yaml × Yaml))
  | other

def Yaml.str? : Yaml → Option Str
  | .str s => some s
  | _ => none

/-- `value[key]` and `value.get(key)`, absence read as `None`. -/
def Yaml.get (key : String) : List (Str × Yaml) → Yaml
  | [] => .null
  | (k, v) :: rest => if k = lit key then v else get key rest

def requireMapping (value : Yaml) (code : String) : Except PolicyFailure (List (Str × Yaml)) :=
  match value with
  | .map kvs => checkAll (fun kv => match kv.1 with
      | .str k => .ok (k, kv.2)
      | _ => .error (.policy code)) kvs
  | _ => .error (.policy code)

def requireExactKeys (value : List (Str × Yaml)) (expected : List String) : Except PolicyFailure Unit := do
  require (value.all fun kv => expected.any fun k => kv.1 == lit k) (.policy "unknown_field")
  require (expected.all fun k => value.any fun kv => kv.1 == lit k) (.policy "missing_field")

/-- `_require_exact` against a string. -/
def requireExact (value : Yaml) (expected code : String) : Except PolicyFailure Unit :=
  require (value.str? == some (lit expected)) (.policy code)

def requireExactInt (value : Yaml) (expected : Nat) (code : String) : Except PolicyFailure Unit :=
  match value with
  | .int n => require (n == expected) (.policy code)
  | _ => .error (.policy "invalid_type")

/-- `_SAFE_FIXED_PREFIX`: `(?:[a-z0-9][a-z0-9_-]*/)+` -/
def safeFixedPrefix (keyPrefix : Str) : Bool :=
  let lowerAlnum := fun c => isDigit c || (97 ≤ c && c ≤ 122)
  let parts := keyPrefix.splitOn 47
  2 ≤ parts.length && parts.getLast? == some [] &&
    parts.dropLast.all fun part =>
      match part with
      | [] => false
      | c :: rest => lowerAlnum c && rest.all fun d => lowerAlnum d || d == 95 || d == 45

/-- `_SAFE_REVIEW`: a letter or digit, then at most 127 of these or of `.`, `_`, the slash and the
hyphen. -/
def safeReview (s : Str) : Bool :=
  match s with
  | [] => false
  | c :: rest => isAlnum c && rest.length ≤ 127 &&
      rest.all fun d => isAlnum d || d == 46 || d == 95 || d == 47 || d == 45

def validateRegistryPrefix (value : Yaml) (controlPrefix : String) : Except PolicyFailure Str :=
  match value with
  | .str keyPrefix =>
      if keyPrefix ∈ [lit generationTemplate, lit scratchTemplate] then .ok keyPrefix
      else do
        validateConcretePrefix keyPrefix controlPrefix
        require (safeFixedPrefix keyPrefix) (.policy "unsafe_prefix")
        return keyPrefix
  | _ => .error (.policy "invalid_type")

/-- `prefix.split("{", 1)[0]` -/
def prefixRoot (keyPrefix : Str) : Str := keyPrefix.takeWhile (· != 123)

def rejectOverlappingPrefixes : List Str → Except PolicyFailure Unit
  | [] => .ok ()
  | p :: ps => do
      require (!ps.any fun other =>
        (prefixRoot other).isPrefixOf (prefixRoot p) || (prefixRoot p).isPrefixOf (prefixRoot other))
        (.policy "overlapping_prefix")
      rejectOverlappingPrefixes ps

def entryKeys : List String :=
  ["checkpoint_id", "prefix", "owner", "workload", "source", "sink", "lifecycle", "durability",
    "terminal_states", "retention_seconds", "recovery_class", "sink_disposition",
    "concurrent_writers", "retirement_authorization"]

def allowedKeys (expected : ExpectedEntry) : List String :=
  if expected.durability = .durableStream then entryKeys ++ ["retired_at", "retirement_review"]
  else if expected.scales.isSome then entryKeys ++ ["scales"]
  else entryKeys

/-- The entry fields that are plain text, with the values expected of them, in the order
they are compared. -/
def ExpectedEntry.texts (e : ExpectedEntry) : List (String × String) :=
  [("prefix", e.keyPrefix), ("owner", e.owner), ("workload", e.workload), ("source", e.source),
    ("sink", e.sink), ("durability", e.durability.text), ("recovery_class", e.recoveryClass),
    ("sink_disposition", e.sinkDisposition), ("concurrent_writers", e.concurrentWriters),
    ("retirement_authorization", e.retirementAuthorization)]

def nonemptyText (value : Yaml) : Bool :=
  match value with
  | .str s => !s.isEmpty
  | _ => false

/-- `lifecycle not in allowed_lifecycle`, which fails on a value that has no hash. -/
def parseLifecycle (expected : ExpectedEntry) (value : Yaml) : Except PolicyFailure Lifecycle :=
  match value with
  | .str s =>
      if s = lit "active" then .ok .active
      else if s = lit "retired" ∧ expected.durability = .durableStream then .ok .retired
      else .error (.policy "invalid_lifecycle")
  | .seq _ => .error .runtime
  | .map _ => .error .runtime
  | _ => .error (.policy "invalid_lifecycle")

/-- The review and the time of a retirement, present exactly when the entry is retired. -/
def parseRetirement (expected : ExpectedEntry) (lifecycle : Lifecycle) (at? review : Yaml) :
    Except PolicyFailure (Option Instant × Option Str) :=
  if expected.durability = .durableStream then
    match lifecycle, at?, review with
    | .active, .null, .null => .ok (none, none)
    | .retired, .str t, .str r =>
        match parseUtc t with
        | some retiredAt =>
            if safeReview r then .ok (some retiredAt, some r)
            else .error (.policy "invalid_retirement_transition")
        | none => .error (.policy "invalid_retirement_transition")
    | _, _, _ => .error (.policy "invalid_retirement_transition")
  else .ok (none, none)

def parseTexts (value : Yaml) : Except PolicyFailure (List Str) :=
  match value with
  | .seq xs => checkAll (fun x => orElse x.str? (.policy "invalid_type")) xs
  | _ => .error (.policy "invalid_type")

def checkText (raw : List (Str × Yaml)) (field : String × String) : Except PolicyFailure Unit := do
  let actual := Yaml.get field.1 raw
  if actual.str? == some (lit field.2) then return ()
  else
    if field.1 = "prefix" then
      let _ ← validateRegistryPrefix actual "_retention/"
    .error (.policy ("invalid_" ++ field.1))

def checkScales (expected : ExpectedEntry) (value : Yaml) : Except PolicyFailure Unit :=
  match expected.scales with
  | some scales => do
      let actual ← parseTexts value
      require (actual == scales.map lit) (.policy "invalid_scales")
  | none => .ok ()

def parseEntry (raw : List (Str × Yaml)) : Except PolicyFailure CheckpointEntry := do
  let checkpointId ← orElse (Yaml.get "checkpoint_id" raw).str? (.policy "invalid_type")
  let expected ← orElse (expectedEntries.find? fun e => lit e.checkpointId = checkpointId)
    (.policy "invalid_checkpoint_id")
  requireExactKeys raw (allowedKeys expected)
  require ((entryKeys.filter fun k => k ∉ ["terminal_states", "retention_seconds", "lifecycle"]).all
    fun k => nonemptyText (Yaml.get k raw)) (.policy "invalid_type")
  let lifecycle ← parseLifecycle expected (Yaml.get "lifecycle" raw)
  let retirement ← parseRetirement expected lifecycle (Yaml.get "retired_at" raw)
    (Yaml.get "retirement_review" raw)
  let states ← parseTexts (Yaml.get "terminal_states" raw)
  require (states == expected.terminalStates.map lit) (.policy "invalid_terminal_states")
  requireExactInt (Yaml.get "retention_seconds" raw) expected.retentionSeconds "invalid_retention"
  checkScales expected (Yaml.get "scales" raw)
  let _ ← checkAll (checkText raw) expected.texts
  let _ ← validateRegistryPrefix (Yaml.get "prefix" raw) "_retention/"
  return { expected with
    lifecycle := lifecycle, retiredAt := retirement.1, retirementReview := retirement.2 }

/-- The fields of the registry's lease section, with the values fixed for them. -/
def LeasePolicy.fields (l : LeasePolicy) : List (String × Nat) :=
  [("heartbeat_seconds", l.heartbeatSeconds), ("ttl_seconds", l.ttlSeconds),
    ("future_tolerance_seconds", l.futureToleranceSeconds),
    ("quiescence_seconds", l.quiescenceSeconds)]

def OperationBounds.fields (b : OperationBounds) : List (String × Nat) :=
  [("max_pages", b.maxPages), ("max_objects", b.maxObjects), ("max_bytes", b.maxBytes),
    ("max_delete_keys", b.maxDeleteKeys), ("max_active_seconds", b.maxActiveSeconds),
    ("max_summary_bytes", b.maxSummaryBytes),
    ("max_manifest_shard_bytes", b.maxManifestShardBytes)]

def checkNumbers (value : Yaml) (fields : List (String × Nat)) (code : String) :
    Except PolicyFailure Unit := do
  let values ← requireMapping value "invalid_type"
  requireExactKeys values (fields.map Prod.fst)
  let _ ← checkAll (fun f => requireExactInt (Yaml.get f.1 values) f.2 code) fields

/-- The first pass over the entries: no identity twice, and every prefix well formed. -/
def checkIdentities (seen : List Str) : List (List (Str × Yaml)) → Except PolicyFailure (List Str)
  | [] => .ok []
  | item :: items => do
      let checkpointId := (Yaml.get "checkpoint_id" item).str?
      require (checkpointId.all fun c => c ∉ seen) (.policy "duplicate_checkpoint_id")
      let keyPrefix ← validateRegistryPrefix (Yaml.get "prefix" item) "_retention/"
      let rest ← checkIdentities (checkpointId.toList ++ seen) items
      return keyPrefix :: rest

def parseItems (value : Yaml) : Except PolicyFailure (List (List (Str × Yaml))) :=
  match value with
  | .seq items => checkAll (fun item => requireMapping item "invalid_type") items
  | _ => .error (.policy "invalid_type")

def parsePolicyValue (raw : Yaml) : Except PolicyFailure CheckpointPolicy := do
  let root ← requireMapping raw "invalid_type"
  requireExactKeys root ["version", "bucket", "control_prefix", "lease", "bounds", "checkpoints"]
  requireExactInt (Yaml.get "version" root) 1 "invalid_type"
  requireExact (Yaml.get "bucket" root) "checkpoints" "invalid_bucket"
  requireExact (Yaml.get "control_prefix" root) "_retention/" "invalid_control_prefix"
  checkNumbers (Yaml.get "lease" root) leaseValues.fields "invalid_lease_policy"
  checkNumbers (Yaml.get "bounds" root) boundValues.fields "invalid_bound"
  let items ← parseItems (Yaml.get "checkpoints" root)
  let prefixes ← checkIdentities [] items
  rejectOverlappingPrefixes prefixes
  let entries ← checkAll parseEntry items
  require (entries.map (·.checkpointId) == expectedEntries.map (·.checkpointId))
    (.policy "invalid_checkpoint_inventory")
  rejectOverlappingPrefixes (entries.map fun e => lit e.keyPrefix)
  return ⟨1, "checkpoints", "_retention/", leaseValues, boundValues, entries⟩

def maxPolicyBytes : Nat := 262144

/-- `parse_policy`; `load` is the YAML loader, its own limits included. -/
def parsePolicy (load : Str → Except PolicyFailure Yaml) (text : Str) :
    Except PolicyFailure CheckpointPolicy := do
  require (text.length ≤ maxPolicyBytes) (.policy "policy_too_large")
  let encoded ← orElse (utf8Encode text) (.policy "invalid_yaml")
  require (encoded.length ≤ maxPolicyBytes) (.policy "policy_too_large")
  let raw ← load text
  parsePolicyValue raw

/-! ### What is accepted -/

/-- An entry of an accepted registry: as expected, and retired only with a time and a review. -/
structure CheckpointEntry.WellFormed (e : CheckpointEntry) : Prop where
  expected : e.toExpectedEntry ∈ expectedEntries
  active : e.lifecycle = .active → e.retiredAt = none ∧ e.retirementReview = none
  retired : e.lifecycle = .retired → e.durability = .durableStream ∧
    ∃ t r, e.retiredAt = some t ∧ e.retirementReview = some r ∧ safeReview r = true

/-- An accepted registry. -/
structure CheckpointPolicy.WellFormed (p : CheckpointPolicy) : Prop where
  version : p.version = 1
  bucket : p.bucket = "checkpoints"
  controlPrefix : p.controlPrefix = "_retention/"
  lease : p.lease = leaseValues
  bounds : p.bounds = boundValues
  entry : ∀ e ∈ p.entries, e.WellFormed
  inventory : p.entries.map (·.toExpectedEntry) = expectedEntries

theorem parseLifecycle_ok {expected : ExpectedEntry} {value : Yaml} {l : Lifecycle}
    (h : parseLifecycle expected value = .ok l) :
    l = .retired → expected.durability = .durableStream := by
  unfold parseLifecycle at h
  split at h
  · split at h
    · simp only [Except.ok.injEq] at h
      rintro rfl
      cases h
    · split at h
      · rename_i hc
        exact fun _ => hc.2
      · cases h
  · cases h
  · cases h
  · cases h

theorem parseRetirement_ok {expected : ExpectedEntry} {l : Lifecycle} {a r : Yaml}
    {res : Option Instant × Option Str} (hl : l = .retired → expected.durability = .durableStream)
    (h : parseRetirement expected l a r = .ok res) :
    (l = .active → res = (none, none)) ∧
      (l = .retired → ∃ t v, res = (some t, some v) ∧ safeReview v = true) := by
  unfold parseRetirement at h
  split at h
  · split at h
    · simp only [Except.ok.injEq] at h
      exact ⟨fun _ => h.symm, nofun⟩
    · split at h
      · split at h
        · rename_i hsafe
          simp only [Except.ok.injEq] at h
          exact ⟨nofun, fun _ => ⟨_, _, h.symm, hsafe⟩⟩
        · cases h
      · cases h
    · cases h
  · rename_i hd
    simp only [Except.ok.injEq] at h
    refine ⟨fun _ => h.symm, fun hc => absurd (hl hc) hd⟩

theorem parseEntry_ok {raw : List (Str × Yaml)} {e : CheckpointEntry}
    (h : parseEntry raw = .ok e) : e.WellFormed := by
  simp only [parseEntry, bind_eq_ok, pure_eq_ok, orElse_eq_ok] at h
  obtain ⟨_, _, expected, hfind, _, _, _, _, l, hl, res, hres, _, _, _, _, _, _, _, _, _, _, _, _,
    rfl⟩ := h
  have hret := parseLifecycle_ok hl
  obtain ⟨hactive, hretired⟩ := parseRetirement_ok hret hres
  refine ⟨List.mem_of_find?_eq_some hfind, fun hl => ?_, fun hl => ⟨hret hl, ?_⟩⟩
  · rw [hactive hl]
    exact ⟨rfl, rfl⟩
  · obtain ⟨t, v, hv, hsafe⟩ := hretired hl
    rw [hv]
    exact ⟨t, v, rfl, rfl, hsafe⟩

/-- Entries with the identities of the registry, each as expected, are the registry's. -/
theorem expected_of_ids {es : List CheckpointEntry} (hwf : ∀ e ∈ es, e.WellFormed)
    (hids : es.map (·.checkpointId) = expectedEntries.map (·.checkpointId)) :
    es.map (·.toExpectedEntry) = expectedEntries := by
  have hinj : ∀ a ∈ expectedEntries, ∀ b ∈ expectedEntries,
      a.checkpointId = b.checkpointId → a = b := by decide
  have hlen : es.length = expectedEntries.length := by
    have := congrArg List.length hids
    simpa using this
  refine List.ext_getElem (by simpa using hlen) fun i h1 h2 => ?_
  simp only [List.length_map] at h1
  rw [List.getElem_map]
  refine hinj _ (hwf _ (List.getElem_mem h1)).expected _ (List.getElem_mem h2) ?_
  have := congrArg (fun l => l[i]?) hids
  simpa [h1, h2] using this

theorem parsePolicyValue_wellFormed {raw : Yaml} {p : CheckpointPolicy}
    (h : parsePolicyValue raw = .ok p) : p.WellFormed := by
  simp only [parsePolicyValue, bind_eq_ok, pure_eq_ok, require_eq_ok, beq_iff_eq] at h
  obtain ⟨_, _, _, _, _, _, _, _, _, _, _, _, _, _, items, _, _, _, _, _, entries, hentries, _, hids,
    _, _, rfl⟩ := h
  have hwf : ∀ e ∈ entries, e.WellFormed := by
    intro e he
    obtain ⟨raw, -, hraw⟩ := checkAll_mem hentries he
    exact parseEntry_ok hraw
  exact ⟨rfl, rfl, rfl, rfl, rfl, hwf, expected_of_ids hwf hids⟩

/-- **An accepted registry is the expected one, up to which streams are retired.** -/
theorem parsePolicy_wellFormed {load : Str → Except PolicyFailure Yaml} {text : Str}
    {p : CheckpointPolicy} (h : parsePolicy load text = .ok p) : p.WellFormed := by
  simp only [parsePolicy, bind_eq_ok] at h
  obtain ⟨_, _, _, _, _, _, raw, _, hraw⟩ := h
  exact parsePolicyValue_wellFormed hraw

end Checkpoints
