/-
The metrics registry.

A snapshot of the counters is rendered only when every name in it is registered, every
label is one of the closed set of its metric, and every value is a finite number that is
not negative; one entry that is not makes the whole snapshot unreadable.  `Registered`
is that condition, and `renderMetrics_registered` says that it is enough: the closed sets
are small, so the rendered body always fits.

The counters themselves are written without any check.
-/
import DataEngLab.Lib.Dict
import DataEngLab.Checkpoints.Records

namespace Checkpoints

open Lib

/-! ### The registry -/

/-- `_CHECKPOINT_IDS` -/
def checkpointIds : List String :=
  ["streaming-events-v1", "streaming-event-windows-v1", "streaming-online-retail-cdc-v1",
    "streaming-gh-archive-file-v1", "go-live-streaming-test-v1"]

/-- `_DECISIONS` -/
def decisions : List String := ["eligible", "refused", "not_ready", "partial", "completed"]

/-- `_REFUSALS` -/
def refusals : List String :=
  ["clock_overflow", "concrete_prefix_required", "control_read_failed", "exclusive_run_required",
    "future_clock", "generation_identity_mismatch", "invalid_fact_type",
    "invalid_lease_terminal_state", "invalid_terminal_state", "invalid_utc_timestamp",
    "inventory_invalid", "inventory_empty", "inventory_failed", "lease_active",
    "lease_clock_invalid", "lease_missing", "lease_conflicting", "lease_etag_invalid",
    "lease_expired_active_uncertain", "lease_identity_mismatch", "lease_malformed",
    "lease_state_invalid", "lease_terminal_clock_conflict", "object_after_terminal",
    "partial_retry_broadened", "recovery_not_approved", "registry_active_durable",
    "registry_retirement_review_invalid", "registry_retirement_review_missing",
    "retention_quarantine", "retirement_clock_missing", "retirement_review_mismatch",
    "retirement_review_missing", "sink_disposition_not_approved", "source_unavailable",
    "successful_run_required", "terminal_missing", "terminal_identity_mismatch",
    "terminal_malformed", "inventory_changed", "policy_drift", "revalidation_mismatch"]

/-- `_OUTCOMES` -/
def outcomes : List String :=
  ["backend_failure", "capability_failed", "invalid_request", "metrics_saturated", "timeout",
    "unauthorized"]

def objectsMetric : String := "checkpoint_retention_objects"
def bytesMetric : String := "checkpoint_retention_bytes"
def eligibleBytesMetric : String := "checkpoint_retention_eligible_bytes"
def heartbeatAgeMetric : String := "checkpoint_retention_lease_heartbeat_age_seconds"
def lastSuccessMetric : String := "checkpoint_retention_last_success_unixtime"
def plansMetric : String := "checkpoint_retention_plans_total"
def refusalsMetric : String := "checkpoint_retention_refusals_total"
def preparedMetric : String := "checkpoint_retention_prepared_total"
def deletedObjectsMetric : String := "checkpoint_retention_deleted_objects_total"
def deletedBytesMetric : String := "checkpoint_retention_deleted_bytes_total"
def partialMetric : String := "checkpoint_retention_partial_total"
def requestFailuresMetric : String := "checkpoint_retention_request_failures_total"

/-- A metric: the name of its one label, and the values the label may have. -/
structure Contract where
  label : String
  allowed : List String

/-- `_METRICS` -/
def metricContracts : List (String × Contract) :=
  [(objectsMetric, ⟨"checkpoint_id", checkpointIds⟩), (bytesMetric, ⟨"checkpoint_id", checkpointIds⟩),
    (eligibleBytesMetric, ⟨"checkpoint_id", checkpointIds⟩),
    (heartbeatAgeMetric, ⟨"checkpoint_id", checkpointIds⟩),
    (lastSuccessMetric, ⟨"checkpoint_id", checkpointIds⟩), (plansMetric, ⟨"decision", decisions⟩),
    (refusalsMetric, ⟨"refusal_code", refusals⟩), (preparedMetric, ⟨"outcome", decisions⟩),
    (deletedObjectsMetric, ⟨"outcome", decisions⟩), (deletedBytesMetric, ⟨"outcome", decisions⟩),
    (partialMetric, ⟨"outcome", decisions⟩), (requestFailuresMetric, ⟨"outcome", outcomes⟩)]

/-- `_METRICS.get(name)` -/
def contractOf (name : String) : Option Contract := Dict.get? metricContracts name

/-- The label is one the metric may have. -/
def isLabel (c : Contract) (label : Str) : Bool := c.allowed.any fun a => lit a == label

/-! ### Rendering -/

/-- The values of the counters, by metric and by label. -/
abbrev Snapshot := Dict String (Dict Str Int)

inductive RenderError where
  /-- `MetricsFailure`, by its code -/
  | metrics (code : String)
  /-- the `OverflowError` of `math.isfinite` -/
  | overflow
deriving DecidableEq

/-- Whether an integer can be converted to a float: from here on it rounds to `2 ** 1024`. -/
def floatLimit : Nat := 2 ^ 1024 - 2 ^ 970

def isFloat (n : Int) : Bool := n.natAbs < floatLimit

/-- One line of the body. -/
def renderLine (name : String) (c : Contract) (entry : Str × Int) : Str :=
  lit name ++ lit "\x7b" ++ lit c.label ++ lit "=\"" ++ entry.1 ++ lit "\"\x7d " ++ printInt entry.2 ++
    lit "\n"

def renderEntry (name : String) (c : Contract) (entry : Str × Int) : Except RenderError Str := do
  require (isLabel c entry.1) (.metrics "metric_value_invalid")
  require (isFloat entry.2) .overflow
  require (0 ≤ entry.2) (.metrics "metric_value_invalid")
  return renderLine name c entry

/-- `sorted(d)`, with the values; `text` gives the characters of a key. -/
def sortedByKey {κ ν : Type} (text : κ → Str) (d : Dict κ ν) : Dict κ ν :=
  d.insertionSort fun a b => text a.1 ≤ text b.1

def renderMetric (metric : String × Dict Str Int) : Except RenderError (List Str) := do
  let c ← orElse (contractOf metric.1) (.metrics "metric_unknown")
  checkAll (renderEntry metric.1 c) (sortedByKey id metric.2)

def renderMetrics (snapshot : Snapshot) (maxBytes : Nat) : Except RenderError Bytes := do
  let lines ← checkAll renderMetric (sortedByKey lit snapshot)
  let body := asciiBytes lines.flatten.flatten
  require (body.length ≤ maxBytes) (.metrics "metrics_body_bound")
  return body

def maxMetricsBytes : Nat := 65536

/-- What `metrics()` renders in place of a snapshot it cannot render. -/
def fallbackSnapshot : Snapshot := [(requestFailuresMetric, [(lit "backend_failure", 1)])]

/-- `RuntimeBackend.metrics`, which reads the counters at one moment. -/
def metricsBody (snapshot : Snapshot) : Except RenderError Bytes :=
  match renderMetrics snapshot maxMetricsBytes with
  | .error (.metrics _) => renderMetrics fallbackSnapshot maxMetricsBytes
  | r => r

/-! ### Registered snapshots -/

/-- An entry that the renderer takes. -/
structure EntryFits (metric : String) (label : Str) (value : Int) : Prop where
  label_known : (contractOf metric).any (isLabel · label) = true
  nonneg : 0 ≤ value
  finite : isFloat value = true

/-- Registered names, labels from their closed sets, finite values that are not negative, and each
name and each label once. -/
structure Registered (snapshot : Snapshot) : Prop where
  names : snapshot.keys.Nodup
  known : ∀ m ∈ snapshot, (contractOf m.1).isSome = true
  labels : ∀ m ∈ snapshot, m.2.keys.Nodup
  entries : ∀ m ∈ snapshot, ∀ entry ∈ m.2, EntryFits m.1 entry.1 entry.2

theorem registered_empty : Registered [] :=
  ⟨List.nodup_nil, by simp, by simp, by simp⟩

theorem contractOf_mem {name : String} {c : Contract} (h : contractOf name = some c) :
    (name, c) ∈ metricContracts := Dict.mem_of_get? h

/-- The characters of a line that are not its value, at most. -/
def lineBound : Nat := 420

section
variable {name : String} {c : Contract} {entry : Str × Int}

theorem isFloat_digits {n : Int} (h : isFloat n = true) : (decDigits n.natAbs).length ≤ 309 := by
  have hlt : n.natAbs < floatLimit := by simpa [isFloat] using h
  have hle : floatLimit ≤ 10 ^ 309 := by decide +kernel
  exact decDigits_length_le (by omega) (by omega)

theorem labels_short : ∀ x ∈ metricContracts, ∀ a ∈ x.2.allowed,
    (lit x.1).length + (lit x.2.label).length + (lit a).length ≤ 100 := by
  decide

theorem EntryFits.label (h : EntryFits name entry.1 entry.2) (hc : contractOf name = some c) :
    ∃ a ∈ c.allowed, lit a = entry.1 := by
  have hknown := h.label_known
  rw [hc] at hknown
  simpa [isLabel] using hknown

theorem renderLine_length (h : EntryFits name entry.1 entry.2) (hc : contractOf name = some c) :
    (renderLine name c entry).length ≤ lineBound := by
  obtain ⟨a, ha, hlabel⟩ := h.label hc
  have hshort := labels_short _ (contractOf_mem hc) a ha
  have hdigits := isFloat_digits h.finite
  have hneg : ¬ entry.2 < 0 := not_lt.mpr h.nonneg
  simp only [renderLine, ← hlabel, printInt, hneg, if_false, List.length_append]
  have h1 : (lit "\x7b").length = 1 := rfl
  have h2 : (lit "=\"").length = 2 := rfl
  have h3 : (lit "\"\x7d ").length = 3 := rfl
  have h4 : (lit "\n").length = 1 := rfl
  simp only [h1, h2, h3, h4, lineBound]
  simp only at hshort
  omega

theorem renderEntry_eq (h : EntryFits name entry.1 entry.2) (hc : contractOf name = some c) :
    renderEntry name c entry = .ok (renderLine name c entry) := by
  have hknown := h.label_known
  rw [hc, Option.any_some] at hknown
  simp [renderEntry, hknown, h.finite, h.nonneg]

end

/-! ### The size of a body -/

/-- The labels of a registered metric. -/
def labelCount (name : String) : Nat := ((contractOf name).map fun c => c.allowed.length).getD 0

theorem labelCount_sum : ((metricContracts.map Prod.fst).map labelCount).sum * lineBound ≤ maxMetricsBytes := by
  decide +kernel

section
variable {snapshot : Snapshot} {m : String × Dict Str Int} {c : Contract}

theorem sortedByKey_perm {κ ν : Type} (text : κ → Str) (d : Dict κ ν) : (sortedByKey text d).Perm d :=
  List.perm_insertionSort _ _

theorem mem_sortedByKey {κ ν : Type} {text : κ → Str} {d : Dict κ ν} {x : κ × ν} :
    x ∈ sortedByKey text d ↔ x ∈ d := (sortedByKey_perm text d).mem_iff

theorem flatten_length_le {lines : List Str} {n : Nat} (h : ∀ l ∈ lines, l.length ≤ n) :
    lines.flatten.length ≤ lines.length * n := by
  induction lines with
  | nil => simp
  | cons l ls ih =>
      simp only [List.forall_mem_cons] at h
      have hls := ih h.2
      have hl := h.1
      simp only [List.flatten_cons, List.length_append, List.length_cons]
      rw [Nat.add_mul]
      omega

theorem contractOf_name (hc : contractOf m.1 = some c) : m.1 ∈ metricContracts.map Prod.fst :=
  List.mem_map.mpr ⟨_, contractOf_mem hc, rfl⟩

/-- A metric has no more lines than labels. -/
theorem Registered.lines_le (h : Registered snapshot) (hm : m ∈ snapshot) :
    m.2.length ≤ labelCount m.1 := by
  obtain ⟨c, hc⟩ := Option.isSome_iff_exists.mp (h.known m hm)
  have hsub : m.2.keys ⊆ c.allowed.map lit := by
    intro label hlabel
    obtain ⟨entry, hentry, rfl⟩ := List.mem_map.mp hlabel
    obtain ⟨a, ha, heq⟩ := (h.entries m hm entry hentry).label hc
    exact List.mem_map.mpr ⟨a, ha, heq⟩
  have hle := ((h.labels m hm).subperm hsub).length_le
  simpa [Dict.keys, labelCount, hc] using hle

/-- The lines of a registered metric. -/
def metricLines (m : String × Dict Str Int) : List Str :=
  (sortedByKey id m.2).map (renderLine m.1 ((contractOf m.1).getD ⟨"", []⟩))

theorem Registered.renderMetric_eq (h : Registered snapshot) (hm : m ∈ snapshot) :
    renderMetric m = .ok (metricLines m) := by
  obtain ⟨c, hc⟩ := Option.isSome_iff_exists.mp (h.known m hm)
  have hlines : checkAll (renderEntry m.1 c) (sortedByKey id m.2) = .ok (metricLines m) := by
    unfold metricLines
    rw [hc]
    refine checkAll_eq_map fun entry hentry => ?_
    exact renderEntry_eq (h.entries m hm entry (mem_sortedByKey.mp hentry)) hc
  rw [renderMetric, hc]
  exact hlines

theorem Registered.metricLines_length (h : Registered snapshot) (hm : m ∈ snapshot) :
    (metricLines m).flatten.length ≤ labelCount m.1 * lineBound := by
  obtain ⟨c, hc⟩ := Option.isSome_iff_exists.mp (h.known m hm)
  have hline : ∀ l ∈ metricLines m, l.length ≤ lineBound := by
    intro l hl
    obtain ⟨entry, hentry, rfl⟩ := List.mem_map.mp hl
    rw [hc]
    exact renderLine_length (h.entries m hm entry (mem_sortedByKey.mp hentry)) hc
  have hcount : (metricLines m).length = m.2.length := by
    simp [metricLines, (sortedByKey_perm _ m.2).length_eq]
  calc (metricLines m).flatten.length ≤ (metricLines m).length * lineBound := flatten_length_le hline
    _ ≤ labelCount m.1 * lineBound := by
        rw [hcount]
        exact Nat.mul_le_mul_right _ (h.lines_le hm)

theorem flatten_flatten_length {lines : List (List Str)} {bound : List Nat}
    (h : List.Forall₂ (fun ls n => ls.flatten.length ≤ n) lines bound) :
    lines.flatten.flatten.length ≤ bound.sum := by
  induction h with
  | nil => simp
  | cons hls _ ih =>
      simp only [List.flatten_cons, List.flatten_append, List.length_append, List.sum_cons]
      omega

theorem Registered.body_length (h : Registered snapshot) :
    ((sortedByKey lit snapshot).map metricLines).flatten.flatten.length ≤ maxMetricsBytes := by
  have hperm := sortedByKey_perm lit snapshot
  have hall : List.Forall₂ (fun (ls : List Str) n => ls.flatten.length ≤ n)
      ((sortedByKey lit snapshot).map metricLines)
      ((sortedByKey lit snapshot).map fun m => labelCount m.1 * lineBound) := by
    rw [List.forall₂_map_left_iff, List.forall₂_map_right_iff]
    exact List.forall₂_same.mpr fun m hm => h.metricLines_length (mem_sortedByKey.mp hm)
  have hsub : snapshot.keys ⊆ metricContracts.map Prod.fst := by
    intro name hname
    obtain ⟨m, hm, rfl⟩ := List.mem_map.mp hname
    obtain ⟨c, hc⟩ := Option.isSome_iff_exists.mp (h.known m hm)
    exact contractOf_name hc
  calc _ ≤ ((sortedByKey lit snapshot).map fun m => labelCount m.1 * lineBound).sum :=
        flatten_flatten_length hall
    _ = (snapshot.map fun m => labelCount m.1 * lineBound).sum := (hperm.map _).sum_eq
    _ = ((snapshot.keys.map labelCount).sum) * lineBound := by
        rw [Dict.keys, List.map_map, ← List.sum_map_mul_right]
        rfl
    _ ≤ ((metricContracts.map Prod.fst).map labelCount).sum * lineBound :=
        Nat.mul_le_mul_right _ (sum_map_le_of_subset labelCount h.names hsub)
    _ ≤ maxMetricsBytes := labelCount_sum

/-- **A registered snapshot is rendered**, and within the bound. -/
theorem Registered.renders (h : Registered snapshot) :
    ∃ body, renderMetrics snapshot maxMetricsBytes = .ok body ∧ metricsBody snapshot = .ok body := by
  have hlines : checkAll renderMetric (sortedByKey lit snapshot) =
      .ok ((sortedByKey lit snapshot).map metricLines) :=
    checkAll_eq_map fun m hm => h.renderMetric_eq (mem_sortedByKey.mp hm)
  have hrender : renderMetrics snapshot maxMetricsBytes =
      .ok (asciiBytes ((sortedByKey lit snapshot).map metricLines).flatten.flatten) := by
    refine bind_eq_ok.mpr ⟨_, hlines, bind_eq_ok.mpr ⟨(), require_eq_ok.mpr ?_, rfl⟩⟩
    rw [decide_eq_true_eq, asciiBytes, List.length_map]
    exact h.body_length
  refine ⟨_, hrender, ?_⟩
  rw [metricsBody, hrender]

end

end Checkpoints
