/-
The two texts of the catalog probe: the answer it decodes and the metrics it renders.

An answer is an object within bounds.  `validateBounds` walks it with a stack and counts
nodes, so it stops on any value; what it accepts is stated over the value as a whole, its
nodes, its nesting and its floats (`validateBounds_ok_iff`).

A result that passes its check is rendered, whatever the duration, as long as the text of a
float is short and ASCII (`renderMetrics_ok`).
-/
import DataEngLab.Lib.Checks
import DataEngLab.Lib.JsonBounds
import DataEngLab.Lib.JsonFloats
import Mathlib.Algebra.Order.Field.Rat
import Mathlib.Tactic.Linarith

namespace Observability

namespace Probe

open Lib

/-- What a step of the probe raises, by the clauses that tell the families apart. -/
inductive Raised where
  | httpError (code : Nat)
  /-- `TimeoutError`, which is `socket.timeout` -/
  | timeoutError
  /-- any other `URLError`; is its reason a `TimeoutError`? -/
  | urlError (timedOut : Bool)
  | remoteDisconnected
  | httpException
  | osError
  | probeFailure (message : String)
  /-- `ValueError`, `OverflowError`, `RuntimeError` -/
  | other
deriving DecidableEq

/-! ### The answer of the catalog -/

def maxCatalogBodyBytes : Nat := 65536

def maxJsonDepth : Nat := 16

def maxJsonNodes : Nat := 4096

/-- `_malformed` -/
def malformed : Raised := .probeFailure "catalog_response_malformed"

/-- The values in a container. -/
def Json.children : Json → List Json
  | .arr xs => xs
  | .obj kvs => kvs.map Prod.snd
  | _ => []

/-- `isinstance(item, float) and not math.isfinite(item)` -/
def isInfinite : Json → Bool
  | .float text => floatOverflows text
  | _ => false

/-- The loop of `_validate_bounds`: `room` is how many more nodes it takes, and the top of the stack comes
first. -/
def boundsLoop : Nat → List (Json × Nat) → Except Raised Unit
  | _, [] => .ok ()
  | 0, _ :: _ => .error malformed
  | room + 1, (item, depth) :: pending => do
      require (!(item.isContainer && decide (maxJsonDepth < depth))) malformed
      require (!isInfinite item) malformed
      boundsLoop room ((Json.children item).reverse.map (·, depth + 1) ++ pending)

/-- `_validate_bounds` -/
def validateBounds (value : Json) : Except Raised Unit := boundsLoop maxJsonNodes [(value, 1)]

/-- `isinstance(item, str)` -/
def isStr : Json → Bool
  | .str _ => true
  | _ => false

/-- `_validate_string_mapping` accepts it. -/
def isStringMapping : Json → Bool
  | .obj kvs => kvs.all fun kv => isStr kv.2
  | _ => false

def isStringList : Json → Bool
  | .arr xs => xs.all isStr
  | _ => false

/-- `decode_catalog_config`.  Every error of the reader is the same to the caller. -/
def decodeCatalogConfig (body : Bytes) : Except Raised (List (Str × Json)) := do
  require (body.length ≤ maxCatalogBodyBytes) (.probeFailure "catalog_response_too_large")
  let value ← (loadsUtf8 ⟨true, true⟩ body).mapError fun _ => malformed
  match value with
  | .obj kvs => do
      validateBounds value
      require ((Json.get "defaults" kvs).all isStringMapping) malformed
      require ((Json.get "overrides" kvs).all isStringMapping) malformed
      require ((Json.get "endpoints" kvs).all isStringList) malformed
      return kvs
  | _ => throw malformed

/-- A configuration within bounds, as the catalog should send it. -/
structure CatalogConfig (body : Bytes) (kvs : List (Str × Json)) : Prop where
  size : body.length ≤ maxCatalogBodyBytes
  json : loadsUtf8 ⟨true, true⟩ body = .ok (.obj kvs)
  nodes : (Json.obj kvs).nodes ≤ maxJsonNodes
  nesting : (Json.obj kvs).nesting ≤ maxJsonDepth
  finite : (Json.obj kvs).finite = true
  defaults : (Json.get "defaults" kvs).all isStringMapping = true
  overrides : (Json.get "overrides" kvs).all isStringMapping = true
  endpoints : (Json.get "endpoints" kvs).all isStringList = true

/-! ### The bounds -/

theorem nodes_children (v : Json) : v.nodes = ((Json.children v).map Json.nodes).sum + 1 := by
  cases v with
  | arr xs => rw [Json.nodes, nodesElems_eq, Json.children]
  | obj kvs =>
      rw [Json.nodes, nodesMembers_eq, Json.children, List.map_map]
      rfl
  | _ => rfl

theorem finite_children (v : Json) :
    v.finite = true ↔ isInfinite v = false ∧ ∀ c ∈ Json.children v, c.finite = true := by
  cases v with
  | arr xs =>
      simp only [Json.finite, isInfinite, Json.children, true_and]
      induction xs with
      | nil => simp [finiteElems]
      | cons x xs ih => simp [finiteElems, ih]
  | obj kvs =>
      simp only [Json.finite, isInfinite, Json.children, true_and]
      induction kvs with
      | nil => simp [finiteMembers]
      | cons kv kvs ih => simp [finiteMembers, ih]
  | float text => simp [Json.finite, isInfinite, Json.children]
  | _ => simp [Json.finite, isInfinite, Json.children]

/-- The containers in a value at this depth are not too deep. -/
def Fits (v : Json) (depth : Nat) : Prop := v.nesting = 0 ∨ v.nesting + depth ≤ maxJsonDepth + 1

theorem fits_children (v : Json) (depth : Nat) :
    Fits v depth ↔ (v.isContainer && decide (maxJsonDepth < depth)) = false ∧
      ∀ c ∈ Json.children v, Fits c (depth + 1) := by
  have hlist : ∀ {n : Nat} {cs : List Json}, (∀ m, n ≤ m ↔ ∀ c ∈ cs, c.nesting ≤ m) →
      (n + 1 + depth ≤ maxJsonDepth + 1 ↔ decide (maxJsonDepth < depth) = false ∧ ∀ c ∈ cs, Fits c (depth + 1)) := by
    intro n cs hn
    have hiff := hn (maxJsonDepth - depth)
    constructor
    · intro h
      refine ⟨by simp only [decide_eq_false_iff_not]; omega, fun c hc => .inr ?_⟩
      have hle := hiff.mp (by omega) c hc
      omega
    · rintro ⟨hd, hall⟩
      have hd := of_decide_eq_false hd
      have hle := hiff.mpr fun c hc => by
        rcases hall c hc with h | h <;> omega
      omega
  cases v with
  | arr xs =>
      simp only [Fits, Json.nesting, Nat.succ_ne_zero, false_or, Json.isContainer, Bool.true_and, Json.children]
      exact hlist fun m => nestingElems_le
  | obj kvs =>
      simp only [Fits, Json.nesting, Nat.succ_ne_zero, false_or, Json.isContainer, Bool.true_and, Json.children]
      refine hlist fun m => nestingMembers_le.trans ?_
      simp only [List.forall_mem_map]
  | _ => simp [Fits, Json.nesting, Json.isContainer, Json.children]

/-- **The loop accepts what its stack is within bounds with.** -/
theorem boundsLoop_ok_iff : ∀ {room : Nat} {pending : List (Json × Nat)},
    boundsLoop room pending = .ok () ↔ (pending.map fun p => p.1.nodes).sum ≤ room ∧
      ∀ p ∈ pending, Fits p.1 p.2 ∧ p.1.finite = true
  | _, [] => by simp [boundsLoop]
  | 0, (item, depth) :: pending => by
      simp only [boundsLoop, reduceCtorEq, List.map_cons, List.sum_cons, nodes_children item, false_iff]
      omega
  | room + 1, (item, depth) :: pending => by
      have hsum : (((Json.children item).reverse.map (·, depth + 1)).map fun p : Json × Nat => p.1.nodes).sum =
          ((Json.children item).map Json.nodes).sum := by
        rw [List.map_map, ← List.sum_reverse ((Json.children item).map Json.nodes), List.map_reverse]
        rfl
      simp only [boundsLoop, bind_eq_ok, require_eq_ok, Bool.not_eq_true', exists_const, boundsLoop_ok_iff,
        List.map_append, List.sum_append, hsum, List.map_cons, List.sum_cons, nodes_children item,
        List.forall_mem_cons, fits_children item depth, finite_children item, List.forall_mem_append,
        List.forall_mem_map, List.mem_reverse]
      constructor
      · rintro ⟨hdepth, hfloat, hroom, hchildren, hpending⟩
        exact ⟨by omega, ⟨⟨hdepth, fun c hc => (hchildren c hc).1⟩, hfloat, fun c hc => (hchildren c hc).2⟩, hpending⟩
      · rintro ⟨hroom, ⟨⟨hdepth, hfits⟩, hfloat, hfinite⟩, hpending⟩
        exact ⟨hdepth, hfloat, by omega, fun c hc => ⟨hfits c hc, hfinite c hc⟩, hpending⟩

/-- What `_validate_bounds` accepts. -/
theorem validateBounds_ok_iff {v : Json} : validateBounds v = .ok () ↔
    v.nodes ≤ maxJsonNodes ∧ v.nesting ≤ maxJsonDepth ∧ v.finite = true := by
  simp only [validateBounds, boundsLoop_ok_iff, List.map_cons, List.map_nil, List.sum_cons, List.sum_nil,
    Nat.add_zero, List.forall_mem_singleton, Fits, Nat.add_le_add_iff_right]
  refine and_congr_right fun _ => and_congr_left fun _ => ?_
  exact ⟨fun h => h.elim (fun h => h ▸ Nat.zero_le _) id, .inr⟩

/-- What is decoded is a configuration within bounds. -/
theorem decodeCatalogConfig_ok {body : Bytes} {kvs : List (Str × Json)}
    (h : decodeCatalogConfig body = .ok kvs) : CatalogConfig body kvs := by
  simp only [decodeCatalogConfig, bind_eq_ok, require_eq_ok, exists_const, mapError_eq_ok] at h
  obtain ⟨hsize, value, hjson, h⟩ := h
  cases value with
  | obj kvs' =>
      simp only [bind_eq_ok, require_eq_ok, exists_const, pure_eq_ok] at h
      obtain ⟨⟨⟩, hbounds, hdefaults, hoverrides, hendpoints, rfl⟩ := h
      obtain ⟨hnodes, hnesting, hfinite⟩ := validateBounds_ok_iff.mp hbounds
      exact ⟨of_decide_eq_true hsize, hjson, hnodes, hnesting, hfinite, hdefaults, hoverrides, hendpoints⟩
  | _ => cases h

theorem boundsLoop_raises : ∀ {room : Nat} {pending : List (Json × Nat)} {e : Raised},
    boundsLoop room pending = .error e → e = malformed
  | _, [], _, h => by simp [boundsLoop] at h
  | 0, _ :: _, _, h => by
      simp only [boundsLoop, Except.error.injEq] at h
      exact h.symm
  | room + 1, (item, depth) :: pending, _, h => by
      simp only [boundsLoop, bind_eq_error, require_eq_error, require_eq_ok, exists_const] at h
      rcases h with ⟨-, rfl⟩ | ⟨-, ⟨-, rfl⟩ | ⟨-, h⟩⟩
      · rfl
      · rfl
      · exact boundsLoop_raises h

/-- Whatever the answer is, only a `ProbeFailure` is raised over it. -/
theorem decodeCatalogConfig_raises {body : Bytes} {e : Raised} (h : decodeCatalogConfig body = .error e) :
    ∃ message, e = .probeFailure message := by
  simp only [decodeCatalogConfig, bind_eq_error, require_eq_error, require_eq_ok, exists_const,
    mapError_eq_ok] at h
  rcases h with ⟨-, rfl⟩ | ⟨-, hread | ⟨value, -, h⟩⟩
  · exact ⟨_, rfl⟩
  · cases hl : loadsUtf8 ⟨true, true⟩ body with
    | ok v => simp [hl, Except.mapError] at hread
    | error _ =>
        simp only [hl, Except.mapError, Except.error.injEq] at hread
        exact ⟨_, hread.symm⟩
  · cases value with
    | obj kvs =>
        simp only [bind_eq_error, require_eq_error, require_eq_ok, exists_const, pure_ne_error, and_false,
          or_false] at h
        rcases h with h | ⟨-, -, ⟨-, rfl⟩ | ⟨-, ⟨-, rfl⟩ | ⟨-, -, rfl⟩⟩⟩
        · exact ⟨_, boundsLoop_raises h⟩
        all_goals exact ⟨_, rfl⟩
    | _ =>
        cases h
        exact ⟨_, rfl⟩

/-! ### The metrics -/

/-- `RESULT_CATEGORIES` -/
inductive Category where
  | success
  | slow
  | malformed
  | timeout
  | httpError
  | unavailable
deriving DecidableEq

def resultCategories : List Category := [.success, .slow, .malformed, .timeout, .httpError, .unavailable]

def Category.text : Category → String
  | .success => "success"
  | .slow => "slow"
  | .malformed => "malformed"
  | .timeout => "timeout"
  | .httpError => "http_error"
  | .unavailable => "unavailable"

structure ProbeResult where
  success : Bool
  durationSeconds : Rat
  httpStatusCode : Int
  result : Category
deriving DecidableEq

/-- `_validate_result`, of a result whose fields have their types. -/
def validateResult (value : ProbeResult) : Except Raised Unit :=
  require (decide (0 ≤ value.durationSeconds) && decide (0 ≤ value.httpStatusCode ∧ value.httpStatusCode ≤ 599) &&
    decide (value.result ∈ resultCategories) &&
    (value.success == decide (value.result = .success ∨ value.result = .slow))) (.probeFailure "probe_result_invalid")

/-- A result that passes its check. -/
structure ProbeResult.Valid (value : ProbeResult) : Prop where
  duration : 0 ≤ value.durationSeconds
  status : 0 ≤ value.httpStatusCode ∧ value.httpStatusCode ≤ 599
  success : value.success = decide (value.result = .success ∨ value.result = .slow)

def metricPrefix : String := "data_eng_lab_iceberg_rest_synthetic_probe_"

/-- One metric without further labels. -/
def metricLines (suffix help : String) (sample : Str) : List Str :=
  [lit ("# HELP " ++ metricPrefix ++ suffix ++ " " ++ help),
    lit ("# TYPE " ++ metricPrefix ++ suffix ++ " gauge"),
    lit (metricPrefix ++ suffix ++ "\x7btarget=\"catalog\"\x7d ") ++ sample]

/-- `str(int(flag))` -/
def flagText (flag : Bool) : Str := if flag then lit "1" else lit "0"

/-- `"\n".join(lines) + "\n"` -/
def joinLines (lines : List Str) : Str := lines.flatMap (· ++ [10])

section
variable (floatRepr : Rat → Str)

def metricsLines (value : ProbeResult) : List Str :=
  metricLines "success" "Whether the latest synthetic catalog probe returned valid JSON." (flagText value.success) ++
  metricLines "duration_seconds" "Elapsed time of the latest synthetic catalog probe."
    (floatRepr value.durationSeconds) ++
  metricLines "http_status_code" "HTTP status observed by the latest synthetic catalog probe."
    (printInt value.httpStatusCode) ++
  [lit ("# HELP " ++ metricPrefix ++ "result Closed outcome of the latest synthetic catalog probe."),
    lit ("# TYPE " ++ metricPrefix ++ "result gauge")] ++
  resultCategories.map fun category =>
    lit (metricPrefix ++ "result\x7btarget=\"catalog\",result=\"" ++ category.text ++ "\"\x7d ") ++
      flagText (value.result == category)

/-- `text.encode("ascii")` -/
def encodeAscii (text : Str) : Except Raised Bytes := if isAscii text then .ok (asciiBytes text) else .error .other

/-- `render_metrics`; `floatRepr` is `repr`. -/
def renderMetrics (value : ProbeResult) : Except Raised Bytes := do
  validateResult value
  let body ← encodeAscii (joinLines (metricsLines floatRepr value))
  require (body.length < 8192) (.probeFailure "probe_result_invalid")
  return body

/-- The texts of floats are ASCII and short: `-2.2250738585072014e-308` is one of the longest. -/
structure FloatTexts : Prop where
  ascii : ∀ q, isAscii (floatRepr q) = true
  short : ∀ q, (floatRepr q).length ≤ 24

end

theorem validateResult_ok_iff {value : ProbeResult} : validateResult value = .ok () ↔ value.Valid := by
  have hmem : value.result ∈ resultCategories := by cases value.result <;> decide
  simp only [validateResult, require_eq_ok, Bool.and_eq_true, decide_eq_true_eq, beq_iff_eq, hmem, decide_true,
    and_true]
  constructor
  · rintro ⟨⟨hd, hs⟩, hok⟩
    exact ⟨hd, hs, hok⟩
  · rintro ⟨hd, hs, hok⟩
    exact ⟨⟨hd, hs⟩, hok⟩

section
variable {floatRepr : Rat → Str}

theorem joinLines_length (lines : List Str) : (joinLines lines).length = (lines.map fun l => l.length + 1).sum := by
  simp [joinLines, List.length_flatMap]

theorem isAscii_joinLines {lines : List Str} (h : ∀ l ∈ lines, isAscii l = true) : isAscii (joinLines lines) = true := by
  simp only [isAscii, joinLines, List.all_flatMap, List.all_eq_true, List.all_append, Bool.and_eq_true]
  intro l hl
  exact ⟨List.all_eq_true.mp (h l hl), by simp⟩

@[simp] theorem isAscii_append (s t : Str) : isAscii (s ++ t) = (isAscii s && isAscii t) := List.all_append

theorem isAscii_flagText (flag : Bool) : isAscii (flagText flag) = true := by cases flag <;> decide

theorem flagText_length (flag : Bool) : (flagText flag).length = 1 := by cases flag <;> rfl

theorem printInt_status {n : Int} (h : 0 ≤ n ∧ n ≤ 599) :
    isAscii (printInt n) = true ∧ (printInt n).length ≤ 3 := by
  rw [printInt, if_neg (by omega)]
  refine ⟨List.all_eq_true.mpr fun c hc => ?_, decDigits_length_le (by omega) (by decide)⟩
  have hdigit := decDigits_digits _ c hc
  simp only [isDigit, Bool.and_eq_true, decide_eq_true_eq] at hdigit
  exact decide_eq_true (by omega)

theorem isAscii_metricLines {suffix help : String} {sample : Str}
    (hfixed : ((metricLines suffix help []).all isAscii) = true) (hsample : isAscii sample = true) :
    ∀ l ∈ metricLines suffix help sample, isAscii l = true := by
  simp only [metricLines, List.all_cons, List.all_nil, Bool.and_true, Bool.and_eq_true, List.append_nil] at hfixed
  intro l hl
  simp only [metricLines, List.mem_cons, List.not_mem_nil, or_false] at hl
  rcases hl with rfl | rfl | rfl
  · exact hfixed.1
  · exact hfixed.2.1
  · rw [isAscii_append, hfixed.2.2, hsample]
    rfl

theorem metricsLines_ascii (h : FloatTexts floatRepr) {value : ProbeResult} (hv : value.Valid) :
    ∀ l ∈ metricsLines floatRepr value, isAscii l = true := by
  intro l hl
  rw [metricsLines] at hl
  simp only [List.mem_append, List.mem_map] at hl
  rcases hl with (((hl | hl) | hl) | hl) | ⟨category, -, rfl⟩
  · exact isAscii_metricLines (by decide) (isAscii_flagText _) l hl
  · exact isAscii_metricLines (by decide) (h.ascii _) l hl
  · exact isAscii_metricLines (by decide) (printInt_status hv.status).1 l hl
  · rw [List.mem_cons, List.mem_singleton] at hl
    rcases hl with rfl | rfl
    · decide
    · decide
  · rw [isAscii_append, isAscii_flagText, Bool.and_true]
    cases category <;> decide

/-- How long the lines are, line ends included. -/
def linesLength (lines : List Str) : Nat := (lines.map fun l => l.length + 1).sum

theorem metricLines_length (suffix help : String) (sample : Str) :
    linesLength (metricLines suffix help sample) = linesLength (metricLines suffix help []) + sample.length := by
  simp only [linesLength, metricLines, List.map_cons, List.map_nil, List.sum_cons, List.sum_nil, List.length_append,
    List.length_nil]
  omega

set_option maxRecDepth 4000 in
theorem metricsLines_length (h : FloatTexts floatRepr) {value : ProbeResult} (hv : value.Valid) :
    linesLength (metricsLines floatRepr value) < 8192 := by
  have hsplit : ∀ a b : List Str, linesLength (a ++ b) = linesLength a + linesLength b := by
    intro a b
    simp [linesLength]
  have hcategories : linesLength (resultCategories.map fun category =>
      lit (metricPrefix ++ "result\x7btarget=\"catalog\",result=\"" ++ category.text ++ "\"\x7d ") ++
        flagText (value.result == category)) ≤ 1000 := by
    simp only [linesLength, resultCategories, List.map_cons, List.map_nil, List.length_append, flagText_length]
    decide
  have hstatus := (printInt_status hv.status).2
  have hduration := h.short value.durationSeconds
  have hhead : linesLength [lit ("# HELP " ++ metricPrefix ++
      "result Closed outcome of the latest synthetic catalog probe."),
      lit ("# TYPE " ++ metricPrefix ++ "result gauge")] ≤ 1000 := by decide
  have hsuccess := metricLines_length "success" "Whether the latest synthetic catalog probe returned valid JSON."
    (flagText value.success)
  have hseconds := metricLines_length "duration_seconds" "Elapsed time of the latest synthetic catalog probe."
    (floatRepr value.durationSeconds)
  have hcode := metricLines_length "http_status_code" "HTTP status observed by the latest synthetic catalog probe."
    (printInt value.httpStatusCode)
  have h₁ : linesLength (metricLines "success"
      "Whether the latest synthetic catalog probe returned valid JSON." []) ≤ 1000 := by decide
  have h₂ : linesLength (metricLines "duration_seconds"
      "Elapsed time of the latest synthetic catalog probe." []) ≤ 1000 := by decide
  have h₃ : linesLength (metricLines "http_status_code"
      "HTTP status observed by the latest synthetic catalog probe." []) ≤ 1000 := by decide
  rw [flagText_length] at hsuccess
  rw [metricsLines, hsplit, hsplit, hsplit, hsplit, hsuccess, hseconds, hcode]
  omega

/-- **A result that passes its check is rendered.** -/
theorem renderMetrics_ok (h : FloatTexts floatRepr) {value : ProbeResult} (hv : value.Valid) :
    ∃ body, renderMetrics floatRepr value = .ok body := by
  have hbody : (asciiBytes (joinLines (metricsLines floatRepr value))).length < 8192 := by
    rw [asciiBytes, List.length_map, joinLines_length]
    exact metricsLines_length h hv
  refine ⟨asciiBytes (joinLines (metricsLines floatRepr value)), ?_⟩
  simp only [renderMetrics, bind_eq_ok, validateResult_ok_iff.mpr hv, encodeAscii, if_pos (isAscii_joinLines (metricsLines_ascii h hv)),
    require_eq_ok]
  exact ⟨(), trivial, _, rfl, (), decide_eq_true hbody, rfl⟩

end

end Probe

end Observability
