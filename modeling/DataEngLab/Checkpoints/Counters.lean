/-
The counters of the service.

Everything the backend counts is in one state behind one lock, and lives until the
process is restarted.  Three operations change it: a counter grows, a gauge is set, and an
applied operation is accounted for, once for each of its attempts.  None of them looks at
the registry of metrics; what each of them needs of its arguments, to leave a registered
snapshot registered, is the lemma beside it.
-/
import DataEngLab.Checkpoints.Metrics
import DataEngLab.Lib.Utc

namespace Checkpoints

open Lib

/-- `_METRIC_OPERATION_CACHE` -/
def metricOperationCache : Nat := 4096

structure Counters where
  metrics : Snapshot
  /-- what has been counted of an operation: objects and bytes -/
  applyTotals : Dict Str (Nat × Nat)
  /-- the attempts that have been counted: operation, state and `attempt_sequence` -/
  applyTransitions : List (Str × Str × Json)
  saturated : Bool

/-- The counters of a service that has just been started. -/
def Counters.fresh : Counters := ⟨[], [], [], false⟩

/-- The value under a metric and a label. -/
def Snapshot.value? (s : Snapshot) (metric : String) (label : Str) : Option Int :=
  (Dict.get? s metric).bind fun values => Dict.get? values label

def Snapshot.count (s : Snapshot) (metric : String) (label : Str) : Int := (s.value? metric label).getD 0

def Snapshot.write (metric : String) (label : Str) (f : Option Int → Int) (s : Snapshot) : Snapshot :=
  Dict.update metric (fun values => Dict.update label f (values.getD [])) s

/-- `_increment` -/
def Counters.increment (metric : String) (label : Str) (amount : Int) (w : Counters) : Counters :=
  { w with metrics := w.metrics.write metric label fun v => v.getD 0 + amount }

/-- `_set` -/
def Counters.set (metric : String) (label : Str) (value : Int) (w : Counters) : Counters :=
  { w with metrics := w.metrics.write metric label fun _ => value }

/-! ### Applied operations -/

/-- What `_record_apply_metrics` has checked of a result before it takes the lock. -/
structure Applied where
  state : Str
  operationId : Str
  objects : Nat
  bytes : Nat
  sequence : Json

/-- Lists and dictionaries cannot be hashed. -/
def isHashable : Json → Bool
  | .arr _ => false
  | .obj _ => false
  | _ => true

/-- `a == b` of two hashable values; `floatEq` compares when a float is among them. -/
def sameKey (floatEq : Json → Json → Bool) : Json → Json → Bool
  | .null, .null => true
  | .str s, .str t => s == t
  | .bool a, .bool b => a == b
  | .bool a, .int n => (if a then 1 else 0) == n
  | .int n, .bool a => (if a then 1 else 0) == n
  | .int m, .int n => m == n
  | .float s, v => floatEq (.float s) v
  | v, .float s => floatEq v (.float s)
  | _, _ => false

def Counters.knows (floatEq : Json → Json → Bool) (a : Applied) (w : Counters) : Bool :=
  w.applyTransitions.any fun t => t.1 == a.operationId && t.2.1 == a.state && sameKey floatEq t.2.2 a.sequence

/-- The totals counted so far of an operation. -/
def Counters.totals (op : Str) (w : Counters) : Nat × Nat := (Dict.get? w.applyTotals op).getD (0, 0)

def Counters.isFull (op : Str) (w : Counters) : Bool :=
  (Dict.get? w.applyTotals op).isNone && metricOperationCache ≤ w.applyTotals.length

/-- `if amount: self._increment(metric, state, amount)` -/
def Counters.grow (metric : String) (label : Str) (amount : Nat) (w : Counters) : Counters :=
  if amount = 0 then w else w.increment metric label amount

def Counters.saturate (w : Counters) : Counters :=
  if w.saturated then w
  else { w.increment requestFailuresMetric (lit "metrics_saturated") 1 with saturated := true }

/-- Counts what is new of the operation's totals. -/
def Counters.countTotals (a : Applied) (w : Counters) : Counters :=
  let previous := w.totals a.operationId
  let grown := (w.grow deletedObjectsMetric a.state (a.objects - previous.1)).grow deletedBytesMetric
    a.state (a.bytes - previous.2)
  { grown with applyTotals := Dict.update a.operationId (fun _ => (a.objects, a.bytes)) w.applyTotals }

/-- Counts the attempt, unless it has been counted. -/
def Counters.countTransition (floatEq : Json → Json → Bool) (a : Applied) (w : Counters) : Counters :=
  if w.knows floatEq a ∨ metricOperationCache * 4 ≤ w.applyTransitions.length then w
  else
    let counted := if a.state = lit "partial" then w.increment partialMetric (lit "partial") 1 else w
    { counted with applyTransitions := (a.operationId, a.state, a.sequence) :: w.applyTransitions }

/-- The part of `_record_apply_metrics` under the lock, and whether it goes on from there. -/
def Counters.recordApply (floatEq : Json → Json → Bool) (a : Applied) (w : Counters) :
    Except Exn Bool × Counters :=
  if w.isFull a.operationId then (.ok false, w.saturate)
  else if a.objects < (w.totals a.operationId).1 ∨ a.bytes < (w.totals a.operationId).2 then (.ok false, w)
  else if isHashable a.sequence then (.ok true, (w.countTotals a).countTransition floatEq a)
  else (.error .typeError, w.countTotals a)

/-! ### Registered snapshots stay registered -/

section
variable {s : Snapshot} {metric : String} {label : Str} {f : Option Int → Int}

theorem contractOf_isSome {value : Int} (h : EntryFits metric label value) :
    (contractOf metric).isSome = true := by
  have hknown := h.label_known
  cases hc : contractOf metric with
  | none => rw [hc] at hknown; cases hknown
  | some c => rfl

/-- **Writing an entry that fits.** -/
theorem Registered.write (h : Registered s) (hfits : EntryFits metric label (f (s.value? metric label))) :
    Registered (s.write metric label f) := by
  have hold : ∀ m ∈ s, m.2.keys.Nodup ∧ ∀ entry ∈ m.2, EntryFits m.1 entry.1 entry.2 :=
    fun m hm => ⟨h.labels m hm, h.entries m hm⟩
  have hvalue : s.value? metric label = Dict.get? ((Dict.get? s metric).getD []) label := by
    unfold Snapshot.value?
    cases Dict.get? s metric <;> rfl
  have hinner : ((Dict.get? s metric).getD []).keys.Nodup ∧
      ∀ entry ∈ (Dict.get? s metric).getD [], EntryFits metric entry.1 entry.2 := by
    cases hget : Dict.get? s metric with
    | none => exact ⟨List.nodup_nil, by simp⟩
    | some values => exact hold _ (Dict.mem_of_get? hget)
  rw [hvalue] at hfits
  have hnew := Dict.forall_update
    (P := fun name (values : Dict Str Int) => values.keys.Nodup ∧
      ∀ entry ∈ values, EntryFits name entry.1 entry.2)
    (k := metric) (f := fun values => Dict.update label f (values.getD [])) hold
    ⟨Dict.nodup_keys_update hinner.1, Dict.forall_update (P := EntryFits metric) hinner.2 hfits⟩
  have hknown := Dict.forall_update (P := fun name (_ : Dict Str Int) => (contractOf name).isSome = true)
    (k := metric) (f := fun values => Dict.update label f (values.getD [])) h.known
    (contractOf_isSome hfits)
  exact ⟨Dict.nodup_keys_update h.names, hknown, fun m hm => (hnew m hm).1, fun m hm => (hnew m hm).2⟩

theorem Registered.value_fits (h : Registered s) {v : Int} (hv : s.value? metric label = some v) :
    EntryFits metric label v := by
  obtain ⟨values, hvalues, hlabel⟩ := Option.bind_eq_some_iff.mp hv
  exact h.entries _ (Dict.mem_of_get? hvalues) _ (Dict.mem_of_get? hlabel)

theorem Registered.count_nonneg (h : Registered s) : 0 ≤ s.count metric label := by
  unfold Snapshot.count
  cases hv : s.value? metric label with
  | none => exact le_refl 0
  | some v => exact (h.value_fits hv).nonneg

/-- The label is registered, and the counter stays in the range of a float. -/
structure Countable (s : Snapshot) (metric : String) (label : Str) (amount : Int) : Prop where
  label_known : (contractOf metric).any (isLabel · label) = true
  nonneg : 0 ≤ amount
  finite : isFloat (s.count metric label + amount) = true

variable {w : Counters} {amount value : Int}

theorem Registered.increment (h : Registered w.metrics) (hc : Countable w.metrics metric label amount) :
    Registered (w.increment metric label amount).metrics := by
  have hcount : 0 ≤ w.metrics.count metric label := h.count_nonneg
  exact h.write ⟨hc.label_known, Int.add_nonneg hcount hc.nonneg, hc.finite⟩

theorem Registered.set (h : Registered w.metrics) (hfits : EntryFits metric label value) :
    Registered (w.set metric label value).metrics := h.write hfits

theorem count_increment_ne {metric' : String} {label' : Str} (h : metric' ≠ metric) :
    (w.increment metric label amount).metrics.count metric' label' = w.metrics.count metric' label' := by
  unfold Snapshot.count Snapshot.value? Counters.increment Snapshot.write
  rw [Dict.get?_update_ne h]

end

/-! ### Accounting for an operation -/

/-- The states `_record_apply_metrics` counts. -/
def appliedStates : List String := ["not_ready", "partial", "completed"]

def isAppliedState (state : Str) : Prop := ∃ a ∈ appliedStates, state = lit a

/-- No counter that the result adds to leaves the range of a float. -/
structure ApplyFits (w : Counters) (a : Applied) : Prop where
  saturation : w.isFull a.operationId = true → w.saturated = false →
    isFloat (w.metrics.count requestFailuresMetric (lit "metrics_saturated") + 1) = true
  objects : w.isFull a.operationId = false → isFloat (w.metrics.count deletedObjectsMetric a.state +
    (a.objects - (w.totals a.operationId).1 : Nat)) = true
  bytes : w.isFull a.operationId = false → isFloat (w.metrics.count deletedBytesMetric a.state +
    (a.bytes - (w.totals a.operationId).2 : Nat)) = true
  attempts : w.isFull a.operationId = false → a.state = lit "partial" →
    isFloat (w.metrics.count partialMetric (lit "partial") + 1) = true

section
variable {w : Counters} {a : Applied} {metric : String} {label : Str} {floatEq : Json → Json → Bool}

theorem isAppliedState.known {state : Str} (h : isAppliedState state) :
    (contractOf deletedObjectsMetric).any (isLabel · state) = true ∧
      (contractOf deletedBytesMetric).any (isLabel · state) = true := by
  obtain ⟨s, hs, rfl⟩ := h
  have hall : ∀ s ∈ appliedStates, (contractOf deletedObjectsMetric).any (isLabel · (lit s)) = true ∧
      (contractOf deletedBytesMetric).any (isLabel · (lit s)) = true := by decide
  exact hall s hs

theorem Registered.grow {amount : Nat} (h : Registered w.metrics)
    (hc : Countable w.metrics metric label amount) : Registered (w.grow metric label amount).metrics := by
  unfold Counters.grow
  split
  · exact h
  · exact h.increment hc

theorem count_grow_ne {metric' : String} {label' : Str} {amount : Nat} (h : metric' ≠ metric) :
    (w.grow metric label amount).metrics.count metric' label' = w.metrics.count metric' label' := by
  unfold Counters.grow
  split
  · rfl
  · exact count_increment_ne h

theorem Registered.saturate (h : Registered w.metrics) (hfull : w.isFull a.operationId = true)
    (hfits : ApplyFits w a) : Registered w.saturate.metrics := by
  unfold Counters.saturate
  split
  · exact h
  · rename_i hsat
    have hlabel : (contractOf requestFailuresMetric).any (isLabel · (lit "metrics_saturated")) = true := by
      decide
    exact h.increment ⟨hlabel, by decide, hfits.saturation hfull (by simpa using hsat)⟩

theorem Registered.countTotals (h : Registered w.metrics) (hstate : isAppliedState a.state)
    (hfull : w.isFull a.operationId = false) (hfits : ApplyFits w a) :
    Registered (w.countTotals a).metrics := by
  obtain ⟨hobjects, hbytes⟩ := hstate.known
  have hfirst := h.grow ⟨hobjects, Int.natCast_nonneg _, hfits.objects hfull⟩
  refine hfirst.grow ⟨hbytes, Int.natCast_nonneg _, ?_⟩
  rw [count_grow_ne (by decide)]
  exact hfits.bytes hfull

theorem count_countTotals {label : Str} :
    (w.countTotals a).metrics.count partialMetric label = w.metrics.count partialMetric label := by
  show ((w.grow _ _ _).grow _ _ _).metrics.count _ _ = _
  rw [count_grow_ne (by decide), count_grow_ne (by decide)]

theorem Registered.countTransition (h : Registered w.metrics)
    (hfinite : a.state = lit "partial" →
      isFloat (w.metrics.count partialMetric (lit "partial") + 1) = true) :
    Registered (w.countTransition floatEq a).metrics := by
  unfold Counters.countTransition
  split
  · exact h
  · show Registered (Counters.metrics (if a.state = lit "partial" then _ else _))
    split
    · rename_i hpartial
      have hlabel : (contractOf partialMetric).any (isLabel · (lit "partial")) = true := by decide
      exact h.increment ⟨hlabel, by decide, hfinite hpartial⟩
    · exact h

/-- **Accounting for an operation** keeps a snapshot registered. -/
theorem Registered.recordApply (h : Registered w.metrics) (hstate : isAppliedState a.state)
    (hfits : ApplyFits w a) : Registered (w.recordApply floatEq a).2.metrics := by
  unfold Counters.recordApply
  cases hfull : w.isFull a.operationId with
  | true => exact h.saturate hfull hfits
  | false =>
      have htotals := h.countTotals hstate hfull hfits
      simp only [Bool.false_eq_true, if_false]
      split
      · exact h
      · split
        · refine htotals.countTransition fun hpartial => ?_
          rw [count_countTotals]
          exact hfits.attempts hfull hpartial
        · exact htotals

end

end Checkpoints
