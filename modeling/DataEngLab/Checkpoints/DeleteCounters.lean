/-
What the deletion counters say of any history of results.

A result of an apply is counted against what has been counted of its operation so far, and
the same result comes back: a retry returns it again, a late answer brings an older one.
`Later` says what one more result may do to the counters, and `Settled` that there is
nothing left to count of a result.  A result settles what it says, and what is settled stays
settled whatever is fed next, which is why a replay changes nothing.
-/
import DataEngLab.Checkpoints.Backend

namespace Checkpoints

open Lib RuntimeBackend

/-! ### Feeding results -/

/-- The sum of a metric over its labels. -/
def Snapshot.total (s : Snapshot) (metric : String) : Int :=
  (((Dict.get? s metric).getD []).map fun x => x.2).sum

/-- The counters do what they are told; everything else answers as `others` says. -/
def countersAnswer (floatEq : Json → Json → Bool) (others : (e : BackendCall) → BackendAnswer e)
    (w : Counters) : (e : BackendCall) → BackendAnswer e × Counters
  | .increment metric label amount => ((), w.increment metric label amount)
  | .set metric label value => ((), w.set metric label value)
  | .recordApply applied => w.recordApply floatEq applied
  | e => (others e, w)

/-- A result that is fed, and what the clock says meanwhile. -/
structure Fed where
  result : Json
  others : (e : BackendCall) → BackendAnswer e

def feed (floatEq : Json → Json → Bool) (w : Counters) (x : Fed) : Counters :=
  (Proc.run (countersAnswer floatEq x.others) (recordApplyMetrics x.result) w).2

/-- The counters after a history of results. -/
def afterResults (floatEq : Json → Json → Bool) (history : List Fed) : Counters :=
  history.foldl (feed floatEq) Counters.fresh

/-- What is counted of a result. -/
def countedOf : Json → Option Applied
  | .obj result =>
      match appliedOf result with
      | .ok applied => applied
      | .error _ => none
  | _ => none

/-- The result's `attempt_sequence` equals itself, as every value but a NaN does. -/
def SelfEqual (floatEq : Json → Json → Bool) (result : Json) : Prop :=
  ∀ a, countedOf result = some a → ∀ s, a.sequence = .float s → floatEq a.sequence a.sequence = true

section
variable {floatEq : Json → Json → Bool} {w w' : Counters} {x : Fed} {a b : Applied}

theorem run_value_ok {others : (e : BackendCall) → BackendAnswer e} {α β : Type} {v : α} {f : α → B β} :
    Proc.run (countersAnswer floatEq others) (value (.ok v) >>= f) w =
      Proc.run (countersAnswer floatEq others) (f v) w := rfl

theorem run_value_error {others : (e : BackendCall) → BackendAnswer e} {α β : Type} {e : Exn} {f : α → B β} :
    (Proc.run (countersAnswer floatEq others) (value (.error e) >>= f) w).2 = w := rfl

theorem run_recordCompletion {others : (e : BackendCall) → BackendAnswer e} {result : List (Str × Json)} :
    (Proc.run (countersAnswer floatEq others) (recordCompletion a result) w).2 = w ∨
      ∃ label value, (Proc.run (countersAnswer floatEq others) (recordCompletion a result) w).2 =
        w.set lastSuccessMetric label value := by
  unfold recordCompletion
  split
  · cases choiceOf checkpointIds ((Json.get "checkpoint_id" result).getD .null) with
    | error e => exact .inl rfl
    | ok known =>
        rw [run_value_ok]
        cases known with
        | none => exact .inl rfl
        | some id =>
            show (Proc.run _ (value (others .timestamp) >>= _) w).2 = w ∨ ∃ label v,
              (Proc.run _ (value (others .timestamp) >>= _) w).2 = w.set lastSuccessMetric label v
            cases others .timestamp with
            | error e => exact .inl rfl
            | ok now => exact .inr ⟨id, unixTime now, rfl⟩
  · exact .inl rfl

theorem feed_eq_self (h : countedOf x.result = none) : feed floatEq w x = w := by
  unfold feed recordApplyMetrics
  unfold countedOf at h
  cases hresult : x.result with
  | obj result =>
      rw [hresult] at h
      simp only at h ⊢
      cases happlied : appliedOf result with
      | error e => exact run_value_error
      | ok applied =>
          simp only [happlied] at h
          subst h
          rfl
  | _ => rfl

/-- A counted result does what the part under the lock does, and may set the time of the last
success. -/
theorem feed_counted (floatEq : Json → Json → Bool) (w : Counters) (h : countedOf x.result = some a) :
    feed floatEq w x = (w.recordApply floatEq a).2 ∨ ∃ label v,
      feed floatEq w x = (w.recordApply floatEq a).2.set lastSuccessMetric label v := by
  unfold feed recordApplyMetrics
  unfold countedOf at h
  cases hresult : x.result with
  | obj result =>
      rw [hresult] at h
      simp only at h ⊢
      cases happlied : appliedOf result with
      | error e => simp [happlied] at h
      | ok applied =>
          simp only [happlied] at h
          subst h
          rw [run_value_ok]
          show (Proc.run _ (value (w.recordApply floatEq a).1 >>= _) (w.recordApply floatEq a).2).2 = _ ∨
            ∃ label v, (Proc.run _ (value (w.recordApply floatEq a).1 >>= _) (w.recordApply floatEq a).2).2 =
              (w.recordApply floatEq a).2.set lastSuccessMetric label v
          cases (w.recordApply floatEq a).1 with
          | error e => exact .inl rfl
          | ok goesOn =>
              rw [run_value_ok]
              cases goesOn with
              | false => exact .inl rfl
              | true => exact run_recordCompletion
  | _ => rw [hresult] at h; cases h

/-! ### What the part under the lock does -/

/-- An operation that is not in the full cache is only told of, once; a result with a lower count
is dropped; any other is counted. -/
theorem recordApply_cases (floatEq : Json → Json → Bool) (w : Counters) (a : Applied) :
    (w.isFull a.operationId = true ∧ (w.recordApply floatEq a).2 = w.saturate) ∨
    ((a.objects < (w.totals a.operationId).1 ∨ a.bytes < (w.totals a.operationId).2) ∧
      (w.recordApply floatEq a).2 = w) ∨
    (w.isFull a.operationId = false ∧ (w.totals a.operationId).1 ≤ a.objects ∧
      (w.totals a.operationId).2 ≤ a.bytes ∧
      (w.recordApply floatEq a).2 =
        if isHashable a.sequence then (w.countTotals a).countTransition floatEq a else w.countTotals a) := by
  unfold Counters.recordApply
  cases hfull : w.isFull a.operationId with
  | true => exact .inl ⟨rfl, rfl⟩
  | false =>
      simp only [Bool.false_eq_true, if_false]
      by_cases hlower : a.objects < (w.totals a.operationId).1 ∨ a.bytes < (w.totals a.operationId).2
      · exact .inr (.inl ⟨hlower, by rw [if_pos hlower]⟩)
      · rw [if_neg hlower]
        have hgrown := not_or.mp hlower
        refine .inr (.inr ⟨trivial, Nat.le_of_not_lt hgrown.1, Nat.le_of_not_lt hgrown.2, ?_⟩)
        split <;> rfl

theorem isFull_eq_true {op : Str} :
    w.isFull op = true ↔ Dict.get? w.applyTotals op = none ∧ metricOperationCache ≤ w.applyTotals.length := by
  simp [Counters.isFull]

theorem totals_of_get? {op : Str} {t : Nat × Nat} (h : Dict.get? w.applyTotals op = some t) :
    w.totals op = t := by simp [Counters.totals, h]

/-- The dictionary of a metric, after an entry of another metric is written. -/
theorem get?_write_ne {s : Snapshot} {metric metric' : String} {label : Str} {f : Option Int → Int}
    (h : metric' ≠ metric) : Dict.get? (s.write metric label f) metric' = Dict.get? s metric' :=
  Dict.get?_update_ne h

theorem total_write_ne {s : Snapshot} {metric metric' : String} {label : Str} {f : Option Int → Int}
    (h : metric' ≠ metric) : (s.write metric label f).total metric' = s.total metric' := by
  unfold Snapshot.total
  rw [get?_write_ne h]

theorem total_increment {metric : String} {label : Str} {amount : Int} :
    (w.increment metric label amount).metrics.total metric = w.metrics.total metric + amount := by
  unfold Counters.increment Snapshot.total Snapshot.write
  rw [Dict.get?_update_self]
  have hsum := Dict.sum_update (d := (Dict.get? w.metrics metric).getD []) (k := label)
    (f := fun v => v.getD 0 + amount) fun n : Int => n
  simp only [Option.map_id', Option.getD_some] at hsum ⊢
  omega

theorem value?_write {s : Snapshot} {metric : String} {label : Str} {f : Option Int → Int} :
    (s.write metric label f).value? metric label = some (f (s.value? metric label)) := by
  unfold Snapshot.value? Snapshot.write
  rw [Dict.get?_update_self, Option.bind_some, Dict.get?_update_self]
  cases Dict.get? s metric <;> rfl

theorem value?_write_ne {s : Snapshot} {metric metric' : String} {label label' : Str} {f : Option Int → Int}
    (h : metric' ≠ metric ∨ label' ≠ label) :
    (s.write metric label f).value? metric' label' = s.value? metric' label' := by
  unfold Snapshot.value?
  by_cases hmetric : metric' = metric
  · subst hmetric
    have hlabel : label' ≠ label := h.resolve_left fun hne => hne rfl
    unfold Snapshot.write
    rw [Dict.get?_update_self, Option.bind_some, Dict.get?_update_ne hlabel]
    cases Dict.get? s metric' <;> rfl
  · rw [get?_write_ne hmetric]

theorem count_le_increment {metric metric' : String} {label label' : Str} {amount : Int} (h : 0 ≤ amount) :
    w.metrics.count metric' label' ≤ (w.increment metric label amount).metrics.count metric' label' := by
  unfold Counters.increment Snapshot.count
  by_cases hsame : metric' = metric ∧ label' = label
  · obtain ⟨rfl, rfl⟩ := hsame
    rw [value?_write, Option.getD_some]
    omega
  · rw [value?_write_ne (not_and_or.mp hsame)]

theorem count_le_grow {metric metric' : String} {label label' : Str} {amount : Nat} :
    w.metrics.count metric' label' ≤ (w.grow metric label amount).metrics.count metric' label' := by
  unfold Counters.grow
  split
  · exact le_refl _
  · exact count_le_increment (Int.natCast_nonneg _)

theorem total_grow {metric : String} {label : Str} {amount : Nat} :
    (w.grow metric label amount).metrics.total metric = w.metrics.total metric + amount := by
  unfold Counters.grow
  split
  · rename_i hzero
    simp [hzero]
  · exact total_increment

theorem total_grow_ne {metric metric' : String} {label : Str} {amount : Nat} (h : metric' ≠ metric) :
    (w.grow metric label amount).metrics.total metric' = w.metrics.total metric' := by
  unfold Counters.grow
  split
  · rfl
  · exact total_write_ne h

/-! ### The sums -/

/-- The counters add up to what is recorded of the operations. -/
structure Balanced (w : Counters) : Prop where
  objects : w.metrics.total deletedObjectsMetric = (w.applyTotals.map fun t => (t.2.1 : Int)).sum
  bytes : w.metrics.total deletedBytesMetric = (w.applyTotals.map fun t => (t.2.2 : Int)).sum

theorem balanced_fresh : Balanced Counters.fresh := ⟨rfl, rfl⟩

/-- Other metrics may be written. -/
theorem Balanced.of_eq (h : Balanced w) (htotals : w'.applyTotals = w.applyTotals)
    (hobjects : w'.metrics.total deletedObjectsMetric = w.metrics.total deletedObjectsMetric)
    (hbytes : w'.metrics.total deletedBytesMetric = w.metrics.total deletedBytesMetric) : Balanced w' := by
  refine ⟨?_, ?_⟩
  · rw [hobjects, htotals, h.objects]
  · rw [hbytes, htotals, h.bytes]

theorem total_countTotals_objects : (w.countTotals a).metrics.total deletedObjectsMetric =
    w.metrics.total deletedObjectsMetric + (a.objects - (w.totals a.operationId).1 : Nat) := by
  show ((w.grow _ _ _).grow _ _ _).metrics.total _ = _
  rw [total_grow_ne (by decide), total_grow]

theorem total_countTotals_bytes : (w.countTotals a).metrics.total deletedBytesMetric =
    w.metrics.total deletedBytesMetric + (a.bytes - (w.totals a.operationId).2 : Nat) := by
  show ((w.grow _ _ _).grow _ _ _).metrics.total _ = _
  rw [total_grow, total_grow_ne (by decide)]

/-- What is recorded of all operations, after one more record of one of them. -/
theorem sum_countTotals (weight : Nat × Nat → Nat) (hzero : weight (0, 0) = 0)
    (hle : weight (w.totals a.operationId) ≤ weight (a.objects, a.bytes)) :
    ((w.countTotals a).applyTotals.map fun t => (weight t.2 : Int)).sum =
      (w.applyTotals.map fun t => (weight t.2 : Int)).sum +
        (weight (a.objects, a.bytes) - weight (w.totals a.operationId) : Nat) := by
  have hsum := Dict.sum_update (d := w.applyTotals) (k := a.operationId)
    (f := fun _ => (a.objects, a.bytes)) fun t => (weight t : Int)
  have hold : ((Dict.get? w.applyTotals a.operationId).map fun t => (weight t : Int)).getD 0 =
      weight (w.totals a.operationId) := by
    unfold Counters.totals
    cases Dict.get? w.applyTotals a.operationId with
    | none => simp [hzero]
    | some t => rfl
  rw [hold] at hsum
  show ((Dict.update _ _ w.applyTotals).map _).sum = _
  omega

theorem Balanced.countTotals (h : Balanced w) (hobjects : (w.totals a.operationId).1 ≤ a.objects)
    (hbytes : (w.totals a.operationId).2 ≤ a.bytes) : Balanced (w.countTotals a) := by
  refine ⟨?_, ?_⟩
  · rw [total_countTotals_objects, h.objects]
    exact (sum_countTotals Prod.fst rfl hobjects).symm
  · rw [total_countTotals_bytes, h.bytes]
    exact (sum_countTotals Prod.snd rfl hbytes).symm

theorem Balanced.countTransition (h : Balanced w) : Balanced (w.countTransition floatEq a) := by
  unfold Counters.countTransition
  split
  · exact h
  · refine h.of_eq ?_ ?_ ?_
    · show (Counters.applyTotals (if _ then _ else _)) = _
      split <;> rfl
    · show (Counters.metrics (if _ then _ else _)).total _ = _
      split
      · exact total_write_ne (by decide)
      · rfl
    · show (Counters.metrics (if _ then _ else _)).total _ = _
      split
      · exact total_write_ne (by decide)
      · rfl

theorem Balanced.saturate (h : Balanced w) : Balanced w.saturate := by
  unfold Counters.saturate
  split
  · exact h
  · exact h.of_eq rfl (total_write_ne (by decide)) (total_write_ne (by decide))

theorem Balanced.recordApply (h : Balanced w) : Balanced (w.recordApply floatEq a).2 := by
  rcases recordApply_cases floatEq w a with
    ⟨-, heq⟩ | ⟨-, heq⟩ | ⟨-, hobjects, hbytes, heq⟩
  · rw [heq]
    exact h.saturate
  · rw [heq]
    exact h
  · rw [heq]
    split
    · exact (h.countTotals hobjects hbytes).countTransition
    · exact h.countTotals hobjects hbytes

theorem Balanced.feed (h : Balanced w) : Balanced (feed floatEq w x) := by
  cases hx : countedOf x.result with
  | none =>
      rw [feed_eq_self hx]
      exact h
  | some a =>
      rcases feed_counted floatEq w hx with heq | ⟨label, v, heq⟩
      · rw [heq]
        exact h.recordApply
      · rw [heq]
        exact h.recordApply.of_eq rfl (total_write_ne (by decide)) (total_write_ne (by decide))

/-! ### What a result may do to the counters -/

/-- Nothing that was counted is lost, and what was full stays full. -/
structure Later (w w' : Counters) : Prop where
  totals : ∀ op t, Dict.get? w.applyTotals op = some t →
    ∃ t', Dict.get? w'.applyTotals op = some t' ∧ t.1 ≤ t'.1 ∧ t.2 ≤ t'.2
  full : ∀ op, w.isFull op = true → w'.isFull op = true
  saturated : w.saturated = true → w'.saturated = true
  transitions : w.applyTransitions <:+ w'.applyTransitions
  counts : ∀ metric label, metric ≠ lastSuccessMetric →
    w.metrics.count metric label ≤ w'.metrics.count metric label

theorem Later.refl (w : Counters) : Later w w :=
  ⟨fun _ t h => ⟨t, h, le_refl _, le_refl _⟩, fun _ h => h, fun h => h, List.suffix_refl _, fun _ _ _ => le_refl _⟩

theorem Later.trans {w'' : Counters} (h : Later w w') (h' : Later w' w'') : Later w w'' where
  totals op t ht := by
    obtain ⟨t', ht', hobjects, hbytes⟩ := h.totals op t ht
    obtain ⟨t'', ht'', hobjects', hbytes'⟩ := h'.totals op t' ht'
    exact ⟨t'', ht'', hobjects.trans hobjects', hbytes.trans hbytes'⟩
  full op hop := h'.full op (h.full op hop)
  saturated hs := h'.saturated (h.saturated hs)
  transitions := h.transitions.trans h'.transitions
  counts metric label hne := (h.counts metric label hne).trans (h'.counts metric label hne)

/-- Nothing but entries of the metrics changes, and none of them falls. -/
theorem Later.of_counts (htotals : w'.applyTotals = w.applyTotals)
    (htransitions : w.applyTransitions <:+ w'.applyTransitions) (hsaturated : w.saturated = true → w'.saturated = true)
    (hcounts : ∀ metric label, metric ≠ lastSuccessMetric →
      w.metrics.count metric label ≤ w'.metrics.count metric label) : Later w w' where
  totals op t ht := ⟨t, htotals ▸ ht, le_refl _, le_refl _⟩
  full op hop := by
    unfold Counters.isFull at hop ⊢
    rw [htotals]
    exact hop
  saturated := hsaturated
  transitions := htransitions
  counts := hcounts

theorem later_saturate : Later w w.saturate := by
  unfold Counters.saturate
  split
  · exact Later.refl w
  · exact .of_counts rfl (List.suffix_refl _) (fun _ => rfl) fun _ _ _ => count_le_increment (by decide)

theorem later_countTotals (hfull : w.isFull a.operationId = false)
    (hobjects : (w.totals a.operationId).1 ≤ a.objects) (hbytes : (w.totals a.operationId).2 ≤ a.bytes) :
    Later w (w.countTotals a) where
  totals op t ht := by
    by_cases hop : op = a.operationId
    · subst hop
      rw [totals_of_get? ht] at hobjects hbytes
      exact ⟨(a.objects, a.bytes), Dict.get?_update_self, hobjects, hbytes⟩
    · exact ⟨t, (Dict.get?_update_ne hop).trans ht, le_refl _, le_refl _⟩
  full op hop := by
    obtain ⟨hnone, hlength⟩ := isFull_eq_true.mp hop
    -- the cache is full, so the operation that is counted is one of the cached
    have hcached : ∃ t, Dict.get? w.applyTotals a.operationId = some t := by
      cases hget : Dict.get? w.applyTotals a.operationId with
      | none => rw [isFull_eq_true.mpr ⟨hget, hlength⟩] at hfull; cases hfull
      | some t => exact ⟨t, rfl⟩
    obtain ⟨t, ht⟩ := hcached
    have hne : op ≠ a.operationId := by
      rintro rfl
      rw [ht] at hnone
      cases hnone
    refine isFull_eq_true.mpr ⟨(Dict.get?_update_ne hne).trans hnone, ?_⟩
    show _ ≤ (Dict.update _ _ w.applyTotals).length
    rw [Dict.length_update ht]
    exact hlength
  saturated hs := by
    show (Counters.grow _ _ _ (Counters.grow _ _ _ w)).saturated = true
    unfold Counters.grow
    split <;> split <;> exact hs
  transitions := by
    show _ <:+ (Counters.grow _ _ _ (Counters.grow _ _ _ w)).applyTransitions
    unfold Counters.grow
    split <;> split <;> exact List.suffix_refl _
  counts metric label _ := count_le_grow.trans count_le_grow

theorem later_countTransition : Later w (w.countTransition floatEq a) := by
  unfold Counters.countTransition
  split
  · exact Later.refl w
  · by_cases hpartial : a.state = lit "partial"
    · rw [if_pos hpartial]
      exact .of_counts rfl (List.suffix_cons _ _) (fun h => h) fun _ _ _ => count_le_increment (by decide)
    · rw [if_neg hpartial]
      exact .of_counts rfl (List.suffix_cons _ _) (fun h => h) fun _ _ _ => le_refl _

theorem later_recordApply : Later w (w.recordApply floatEq a).2 := by
  rcases recordApply_cases floatEq w a with
    ⟨-, heq⟩ | ⟨-, heq⟩ | ⟨hfull, hobjects, hbytes, heq⟩
  · rw [heq]
    exact later_saturate
  · rw [heq]
    exact Later.refl w
  · rw [heq]
    split
    · exact (later_countTotals hfull hobjects hbytes).trans later_countTransition
    · exact later_countTotals hfull hobjects hbytes

/-- The time of the last success is no counter. -/
theorem later_set {label : Str} {v : Int} : Later w (w.set lastSuccessMetric label v) :=
  .of_counts rfl (List.suffix_refl _) (fun h => h) fun metric label' hne => by
    unfold Snapshot.count Counters.set
    rw [value?_write_ne (.inl hne)]

theorem later_feed : Later w (feed floatEq w x) := by
  cases hx : countedOf x.result with
  | none =>
      rw [feed_eq_self hx]
      exact Later.refl w
  | some a =>
      rcases feed_counted floatEq w hx with heq | ⟨label, v, heq⟩
      · rw [heq]
        exact later_recordApply
      · rw [heq]
        exact later_recordApply.trans later_set

/-! ### What is settled of a result -/

/-- There is nothing left to count of the result. -/
inductive Settled (floatEq : Json → Json → Bool) (a : Applied) (w : Counters) : Prop where
  /-- its operation is not in the full cache, which has been told of -/
  | uncached (full : w.isFull a.operationId = true) (saturated : w.saturated = true)
  /-- more has been recorded of its operation -/
  | superseded (lower : a.objects < (w.totals a.operationId).1 ∨ a.bytes < (w.totals a.operationId).2)
  /-- just this has been recorded, and its attempt is known or can no longer be counted -/
  | counted (totals : Dict.get? w.applyTotals a.operationId = some (a.objects, a.bytes))
      (attempt : isHashable a.sequence = true →
        w.knows floatEq a = true ∨ metricOperationCache * 4 ≤ w.applyTransitions.length)

theorem Settled.later (h : Settled floatEq a w) (hlater : Later w w') : Settled floatEq a w' := by
  cases h with
  | uncached full saturated => exact .uncached (hlater.full _ full) (hlater.saturated saturated)
  | superseded lower =>
      cases hget : Dict.get? w.applyTotals a.operationId with
      | none => simp [Counters.totals, hget] at lower
      | some t =>
          obtain ⟨t', ht', hobjects, hbytes⟩ := hlater.totals _ t hget
          rw [totals_of_get? hget] at lower
          refine .superseded ?_
          rw [totals_of_get? ht']
          exact lower.imp (fun h => h.trans_le hobjects) fun h => h.trans_le hbytes
  | counted totals attempt =>
      obtain ⟨t', ht', hobjects, hbytes⟩ := hlater.totals _ _ totals
      by_cases hsame : t' = (a.objects, a.bytes)
      · refine .counted (hsame ▸ ht') fun hhash => ?_
        rcases attempt hhash with hknows | hfull
        · refine .inl ?_
          obtain ⟨t, ht, hmatch⟩ := List.any_eq_true.mp hknows
          exact List.any_eq_true.mpr ⟨t, hlater.transitions.subset ht, hmatch⟩
        · exact .inr (hfull.trans hlater.transitions.length_le)
      · refine .superseded ?_
        rw [totals_of_get? ht']
        by_contra hnot
        obtain ⟨hnot₁, hnot₂⟩ := not_or.mp hnot
        exact hsame (Prod.ext (le_antisymm (Nat.le_of_not_lt hnot₁) hobjects)
          (le_antisymm (Nat.le_of_not_lt hnot₂) hbytes))

theorem sameKey_self {v : Json} (hhash : isHashable v = true) (hself : ∀ s, v = .float s → floatEq v v = true) :
    sameKey floatEq v v = true := by
  cases v with
  | null => rfl
  | bool b => exact beq_self_eq_true b
  | int n => exact beq_self_eq_true n
  | str s => exact beq_self_eq_true s
  | float s => exact hself s rfl
  | arr xs => cases hhash
  | obj kvs => cases hhash

/-- What is counted of an attempt leaves it known, unless there is no room for it. -/
theorem knows_countTransition (hkey : sameKey floatEq a.sequence a.sequence = true) :
    (w.countTransition floatEq a).knows floatEq a = true ∨
      metricOperationCache * 4 ≤ (w.countTransition floatEq a).applyTransitions.length := by
  unfold Counters.countTransition
  split
  · rename_i hold
    exact hold
  · refine .inl (List.any_eq_true.mpr ⟨(a.operationId, a.state, a.sequence), List.mem_cons_self, ?_⟩)
    simp [hkey]

theorem applyTotals_countTransition : (w.countTransition floatEq a).applyTotals = w.applyTotals := by
  unfold Counters.countTransition
  split
  · rfl
  · show (Counters.applyTotals (if _ then _ else _)) = _
    split <;> rfl

/-- **A result settles what it says.** -/
theorem settled_recordApply (hself : ∀ s, a.sequence = .float s → floatEq a.sequence a.sequence = true) :
    Settled floatEq a (w.recordApply floatEq a).2 := by
  rcases recordApply_cases floatEq w a with
    ⟨hfull, heq⟩ | ⟨hlower, heq⟩ | ⟨hfull, hobjects, hbytes, heq⟩
  · rw [heq]
    refine .uncached (later_saturate.full _ hfull) ?_
    unfold Counters.saturate
    split
    · assumption
    · rfl
  · rw [heq]
    exact .superseded hlower
  · rw [heq]
    split
    · rename_i hhash
      refine .counted ?_ fun _ => knows_countTransition (sameKey_self hhash hself)
      rw [applyTotals_countTransition]
      exact Dict.get?_update_self
    · rename_i hhash
      exact .counted Dict.get?_update_self fun h => absurd h hhash

/-- Nothing is counted of a result that is settled. -/
theorem metrics_of_settled (h : Settled floatEq a w) : (w.recordApply floatEq a).2.metrics = w.metrics := by
  unfold Counters.recordApply
  cases h with
  | uncached full saturated =>
      rw [if_pos full]
      show w.saturate.metrics = _
      unfold Counters.saturate
      rw [if_pos saturated]
  | superseded lower =>
      split
      · rename_i hfull
        rw [Counters.totals, (isFull_eq_true.mp hfull).1] at lower
        simp at lower
      · rfl
  | counted totals attempt =>
      have hnotFull : ¬ w.isFull a.operationId = true := by
        intro hfull
        rw [(isFull_eq_true.mp hfull).1] at totals
        cases totals
      have hsame : w.totals a.operationId = (a.objects, a.bytes) := totals_of_get? totals
      have hmetrics : (w.countTotals a).metrics = w.metrics := by
        simp [Counters.countTotals, hsame, Counters.grow]
      rw [if_neg hnotFull, if_neg (by simp [hsame])]
      split
      · rename_i hhash
        unfold Counters.countTransition
        have hold : (w.countTotals a).knows floatEq a = true ∨
            metricOperationCache * 4 ≤ (w.countTotals a).applyTransitions.length := by
          simpa [Counters.countTotals, hsame, Counters.grow, Counters.knows] using attempt hhash
        rw [if_pos hold]
        exact hmetrics
      · exact hmetrics

/-- A result that is settled changes no counter when it is fed. -/
theorem feed_of_settled (hx : ∀ a, countedOf x.result = some a → Settled floatEq a w) {metric : String}
    {label : Str} (hne : metric ≠ lastSuccessMetric) :
    (feed floatEq w x).metrics.value? metric label = w.metrics.value? metric label := by
  cases hcounted : countedOf x.result with
  | none => rw [feed_eq_self hcounted]
  | some a =>
      have hmetrics := metrics_of_settled (hx a hcounted)
      rcases feed_counted floatEq w hcounted with heq | ⟨_, v, heq⟩
      · rw [heq, hmetrics]
      · rw [heq]
        unfold Counters.set
        rw [value?_write_ne (.inl hne), hmetrics]

/-! ### Histories -/

/-- After a history, whatever was fed in it is settled. -/
theorem foldl_feed (floatEq : Json → Json → Bool) (history : List Fed) : ∀ w : Counters, Balanced w →
    Balanced (history.foldl (feed floatEq) w) ∧ Later w (history.foldl (feed floatEq) w) ∧
      ∀ x ∈ history, SelfEqual floatEq x.result → ∀ a, countedOf x.result = some a →
        Settled floatEq a (history.foldl (feed floatEq) w) := by
  induction history with
  | nil => exact fun w hw => ⟨hw, Later.refl w, fun x hx => by cases hx⟩
  | cons y rest ih =>
      intro w hw
      obtain ⟨hbalanced, hlater, hsettled⟩ := ih (feed floatEq w y) hw.feed
      refine ⟨hbalanced, later_feed.trans hlater, fun x hx hself a ha => ?_⟩
      rcases List.mem_cons.mp hx with rfl | hx
      · refine Settled.later ?_ hlater
        have hdone := settled_recordApply (w := w) (hself a ha)
        rcases feed_counted floatEq w ha with heq | ⟨label, v, heq⟩
        · rw [heq]
          exact hdone
        · rw [heq]
          exact hdone.later later_set
      · exact hsettled x hx hself a ha

end

/-- **The deletion counters never count twice.**  After any history of results they add up to what
is recorded of the operations; one more result lowers neither a record nor a counter; and a result
of the history, fed again, changes no counter. -/
theorem deleteCounters_once (floatEq : Json → Json → Bool) (history : List Fed) (x : Fed) :
    let w := afterResults floatEq history
    w.metrics.total deletedObjectsMetric = (w.applyTotals.map fun t => (t.2.1 : Int)).sum ∧
    w.metrics.total deletedBytesMetric = (w.applyTotals.map fun t => (t.2.2 : Int)).sum ∧
    (∀ op t, Dict.get? w.applyTotals op = some t → ∃ t', Dict.get? (feed floatEq w x).applyTotals op = some t' ∧
      t.1 ≤ t'.1 ∧ t.2 ≤ t'.2) ∧
    (∀ metric label, metric ≠ lastSuccessMetric →
      w.metrics.count metric label ≤ (feed floatEq w x).metrics.count metric label) ∧
    (SelfEqual floatEq x.result → (∃ y ∈ history, y.result = x.result) → ∀ metric label,
      metric ≠ lastSuccessMetric → (feed floatEq w x).metrics.value? metric label = w.metrics.value? metric label) := by
  intro w
  obtain ⟨hbalanced, -, hsettled⟩ := foldl_feed floatEq history Counters.fresh balanced_fresh
  have hlater : Later w (feed floatEq w x) := later_feed
  refine ⟨hbalanced.objects, hbalanced.bytes, hlater.totals, hlater.counts, ?_⟩
  rintro hself ⟨y, hy, hresult⟩ metric label hne
  exact feed_of_settled (fun a ha => hsettled y hy (hresult ▸ hself) a (hresult ▸ ha)) hne

end Checkpoints
