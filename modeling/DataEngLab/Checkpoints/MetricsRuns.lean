/-
The metrics over a run.

The counters are registered as long as what the managers answer is: refusal codes that the
registry has, counts that are not negative, an ended lease of a registered checkpoint, and
a clock that is past 1970.  Nothing in the backend checks this, so `Fits` asks it of the
answers, one call at a time; `metrics_registered` is the invariant of every run.

One answer of the repository's own planner breaks it: a bulk plan whose actor is not an
identity is refused under a code that the registry does not have, and from then on the
endpoint answers with its fallback.
-/
import DataEngLab.Checkpoints.Backend
import DataEngLab.Lib.Play

namespace Checkpoints

open Lib RuntimeBackend

/-! ### What the answers have to be -/

/-- A number that the renderer takes. -/
def InRange (n : Int) : Prop := 0 ≤ n ∧ isFloat n = true

def isRefusal (code : Str) : Bool := refusals.any fun a => lit a == code

def isCheckpoint (checkpointId : Str) : Bool := checkpointIds.any fun a => lit a == checkpointId

/-- A summary that is counted has registered refusal codes, and its counts are in range if they
are recorded. -/
def SummaryFits (summary : List (Str × Json)) : Prop :=
  ∀ decision known, countedDecision summary = .ok (some decision) →
    choiceOf checkpointIds ((Json.get "checkpoint_id" summary).getD .null) = .ok known →
      (∀ code, Json.str code ∈ summaryRefusals summary → isRefusal code = true) ∧
      ∀ id objects bytes, known = some id → countsOf summary = some (objects, bytes) →
        InRange objects ∧ InRange bytes

/-- The summary that is counted of a plan. -/
def PlanFits (bulk : Bool) (request : PlanRequest) : Except Exn PlanArtifact → Prop
  | .ok artifact =>
      if bulk then ∀ id summary, lit id = request.checkpointId → bulkSummary id artifact = .ok summary →
        SummaryFits summary
      else ∀ result summary, loaded artifact.body = .ok result → summaryOf result = .ok summary →
        SummaryFits summary
  | .error (.plan code) => bulk = true → isRefusal (lit code) = true
  | .error _ => True

def BackendRequest.isBulk : BackendRequest → Bool
  | .invoke .plan payload _ => RuntimeBackend.isBulk payload
  | _ => false

/-- The answer is one that the counters can take. -/
def Fits (q : BackendRequest) : (e : BackendCall) → BackendAnswer e → Prop
  | .timestamp, .ok t => unixEpoch ≤ t.second
  | .terminal checkpointId _ _ _ evidence, .ok _ =>
      isSuccessful evidence = true → isCheckpoint checkpointId = true
  | .plan request, r => PlanFits q.isBulk request r
  | _, _ => True

/-- No counter leaves the range of a float. -/
def HasRoom (w : Counters) : BackendCall → Prop
  | .increment metric label amount => isFloat (w.metrics.count metric label + amount) = true
  | .recordApply applied => ApplyFits w applied
  | _ => True

/-- The condition on one call: its answer, and the counters before it. -/
def MeetsContract (_ : Nat) (q : BackendRequest) (s : Sys Counters BackendCall BackendAnswer)
    (e : BackendCall) (r : BackendAnswer e) : Prop := Fits q e r ∧ HasRoom s.world e

/-- What the backend does to the counters if it is answered so. -/
def Lawful : BackendCall → Prop
  | .increment metric label amount =>
      (contractOf metric).any (isLabel · label) = true ∧ 0 ≤ amount
  | .set metric label value => EntryFits metric label value
  | .recordApply applied => isAppliedState applied.state
  | _ => True

/-! ### The labels -/

theorem isLabel_of_checkpoint {metric : String} {id : Str}
    (hm : contractOf metric = some ⟨"checkpoint_id", checkpointIds⟩) (h : isCheckpoint id = true) :
    (contractOf metric).any (isLabel · id) = true := by
  rw [hm]
  exact h

theorem choiceOf_eq_ok {allowed : List String} {v : Json} {s : Str} (h : choiceOf allowed v = .ok (some s)) :
    v = .str s ∧ (allowed.any fun a => lit a == s) = true := by
  cases v with
  | str t =>
      simp only [choiceOf, Except.ok.injEq, Option.ite_none_right_eq_some, Option.some.injEq] at h
      obtain ⟨hmem, rfl⟩ := h
      exact ⟨rfl, hmem⟩
  | _ => simp [choiceOf, isHashable] at h

theorem isLabel_of_choice {metric : String} {allowed : List String} {v : Json} {s : Str} {c : Contract}
    (h : choiceOf allowed v = .ok (some s)) (hm : contractOf metric = some c)
    (hsub : ∀ a ∈ allowed, a ∈ c.allowed) : (contractOf metric).any (isLabel · s) = true := by
  obtain ⟨-, hmem⟩ := choiceOf_eq_ok h
  rw [hm]
  obtain ⟨a, ha, has⟩ := List.any_eq_true.mp hmem
  exact List.any_eq_true.mpr ⟨a, hsub a ha, has⟩

theorem isFloat_second {n : Int} (h0 : 0 ≤ n) (h : n ≤ maxSecond) : isFloat n = true := by
  have hlt : maxSecond < floatLimit := by decide +kernel
  simp only [isFloat, decide_eq_true_eq]
  omega

/-! ### What each part does to the counters -/

section
variable {q : BackendRequest}

/-- As long as it is answered well, the program does nothing unlawful to the counters. -/
abbrev Tidy (q : BackendRequest) {α : Type} (x : B α) : Prop := Heeds (Fits q) Lawful x fun _ => True

theorem tidy_pure {α : Type} {a : α} : Tidy q (pure a) := trivial

theorem tidy_throw {α : Type} {e : Raised} : Tidy q (throw e : B α) := trivial

theorem tidy_check {α : Type} {r : Except Raised α} : Tidy q (check r) := trivial

theorem tidy_value {α : Type} {r : Except Exn α} : Tidy q (value r) := trivial

theorem tidy_increment {metric : String} {label : Str} {amount : Int}
    (hlabel : (contractOf metric).any (isLabel · label) = true) (h : 0 ≤ amount) :
    Tidy q (increment metric label amount) := ⟨⟨hlabel, h⟩, fun _ _ => trivial⟩

theorem tidy_set {metric : String} {label : Str} {n : Int} (h : EntryFits metric label n) :
    Tidy q (set metric label n) := ⟨h, fun _ _ => trivial⟩

theorem check_bind {α β : Type} {r : Except Raised α} {f : α → B β}
    (hf : ∀ a, r = .ok a → Tidy q (f a)) : Tidy q (check r >>= f) :=
  Heeds.lift_bind hf fun _ _ => trivial

theorem value_bind {α β : Type} {r : Except Exn α} {f : α → B β} (hf : ∀ a, r = .ok a → Tidy q (f a)) :
    Tidy q (value r >>= f) := by
  refine Heeds.lift_bind (fun a ha => hf a ?_) fun _ _ => trivial
  exact mapError_eq_ok.mp ha

theorem perform_bind {β : Type} {e : BackendCall} {f : BackendAnswer e → B β} (hP : Lawful e)
    (hf : ∀ r, Fits q e r → Tidy q (f r)) : Tidy q (RuntimeBackend.perform e >>= f) :=
  Heeds.perform_bind hP hf

theorem tidy_recordLeaseMetrics {id : Str} {body : Bytes} : Tidy q (recordLeaseMetrics id body) := by
  unfold recordLeaseMetrics
  split
  · rename_i hid
    refine check_bind fun heartbeat _ => perform_bind trivial fun reading _ => check_bind fun now _ => ?_
    refine tidy_set ⟨isLabel_of_checkpoint rfl hid, le_max_left _ _, isFloat_second (le_max_left _ _) ?_⟩
    have hnow := now.le_max
    exact max_le (by decide) (by omega)
  · exact tidy_pure

theorem tidy_recordSuccess {id : Str} (h : isCheckpoint id = true) : Tidy q (recordSuccess id) := by
  refine perform_bind trivial fun reading hreading => value_bind fun now hnow => ?_
  have hepoch : unixEpoch ≤ now.second := by rw [hnow] at hreading; exact hreading
  have hmax := now.le_max
  refine tidy_set ⟨isLabel_of_checkpoint rfl h, ?_, isFloat_second ?_ ?_⟩
  · simp only [unixTime]; omega
  · simp only [unixTime]; omega
  · simp only [unixTime]; omega

theorem tidy_recordInventory {decision : Str} {summary : List (Str × Json)}
    (h : ∀ id objects bytes,
      choiceOf checkpointIds ((Json.get "checkpoint_id" summary).getD .null) = .ok (some id) →
      countsOf summary = some (objects, bytes) → InRange objects ∧ InRange bytes) :
    Tidy q (recordInventory decision summary) := by
  refine value_bind fun known hknown => ?_
  split
  · rename_i id objects bytes hcounts
    obtain ⟨⟨hobjects, hobjects'⟩, hbytes, hbytes'⟩ := h id objects bytes hknown hcounts
    have hid := (choiceOf_eq_ok hknown).2
    refine Heeds.seq (tidy_set ⟨isLabel_of_checkpoint rfl hid, hobjects, hobjects'⟩) fun _ => ?_
    refine Heeds.seq (tidy_set ⟨isLabel_of_checkpoint rfl hid, hbytes, hbytes'⟩) fun _ => ?_
    refine tidy_set ⟨isLabel_of_checkpoint rfl hid, ?_, ?_⟩
    · split
      · exact hbytes
      · exact le_refl 0
    · split
      · exact hbytes'
      · exact isFloat_second (le_refl 0) (by decide)
  · exact tidy_pure

theorem tidy_recordRefusals {codes : List Json}
    (h : ∀ code, Json.str code ∈ codes → isRefusal code = true) : Tidy q (recordRefusals codes) := by
  induction codes with
  | nil => exact tidy_pure
  | cons v rest ih =>
      have hrest := ih fun code hcode => h code (List.mem_cons_of_mem _ hcode)
      cases v with
      | str code =>
          refine Heeds.seq (tidy_increment ?_ (by decide)) fun _ => hrest
          exact h code (by simp)
      | _ => exact hrest

/-- A summary that fits is counted under registered labels. -/
theorem tidy_recordPlanMetrics {summary : List (Str × Json)} (h : SummaryFits summary) :
    Tidy q (recordPlanMetrics summary) := by
  refine value_bind fun decision hdecision => ?_
  cases decision with
  | none => exact tidy_pure
  | some decision =>
      have hlabel : (contractOf plansMetric).any (isLabel · decision) = true :=
        isLabel_of_choice hdecision rfl (by decide)
      refine Heeds.seq (tidy_increment hlabel (by decide)) fun _ => ?_
      have hinventory : Tidy q (recordInventory decision summary) :=
        tidy_recordInventory fun id objects bytes hid hcounts =>
          (h decision _ hdecision hid).2 id objects bytes rfl hcounts
      cases hknown : choiceOf checkpointIds ((Json.get "checkpoint_id" summary).getD .null) with
      | ok known => exact Heeds.seq hinventory fun _ => tidy_recordRefusals (h decision known hdecision hknown).1
      | error e =>
          -- the look-up has raised, and nothing more is counted
          unfold recordInventory
          rw [hknown]
          exact trivial

theorem tidy_recordCompletion {applied : Applied} {result : List (Str × Json)} :
    Tidy q (recordCompletion applied result) := by
  unfold recordCompletion
  split
  · refine value_bind fun known hknown => ?_
    cases known with
    | none => exact tidy_pure
    | some id => exact tidy_recordSuccess (choiceOf_eq_ok hknown).2
  · exact tidy_pure

theorem appliedOf_state {result : List (Str × Json)} {applied : Applied}
    (h : appliedOf result = .ok (some applied)) : isAppliedState applied.state := by
  unfold appliedOf at h
  obtain ⟨state, hstate, h⟩ := bind_eq_ok.mp h
  cases state with
  | none => cases h
  | some state =>
      simp only at h
      split at h
      · cases h
        obtain ⟨a, ha, has⟩ := List.any_eq_true.mp (choiceOf_eq_ok hstate).2
        exact ⟨a, ha, (beq_iff_eq.mp has).symm⟩
      · cases h

theorem tidy_recordApplyMetrics {v : Json} : Tidy q (recordApplyMetrics v) := by
  unfold recordApplyMetrics
  split
  · refine value_bind fun applied happlied => ?_
    cases applied with
    | none => exact tidy_pure
    | some applied =>
        refine perform_bind (appliedOf_state happlied) fun outcome _ => value_bind fun goesOn _ => ?_
        split
        · exact tidy_recordCompletion
        · exact tidy_pure
  · exact tidy_throw

/-! ### What each action does to the counters -/

theorem tidy_acquireAction {payload : Option (List (Str × Json))} : Tidy q (acquireAction payload) :=
  check_bind fun _ _ => perform_bind trivial fun _ _ => value_bind fun _ _ =>
    Heeds.seq tidy_recordLeaseMetrics fun _ => tidy_pure

theorem tidy_heartbeatAction {payload : Option (List (Str × Json))} : Tidy q (heartbeatAction payload) :=
  check_bind fun _ _ => perform_bind trivial fun _ _ => value_bind fun _ _ =>
    Heeds.seq tidy_recordLeaseMetrics fun _ => tidy_pure

theorem tidy_terminalAction {payload : Option (List (Str × Json))} : Tidy q (terminalAction payload) := by
  refine check_bind fun kvs _ => ?_
  split
  · rename_i evidence _
    refine value_bind fun _ _ => perform_bind trivial fun answer hanswer => value_bind fun result hresult => ?_
    refine Heeds.seq tidy_recordLeaseMetrics fun _ => ?_
    dsimp only
    split
    · rename_i hsuccessful
      rw [hresult] at hanswer
      exact Heeds.seq (tidy_recordSuccess (hanswer hsuccessful)) fun _ => tidy_pure
    · exact tidy_pure
  · exact tidy_throw

variable {cfg : BackendConfig}

theorem tidy_partial {α : Type} {e : Raised} :
    Tidy q (do increment partialMetric (lit "partial") 1; throw e : B α) :=
  Heeds.seq (tidy_increment (by decide) (by decide)) fun _ => tidy_throw

theorem tidy_partialAction {op : Str} {code : String} : Tidy q (partialAction op code) := by
  refine perform_bind trivial fun outcome _ => ?_
  split
  · exact tidy_throw
  · exact tidy_partial
  · split
    · exact value_bind fun _ _ => Heeds.seq tidy_recordApplyMetrics fun _ => tidy_pure
    · exact tidy_partial

theorem tidy_applyAction {payload : Option (List (Str × Json))} {op : Str} :
    Tidy q (applyAction cfg payload op) := by
  unfold applyAction
  split
  · exact tidy_pure
  · refine check_bind fun kvs _ => check_bind fun _ _ => perform_bind trivial fun outcome _ => ?_
    split
    · exact value_bind fun _ _ => Heeds.seq tidy_recordApplyMetrics fun _ => tidy_pure
    · exact tidy_partialAction
    · exact tidy_throw
    · exact tidy_throw

theorem tidy_statusAction {op : Str} : Tidy q (statusAction op) :=
  perform_bind trivial fun _ _ => value_bind fun _ _ => tidy_value

theorem tidy_planAction {payload : Option (List (Str × Json))} (hq : q.isBulk = false) :
    Tidy q (planAction payload) := by
  refine check_bind fun kvs _ => perform_bind trivial fun reading _ => value_bind fun now _ => ?_
  refine perform_bind trivial fun answer hanswer => value_bind fun artifact hartifact => ?_
  refine value_bind fun result hresult => value_bind fun summary hsummary => ?_
  rw [hartifact] at hanswer
  replace hanswer : PlanFits q.isBulk _ (.ok artifact) := hanswer
  rw [hq] at hanswer
  exact Heeds.seq (tidy_recordPlanMetrics (hanswer result summary hresult hsummary)) fun _ => tidy_pure

/-- A refusal that the backend writes itself fits if its code is registered. -/
theorem refusedSummary_fits {id : String} {digest : Str} {code : String} (h : isRefusal (lit code) = true) :
    SummaryFits (refusedSummary id digest code) := by
  intro decision known _ _
  refine ⟨fun c hc => ?_, fun _ objects bytes _ hcounts => ?_⟩
  · have hcodes : summaryRefusals (refusedSummary id digest code) = [textJson code] := rfl
    rw [hcodes, List.mem_singleton] at hc
    cases hc
    exact h
  · have hzero : countsOf (refusedSummary id digest code) = some (0, 0) := rfl
    rw [hzero] at hcounts
    cases hcounts
    exact ⟨⟨le_refl 0, isFloat_second (le_refl 0) (by decide)⟩, le_refl 0,
      isFloat_second (le_refl 0) (by decide)⟩

/-- The summary of one checkpoint of a bulk plan fits. -/
theorem bulkEntry_fits (hq : q.isBulk = true) {actor : Str} {evaluatedAt : Instant} {digest : Str}
    {e : CheckpointEntry} : Heeds (Fits q) Lawful (bulkEntry actor evaluatedAt digest e) fun r =>
      ∀ summary, r = .ok summary → SummaryFits summary := by
  unfold bulkEntry
  split
  · refine Heeds.pure fun summary h => ?_
    cases h
    exact refusedSummary_fits (by decide)
  · refine Heeds.perform_bind trivial fun answer hanswer => ?_
    replace hanswer : PlanFits q.isBulk _ answer := hanswer
    rw [hq] at hanswer
    split
    · refine Heeds.pure fun summary h => ?_
      cases h
      exact refusedSummary_fits (hanswer rfl)
    · exact Heeds.throw fun summary h => nomatch h
    · refine Heeds.lift fun summary h => ?_
      exact hanswer _ summary rfl (mapError_eq_ok.mp h)

theorem tidy_bulkPlans (hq : q.isBulk = true) {actor : Str} {evaluatedAt : Instant} {digest : Str}
    {entries : List CheckpointEntry} : Tidy q (bulkPlans actor evaluatedAt digest entries) := by
  induction entries with
  | nil => exact tidy_pure
  | cons e rest ih =>
      refine Heeds.bind SummaryFits (Heeds.mono ?_ (bulkEntry_fits hq)) fun summary hsummary => ?_
      · rintro (error | summary) h
        · trivial
        · exact h summary rfl
      · exact Heeds.seq (tidy_recordPlanMetrics hsummary) fun _ => Heeds.seq ih fun _ => tidy_pure

theorem tidy_bulkPlan (hq : q.isBulk = true) {kvs : List (Str × Json)} : Tidy q (bulkPlan cfg kvs) :=
  check_bind fun _ _ => perform_bind trivial fun _ _ => value_bind fun _ _ =>
    Heeds.seq (tidy_bulkPlans hq) fun _ => tidy_pure

theorem tidy_prepareAction {payload : Option (List (Str × Json))} : Tidy q (prepareAction cfg payload) :=
  check_bind fun _ _ => check_bind fun _ _ => perform_bind trivial fun _ _ => check_bind fun _ _ =>
    check_bind fun _ _ => Heeds.seq (tidy_increment (by decide) (by decide)) fun _ => tidy_pure

theorem tidy_invokeAction {action : Action} {payload : Option (List (Str × Json))} {op : Option Str} :
    Tidy (.invoke action payload op) (invokeAction cfg action payload op) := by
  cases action with
  | acquire => exact tidy_acquireAction
  | heartbeat => exact tidy_heartbeatAction
  | terminal => exact tidy_terminalAction
  | plan =>
      show Tidy _ (planOrBulk cfg payload)
      unfold planOrBulk
      split
      · rename_i hbulk
        exact tidy_bulkPlan (q := .invoke .plan payload op) hbulk
      · rename_i hbulk
        exact tidy_planAction (q := .invoke .plan payload op) (Bool.not_eq_true _ ▸ hbulk)
  | prepare => exact tidy_prepareAction
  | apply => exact tidy_applyAction
  | status => exact tidy_statusAction

theorem tidy_checkDeadline {started : Rat} : Tidy q (RuntimeBackend.checkDeadline cfg started) :=
  perform_bind trivial fun _ _ => tidy_value

theorem tidy_invoke {action : Action} {payload : Option (List (Str × Json))} {op : Option Str} :
    Tidy (.invoke action payload op) (RuntimeBackend.invoke cfg action payload op) := by
  refine perform_bind trivial fun reading _ => check_bind fun started _ => Heeds.mapError ?_
  unfold timedAction
  split
  · exact Heeds.seq tidy_checkDeadline fun _ => Heeds.seq tidy_invokeAction fun _ =>
      Heeds.seq tidy_checkDeadline fun _ => tidy_pure
  · exact Heeds.seq tidy_invokeAction fun _ => Heeds.seq tidy_checkDeadline fun _ => tidy_pure

theorem tidy_recordRequestFailure {outcome : Str} : Tidy q (recordRequestFailure outcome) := by
  refine Heeds.seq (tidy_increment ?_ (by decide)) fun _ => tidy_pure
  split
  · assumption
  · decide

/-- **Every request** does to the counters only what is lawful. -/
theorem tidy_code : Tidy q ((backendMachine cfg).code q) := by
  cases q with
  | invoke action payload op => exact tidy_invoke
  | requestFailed outcome => exact tidy_recordRequestFailure

end

/-! ### Runs -/

section
variable {cfg : BackendConfig}

/-- A call that is lawful and has room leaves the snapshot registered. -/
theorem lawful_registered {t : Nat} {s : Sys Counters BackendCall BackendAnswer} {e : BackendCall}
    {r : BackendAnswer e} {w : Counters} (hlawful : Lawful e) (hroom : HasRoom s.world e)
    (hs : Registered s.world.metrics) (h : backendAnswers cfg t s e r w) : Registered w.metrics := by
  cases e with
  | increment metric label amount =>
      cases h
      exact hs.increment ⟨hlawful.1, hlawful.2, hroom⟩
  | set metric label value =>
      cases h
      exact hs.set hlawful
  | recordApply applied =>
      have hw : w = (s.world.recordApply cfg.floatEq applied).2 := congrArg Prod.snd h
      rw [hw]
      exact hs.recordApply hlawful hroom
  | _ => cases h; exact hs

/-- The counters of a service whose calls are answered as they should be. -/
def metricsProtocol (cfg : BackendConfig) : Protocol ((backendMachine cfg).when MeetsContract) where
  inv s := Registered s.world.metrics
  rely _ s s' := Registered s.world.metrics → Registered s'.world.metrics
  guar _ _ _ _ _ s' := Registered s'.world.metrics
  post _ _ _ _ := True
  trans hab hbc h := hbc (hab h)
  drift_rely _ _ _ _ hdrift := nomatch hdrift
  drift_inv _ _ _ hdrift := nomatch hdrift
  guar_rely _ _ _ _ _ _ _ _ _ hguar _ := hguar
  guar_inv _ _ _ _ _ _ _ hguar := hguar
  sat t q s hs _ := by
    refine Sat.mono (fun _ _ _ => trivial) (Heeds.sat (C := Fits q) (P := Lawful)
      (I := fun s => Registered s.world.metrics) (fun s s' h hrely => hrely h) ?_ ?_ tidy_code hs)
    · exact fun s e r w h => h.2.1
    · intro s e r w hlawful hregistered h
      have hnext := lawful_registered (t := t) hlawful h.2.2 hregistered h.1
      exact ⟨hnext, hnext⟩

/-- The counters of a service that has just been started. -/
def unused (w : Counters) : Prop := w = Counters.fresh

/-- **The metrics endpoint is never poisoned**, as long as the answers are ones the registry of
metrics knows. -/
theorem metrics_registered {p : Pool BackendRequest Counters BackendCall BackendAnswer (Except Raised Json)}
    (h : Reachable ((backendMachine cfg).when MeetsContract) unused p) :
    Registered p.sys.world.metrics ∧
      ∃ body, renderMetrics p.sys.world.metrics maxMetricsBytes = .ok body ∧
        metricsBody p.sys.world.metrics = .ok body := by
  have hregistered : Registered p.sys.world.metrics := by
    refine (h.sound (P := metricsProtocol cfg) (fun _ _ h => h) ?_).inv
    intro w hw
    rw [hw]
    exact registered_empty
  exact ⟨hregistered, hregistered.renders⟩

end

/-! ### Bulk plans of the shipped registry -/

/-- A backend over the registry as it is shipped. -/
def registryBackend : BackendConfig := ⟨registry, false, 900, true, fun _ _ => false⟩

/-- A bulk plan of every checkpoint, by this actor. -/
def bulkBy (actor : String) : BackendRequest :=
  .invoke .plan (some [(lit "actor", textJson actor),
    (lit "checkpoint_ids", .arr (expectedEntries.map fun e => textJson e.checkpointId))]) none

/-- Clocks that stand still, counters with room, and a planner that only refuses. -/
def refusing (refusal : PlanRequest → Option String) (s : Counters) :
    (e : BackendCall) → Option (BackendAnswer e × Counters)
  | .monotonic => some (.ok (some 0), s)
  | .now => some (.ok ⟨unixEpoch, by decide⟩, s)
  | .plan request => (refusal request).map fun code => (.error (.plan code), s)
  | .increment metric label amount =>
      if isFloat (s.metrics.count metric label + amount) then some ((), s.increment metric label amount)
      else none
  | .set metric label value => some ((), s.set metric label value)
  | _ => none

section
variable {refusal : PlanRequest → Option String} {cfg : BackendConfig}

theorem refusing_allowed {t : Nat} {x : Sys Counters BackendCall BackendAnswer} {s : Counters} {e : BackendCall}
    {r : BackendAnswer e} {s' : Counters} (hx : x.world = s) (h : refusing refusal s e = some (r, s')) :
    backendAnswers cfg t x e r s' := by
  subst hx
  cases e with
  | plan request =>
      obtain ⟨code, -, hcode⟩ := Option.map_eq_some_iff.mp h
      exact (Prod.mk.inj hcode).2.symm
  | increment metric label amount =>
      simp only [refusing, Option.ite_none_right_eq_some, Option.some.injEq] at h
      exact (Prod.mk.inj h.2).2.symm
  | _ => cases h <;> rfl

/-- A planner that refuses under registered codes only. -/
theorem refusing_meets {q : BackendRequest} {t : Nat} {x : Sys Counters BackendCall BackendAnswer} {s : Counters}
    {e : BackendCall} {r : BackendAnswer e} {s' : Counters} (hx : x.world = s)
    (hrefusal : ∀ request code, refusal request = some code → isRefusal (lit code) = true)
    (h : refusing refusal s e = some (r, s')) : MeetsContract t q x e r := by
  subst hx
  cases e with
  | plan request =>
      obtain ⟨code, hcode, hr⟩ := Option.map_eq_some_iff.mp h
      obtain ⟨rfl, -⟩ := Prod.mk.inj hr
      exact ⟨fun _ => hrefusal request code hcode, trivial⟩
  | increment metric label amount =>
      simp only [refusing, Option.ite_none_right_eq_some] at h
      exact ⟨trivial, h.1⟩
  | _ => cases h <;> exact ⟨trivial, trivial⟩

end

/-- Every prefix is found empty. -/
def emptyBuckets : Cast ((backendMachine registryBackend).when MeetsContract) Counters where
  world := id
  answer _ _ _ s e := refusing (fun _ => some "inventory_empty") s e
  allowed t q x s e r s' hx h := by
    refine ⟨refusing_allowed (t := t) hx h, refusing_meets hx ?_ h⟩
    intro request code hcode
    cases hcode
    decide

/-- The planner's own check of the request, as far as it refuses. -/
def ownRefusal (request : PlanRequest) : Option String :=
  match validatePlanRequest registry request with
  | .error (.plan code) => some code
  | _ => none

/-- The planner is the repository's, up to its first read. -/
def ownPlanner : Cast (backendMachine registryBackend) Counters where
  world := id
  answer _ _ _ s e := refusing ownRefusal s e
  allowed t _ _ _ _ _ _ hx h := refusing_allowed (t := t) hx h

abbrev MetricsStage := Stage BackendRequest Counters BackendCall BackendAnswer (Except Raised Json) Counters

/-- One bulk plan, from a fresh start to its end. -/
def bulkRun {m : Machine BackendRequest Counters BackendCall BackendAnswer (Except Raised Json)}
    (cast : Cast m Counters) (actor : String) : Option MetricsStage :=
  cast.play [.start 0 (bulkBy actor), .upTo 0 fun _ => false] (cast.opening Counters.fresh)

theorem freshUnused : unused (id Counters.fresh) := rfl

theorem metrics_registered_emptyBuckets : ∃ p : Pool BackendRequest Counters BackendCall BackendAnswer
      (Except Raised Json), Reachable ((backendMachine registryBackend).when MeetsContract) unused p ∧
    p.sys.world.metrics.count refusalsMetric (lit "inventory_empty") = 3 ∧ Registered p.sys.world.metrics := by
  have hrun : ((bulkRun emptyBuckets "operator").any fun x =>
      x.scene.metrics.count refusalsMetric (lit "inventory_empty") == 3) = true := by decide +kernel
  obtain ⟨x, hx, hcount⟩ := (Option.any_eq_true _ _).mp hrun
  have hfits := (Cast.play_steps (emptyBuckets.opening_fits Counters.fresh) hx).2
  have hreach : Reachable ((backendMachine registryBackend).when MeetsContract) unused x.pool :=
    Cast.play_reachable freshUnused hx
  refine ⟨x.pool, hreach, ?_, (metrics_registered hreach).1⟩
  rw [hfits]
  exact beq_iff_eq.mp hcount

/-- A bulk plan by an actor that is not an identity leaves the endpoint with its fallback. -/
theorem metrics_poisoned_actor : ¬ ∀ (cfg : BackendConfig)
    (p : Pool BackendRequest Counters BackendCall BackendAnswer (Except Raised Json)),
    Reachable (backendMachine cfg) unused p →
    ∃ body, renderMetrics p.sys.world.metrics maxMetricsBytes = .ok body ∧
      metricsBody p.sys.world.metrics = .ok body := by
  intro h
  have hrun : ((bulkRun ownPlanner "not an identity").any fun x =>
      renderMetrics x.scene.metrics maxMetricsBytes == .error (.metrics "metric_value_invalid")) = true := by
    decide +kernel
  obtain ⟨x, hx, hrender⟩ := (Option.any_eq_true _ _).mp hrun
  have hfits := (Cast.play_steps (ownPlanner.opening_fits Counters.fresh) hx).2
  obtain ⟨body, hbody, -⟩ := h registryBackend x.pool (Cast.play_reachable freshUnused hx)
  have hscene : renderMetrics x.scene.metrics maxMetricsBytes = .ok body := by
    rw [hfits] at hbody
    exact hbody
  rw [beq_iff_eq.mp hrender] at hscene
  cases hscene

end Checkpoints
