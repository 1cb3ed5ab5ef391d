/-
What each part of a run did, if it came to its end.

One lemma for each part: a play of the part that ends without an exception, taken apart.
The handlers leave no trace in such a play, since each of them ends by throwing.
-/
import DataEngLab.Quality.Pipeline

namespace Quality

open Lib

variable {S : Type} {A : S → Type} {α : Type} {store : QualityStore A} {arguments : Arguments}
  {snapshot : SourceSnapshot} {l : List (Event (Effect S) (Answer A))}

/-- What `fact` gives once it has been marked. -/
def builtFact (arguments : Arguments) (snapshot : Option SourceSnapshot) (ruleId : RuleId)
    (metric : Metric) (status : Status) (diagnostic : Diagnostic) : Except Thrown QualityFact := do
  requireRuleStatusDiagnostic ruleId status diagnostic
  let runId ← qualityRunId arguments.logicalDate (snapshot.map SourceSnapshot.id)
  return factOf arguments snapshot runId ruleId.definition metric status diagnostic

theorem plays_fact {snapshot : Option SourceSnapshot} {ruleId : RuleId} {metric : Metric}
    {status : Status} {diagnostic : Diagnostic} {r : Except Thrown QualityFact} :
    Plays (fact arguments snapshot ruleId metric status diagnostic : Run A QualityFact) l r ↔
      l = [noted ruleId status diagnostic] ∧
        r = builtFact arguments snapshot ruleId metric status diagnostic := by
  have hrest : ∀ l' : List (Event (Effect S) (Answer A)),
      Plays (do
        let rule ← Proc.lift (orElse (rules.find? fun rule => rule.ruleId == ruleId)
          (.illegalArgument (lit "Quality rule is unavailable")))
        Proc.lift (requireRuleStatusDiagnostic ruleId status diagnostic)
        let runId ← Proc.lift (qualityRunId arguments.logicalDate (snapshot.map SourceSnapshot.id))
        return factOf arguments snapshot runId rule metric status diagnostic : Run A QualityFact) l' r ↔
        l' = [] ∧ r = builtFact arguments snapshot ruleId metric status diagnostic := by
    intro l'
    rw [find_rule, builtFact]
    cases requireRuleStatusDiagnostic ruleId status diagnostic with
    | error e => exact plays_throw
    | ok u =>
        cases qualityRunId arguments.logicalDate (snapshot.map SourceSnapshot.id) with
        | error e => exact plays_throw
        | ok runId => exact plays_pure
  rw [fact, plays_bind]
  constructor
  · rintro (⟨e, hnote, -⟩ | ⟨l₁, l₂, u, rfl, hnote, h⟩)
    · cases (plays_note.mp hnote).2
    · obtain ⟨rfl, -⟩ := plays_note.mp hnote
      obtain ⟨rfl, hr⟩ := (hrest l₂).mp h
      exact ⟨rfl, hr⟩
  · rintro ⟨rfl, hr⟩
    exact .inr ⟨_, [], (), rfl, plays_note.mpr ⟨rfl, rfl⟩, (hrest []).mpr ⟨rfl, hr⟩⟩

theorem builtFact_ok {snapshot : Option SourceSnapshot} {ruleId : RuleId} {metric : Metric}
    {status : Status} {diagnostic : Diagnostic} {f : QualityFact} :
    builtFact arguments snapshot ruleId metric status diagnostic = .ok f ↔
      Allowed ruleId status diagnostic ∧ (∀ s, snapshot = some s → 0 < s.id) ∧
        f = factOf arguments snapshot
          (sha256Text (runIdText arguments.logicalDate (snapshot.map SourceSnapshot.id)))
          ruleId.definition metric status diagnostic := by
  simp only [builtFact, bind_eq_ok, requireRuleStatusDiagnostic_ok, qualityRunId_ok, pure_eq_ok,
    exists_const]
  constructor
  · rintro ⟨hallowed, runId, ⟨hid, rfl⟩, rfl⟩
    exact ⟨hallowed, fun s hs => hid s.id (by rw [hs]; rfl), rfl⟩
  · rintro ⟨hallowed, hid, rfl⟩
    refine ⟨hallowed, _, ⟨fun id hs => ?_, rfl⟩, rfl⟩
    obtain ⟨s, hsome, rfl⟩ := Option.map_eq_some_iff.mp hs
    exact hid s hsome

/-- The fact of a rule about a snapshot. -/
def factFor (arguments : Arguments) (snapshot : SourceSnapshot) (ruleId : RuleId) (metric : Metric)
    (status : Status) (diagnostic : Diagnostic) : QualityFact :=
  factOf arguments (some snapshot) (sha256Text (runIdText arguments.logicalDate (some snapshot.id)))
    ruleId.definition metric status diagnostic

theorem plays_fact_bind_ok {ruleId : RuleId} {metric : Metric} {status : Status}
    {diagnostic : Diagnostic} {f : QualityFact → Run A α} {a : α} :
    Plays (fact arguments (some snapshot) ruleId metric status diagnostic >>= f : Run A α) l (.ok a) ↔
      Allowed ruleId status diagnostic ∧ 0 < snapshot.id ∧
        ∃ l', l = noted ruleId status diagnostic :: l' ∧
          Plays (f (factFor arguments snapshot ruleId metric status diagnostic)) l' (.ok a) := by
  rw [plays_bind_ok]
  constructor
  · rintro ⟨l₁, l₂, built, rfl, hfact, hf⟩
    obtain ⟨rfl, hbuilt⟩ := plays_fact.mp hfact
    obtain ⟨hallowed, hid, rfl⟩ := builtFact_ok.mp hbuilt.symm
    exact ⟨hallowed, hid snapshot rfl, l₂, rfl, hf⟩
  · rintro ⟨hallowed, hid, l', rfl, hf⟩
    refine ⟨_, l', _, (List.singleton_append).symm, plays_fact.mpr ⟨rfl, ?_⟩, hf⟩
    refine (builtFact_ok.mpr ⟨hallowed, fun s hs => ?_, rfl⟩).symm
    obtain rfl := Option.some.inj hs
    exact hid

theorem plays_guarded_ok {otherwise : QualityFailure} {operation : Run A α} {a : α} :
    Plays (guarded store arguments snapshot otherwise operation) l (.ok a) ↔
      Plays operation l (.ok a) := by
  rw [guarded, plays_onFailure_ok, plays_controlled_ok]

/-! ### The source -/

theorem openSource_ok (h : Plays (openSource store arguments) l (.ok snapshot)) :
    ∃ l₁ l₂, l = l₁ ++ l₂ ∧ Plays (store.ensureFactsTable .ensureFacts) l₁ (.ok ()) ∧
      Plays (store.captureSource .capture) l₂ (.ok (some snapshot)) ∧
      freshnessStatus snapshot.committedAt arguments.dataIntervalEnd.nanos = .pass := by
  obtain ⟨l₁, l₂, u, rfl, hensure, h⟩ := plays_bind_ok.mp h
  obtain ⟨l₃, l₄, captured, rfl, hcapture, h⟩ := plays_bind_ok.mp h
  rw [captureSnapshot, plays_onFailure_ok, plays_controlled_ok] at hcapture
  rw [plays_controlled_ok] at hensure
  cases captured with
  | none =>
      obtain ⟨l₅, l₆, f, -, -, h⟩ := plays_bind_ok.mp h
      obtain ⟨l₇, l₈, v, -, -, h⟩ := plays_bind_ok.mp h
      cases (plays_throw.mp h).2
  | some found =>
      obtain ⟨l₅, l₆, v, rfl, hfresh, h⟩ := plays_bind_ok.mp h
      obtain ⟨rfl, hfound⟩ := plays_pure.mp h
      obtain rfl := Except.ok.inj hfound
      have hpass : freshnessStatus snapshot.committedAt arguments.dataIntervalEnd.nanos = .pass := by
        rw [freshnessStatus]
        split_ifs with hage
        · rw [requireFresh, freshnessStatus, if_pos hage] at hfresh
          obtain ⟨-, -, l₇, -, h⟩ := plays_fact_bind_ok.mp hfresh
          obtain ⟨l₈, l₉, w, -, -, h⟩ := plays_bind_ok.mp h
          cases (plays_throw.mp h).2
        · rfl
      rw [requireFresh, hpass] at hfresh
      obtain ⟨rfl, -⟩ := plays_pure.mp hfresh
      refine ⟨l₁, l₃, ?_, hensure, hcapture, hpass⟩
      rw [List.append_nil, List.append_nil]

theorem readSource_ok {bronze : Table} (h : Plays (readSource store arguments snapshot) l (.ok bronze)) :
    Plays (store.readBronze .readBronze) l (.ok bronze) ∧ bronze.schema = bronzeSchema := by
  obtain ⟨l₁, l₂, frame, rfl, hread, h⟩ := plays_bind_ok.mp h
  obtain ⟨l₃, l₄, u, rfl, hschema, h⟩ := plays_bind_ok.mp h
  obtain ⟨rfl, hframe⟩ := plays_pure.mp h
  obtain rfl := Except.ok.inj hframe
  rw [plays_onFailure_ok, plays_controlled_ok] at hread hschema
  obtain ⟨rfl, hexact⟩ := plays_lift.mp hschema
  refine ⟨by rwa [List.append_nil, List.append_nil], ?_⟩
  simpa [assertExactSchema, require] using hexact.symm

theorem countSource_ok {bronze : Frame} {n : Nat}
    (h : Plays (countSource store arguments snapshot bronze) l (.ok n)) :
    l = [ran .countBronze (.ok ())] ∧ n = bronze.count ∧ 0 < n := by
  obtain ⟨l₁, l₂, count, rfl, hcount, h⟩ := plays_bind_ok.mp h
  obtain ⟨l₃, l₄, u, rfl, hnonempty, h⟩ := plays_bind_ok.mp h
  obtain ⟨rfl, hn⟩ := plays_pure.mp h
  obtain rfl := Except.ok.inj hn
  rw [plays_onFailure_ok, plays_controlled_ok, plays_action_ok] at hcount
  obtain ⟨rfl, rfl⟩ := hcount
  cases hc : bronze.count with
  | zero =>
      rw [hc] at hnonempty
      obtain ⟨l₅, l₆, v, -, -, h⟩ := plays_bind_ok.mp hnonempty
      cases (plays_throw.mp h).2
  | succ k =>
      rw [hc] at hnonempty
      obtain ⟨rfl, -⟩ := plays_pure.mp hnonempty
      exact ⟨rfl, rfl, Nat.succ_pos k⟩

/-- The facts about the source. -/
def sourceFacts (arguments : Arguments) (snapshot : SourceSnapshot) (n : Nat)
    (invalid : SignalObservation) : List QualityFact :=
  [factFor arguments snapshot .sourceAvailable (countMetric n none) .pass .ok,
    factFor arguments snapshot .schema (wholeMetric 20 20) .pass .ok,
    factFor arguments snapshot .snapshotFreshness (ageMetric arguments snapshot) .pass .ok,
    factFor arguments snapshot .invalidRatio (ratioMetric invalid) invalid.status
      invalid.diagnosticCode]

/-- The marks of the facts about the source. -/
def sourceMarks (invalid : SignalObservation) : List (Event (Effect S) (Answer A)) :=
  [noted .sourceAvailable .pass .ok, noted .schema .pass .ok, noted .snapshotFreshness .pass .ok,
    noted .invalidRatio invalid.status invalid.diagnosticCode]

theorem bronzeFacts_ok {n : Nat} {invalid : SignalObservation} {facts : List QualityFact}
    (h : Plays (bronzeFacts arguments snapshot n invalid : Run A _) l (.ok facts)) :
    l = sourceMarks invalid ∧ 0 < snapshot.id ∧ facts = sourceFacts arguments snapshot n invalid := by
  obtain ⟨-, hid, l₁, rfl, h₁⟩ := plays_fact_bind_ok.mp h
  obtain ⟨-, -, l₂, rfl, h₂⟩ := plays_fact_bind_ok.mp h₁
  obtain ⟨-, -, l₃, rfl, h₃⟩ := plays_fact_bind_ok.mp h₂
  obtain ⟨-, -, l₄, rfl, h₄⟩ := plays_fact_bind_ok.mp h₃
  obtain ⟨rfl, hfacts⟩ := plays_pure.mp h₄
  exact ⟨rfl, hid, Except.ok.inj hfacts⟩

theorem invalidCount_ok {p : Place} {bronze : Frame} {m : Nat}
    (h : Plays (invalidCount p bronze : Run A Nat) l (.ok m)) :
    l = [ran p (.ok ())] ∧ m = bronze.rows.countP fun row => !isValid bronzeSchema row := by
  rcases plays_lift_bind.mp h with ⟨e, -, -, hr⟩ | ⟨u, -, h⟩
  · cases hr
  · exact plays_action_ok.mp h

theorem judgeSource_ok {bronze : Frame} {n : Nat} {facts : List QualityFact}
    (h : Plays (judgeSource store arguments snapshot bronze n) l (.ok facts)) :
    ∃ m, m = (bronze.rows.countP fun row => !isValid bronzeSchema row) ∧ m ≤ n ∧
      l = ran .countInvalid (.ok ()) :: sourceMarks (observe .invalidRatio m n) ∧ 0 < snapshot.id ∧
      (observe .invalidRatio m n).status ≠ .fail ∧
      facts = sourceFacts arguments snapshot n (observe .invalidRatio m n) := by
  obtain ⟨l₁, l₂, m, rfl, hcount, h₂⟩ := plays_bind_ok.mp h
  rw [countInvalid, plays_onFailure_ok, plays_controlled_ok] at hcount
  obtain ⟨rfl, hm⟩ := invalidCount_ok hcount
  rcases plays_lift_bind.mp h₂ with ⟨e, -, -, hr⟩ | ⟨o, ho, h₃⟩
  · cases hr
  obtain ⟨-, hle, rfl⟩ := ratioObservation_ok ho
  obtain ⟨l₃, l₄, built, rfl, hbuilt, h₄⟩ := plays_bind_ok.mp h₃
  obtain ⟨rfl, hid, rfl⟩ := bronzeFacts_ok hbuilt
  obtain ⟨l₅, l₆, u, rfl, hbelow, h₆⟩ := plays_bind_ok.mp h₄
  obtain ⟨rfl, hfacts⟩ := plays_pure.mp h₆
  have hstatus : (observe .invalidRatio m n).status ≠ .fail := by
    intro hfail
    rw [requireBelowFail, hfail] at hbelow
    obtain ⟨l₇, l₈, v, -, -, h⟩ := plays_bind_ok.mp hbelow
    cases (plays_throw.mp h).2
  have hnil : l₅ = [] := by
    rw [requireBelowFail] at hbelow
    split at hbelow
    · rename_i hfail
      exact absurd hfail hstatus
    · exact (plays_pure.mp hbelow).1
  subst hnil
  refine ⟨m, hm, hle, ?_, hid, hstatus, Except.ok.inj hfacts⟩
  rw [List.append_nil, List.append_nil, List.singleton_append]

/-! ### The partition -/

theorem assertExactSchema_ok {frame : Frame} {u : Unit} :
    assertExactSchema frame = .ok u ↔ frame.schema = bronzeSchema := by
  simp [assertExactSchema, require]

/-- What the partition check has established. -/
structure Partitioned (bronze clean quarantine : Frame) : Prop where
  bronze_schema : bronze.schema = bronzeSchema
  clean_schema : clean.schema = bronzeSchema
  quarantine_schema : quarantine.schema = bronzeSchema
  clean_valid : ∀ r ∈ clean.rows, isValid bronzeSchema r = true
  quarantine_invalid : ∀ r ∈ quarantine.rows, isValid bronzeSchema r = false
  counts : clean.count + quarantine.count = bronze.count
  same : sameRows (clean.rows ++ quarantine.rows) bronze.rows = true

/-- The jobs of a partition check that succeeded. -/
def partitionJobs (p : Place) : List (Event (Effect S) (Answer A)) :=
  List.replicate 7 (ran p (.ok ()))

theorem plays_require_bind_ok {c : Bool} {message : Str} {f : Unit → Run A α} {a : α} :
    Plays (Proc.lift (require c message) >>= f : Run A α) l (.ok a) ↔
      c = true ∧ Plays (f ()) l (.ok a) := by
  rw [plays_lift_bind]
  cases c with
  | false => simp [require]
  | true =>
      constructor
      · rintro (⟨e, -, -, hr⟩ | ⟨u, -, h⟩)
        · cases hr
        · exact ⟨rfl, h⟩
      · exact fun h => .inr ⟨(), rfl, h.2⟩

theorem plays_action_bind_ok {β : Type} {p : Place} {value : α} {f : α → Run A β} {b : β} :
    Plays (action p value >>= f : Run A β) l (.ok b) ↔
      ∃ l', l = ran p (.ok ()) :: l' ∧ Plays (f value) l' (.ok b) := by
  rw [plays_bind_ok]
  constructor
  · rintro ⟨l₁, l₂, a, rfl, hact, hf⟩
    obtain ⟨rfl, rfl⟩ := plays_action_ok.mp hact
    exact ⟨l₂, rfl, hf⟩
  · rintro ⟨l', rfl, hf⟩
    exact ⟨_, l', value, List.singleton_append.symm, plays_action_ok.mpr ⟨rfl, rfl⟩, hf⟩

theorem assertPartition_ok {p : Place} {bronze clean quarantine : Frame} :
    Plays (assertPartition p bronze clean quarantine : Run A Unit) l (.ok ()) ↔
      l = partitionJobs p ∧ Partitioned bronze clean quarantine := by
  simp only [assertPartition, assertExactSchema, plays_require_bind_ok, plays_action_bind_ok,
    plays_lift, beq_iff_eq, Bool.not_eq_true', List.any_eq_false, Bool.not_eq_true,
    Bool.not_eq_false]
  constructor
  · rintro ⟨hb, hc, hq, l₁, rfl, hvalid, l₂, rfl, hinvalid, l₃, rfl, l₄, rfl, l₅, rfl, hcount, l₆, rfl,
      hextra, l₇, rfl, rfl, homitted⟩
    refine ⟨rfl, hb, hc, hq, hvalid, hinvalid, hcount, ?_⟩
    rw [sameRows, hextra, Bool.true_and]
    exact require_eq_ok.mp homitted.symm
  · rintro ⟨rfl, h⟩
    obtain ⟨hextra, homitted⟩ := Bool.and_eq_true_iff.mp h.same
    refine ⟨h.bronze_schema, h.clean_schema, h.quarantine_schema, _, rfl, h.clean_valid, _, rfl,
      h.quarantine_invalid, _, rfl, _, rfl, _, rfl, h.counts, _, rfl, hextra, _, rfl, rfl, ?_⟩
    exact (require_eq_ok.mpr homitted).symm

theorem split_ok {bronze : Frame} {parts : SplitResult} (h : split bronze = .ok parts) :
    parts.clean = bronze.filter (isValid bronzeSchema) ∧
      parts.quarantine = bronze.filter fun row => !isValid bronzeSchema row := by
  simp only [split, bind_eq_ok, pure_eq_ok] at h
  obtain ⟨-, -, rfl⟩ := h
  exact ⟨rfl, rfl⟩

theorem partitionSource_ok {bronze : Frame} {n : Nat} {parts : SplitResult}
    (h : Plays (partitionSource store arguments snapshot bronze n) l (.ok parts)) :
    split bronze = .ok parts ∧
      Plays (assertPartition .partition bronze parts.clean parts.quarantine : Run A Unit) l (.ok ()) := by
  obtain ⟨l₁, l₂, found, rfl, hsplit, h₂⟩ := plays_bind_ok.mp h
  obtain ⟨l₃, l₄, u, rfl, hcheck, h₄⟩ := plays_bind_ok.mp h₂
  obtain ⟨rfl, hfound⟩ := plays_pure.mp h₄
  obtain rfl := Except.ok.inj hfound
  rw [plays_controlled_ok] at hsplit
  obtain ⟨rfl, hparts⟩ := plays_lift.mp hsplit
  rw [plays_onFailure_ok, plays_controlled_ok] at hcheck
  exact ⟨hparts.symm, by rwa [List.nil_append, List.append_nil]⟩

/-! ### The Silver tables -/

theorem writeSilver_ok {bronze : Frame} {parts : SplitResult} {properties : Properties}
    {silver : Table × Table}
    (h : Plays (writeSilver store arguments snapshot bronze parts properties) l (.ok silver)) :
    ∃ l₁ l₂ l₃ l₄, l = l₁ ++ l₂ ++ l₃ ++ l₄ ++ partitionJobs .readback ∧
      Plays (store.replaceSilver .writeClean cleanTable parts.clean properties) l₁ (.ok ()) ∧
      Plays (store.readSilver .readClean cleanTable) l₂ (.ok silver.1) ∧
      Plays (store.replaceSilver .writeQuarantine quarantineTable parts.quarantine properties) l₃
        (.ok ()) ∧
      Plays (store.readSilver .readQuarantine quarantineTable) l₄ (.ok silver.2) ∧
      Partitioned bronze silver.1.toFrame silver.2.toFrame := by
  obtain ⟨l₁, m₁, u, rfl, hwrite, h₁⟩ := plays_bind_ok.mp h
  obtain ⟨l₂, m₂, clean, rfl, hread, h₂⟩ := plays_bind_ok.mp h₁
  obtain ⟨l₃, m₃, v, rfl, hwrite', h₃⟩ := plays_bind_ok.mp h₂
  obtain ⟨l₄, m₄, quarantine, rfl, hread', h₄⟩ := plays_bind_ok.mp h₃
  obtain ⟨l₅, m₅, w, rfl, hcheck, h₅⟩ := plays_bind_ok.mp h₄
  obtain ⟨rfl, hsilver⟩ := plays_pure.mp h₅
  obtain rfl := Except.ok.inj hsilver
  rw [plays_guarded_ok] at hwrite hread hwrite' hread' hcheck
  obtain ⟨rfl, hpart⟩ := assertPartition_ok.mp hcheck
  refine ⟨l₁, l₂, l₃, l₄, ?_, hwrite, hread, hwrite', hread', hpart⟩
  simp only [List.append_nil, List.append_assoc]

theorem countSilver_ok {clean quarantine : Frame} {counts : Nat × Nat}
    (h : Plays (countSilver store arguments snapshot clean quarantine) l (.ok counts)) :
    l = [ran .countSilver (.ok ()), ran .countSilver (.ok ())] ∧
      counts = (clean.count, quarantine.count) := by
  rw [countSilver, plays_guarded_ok] at h
  obtain ⟨l₁, rfl, h₁⟩ := plays_action_bind_ok.mp h
  obtain ⟨l₂, rfl, h₂⟩ := plays_action_bind_ok.mp h₁
  obtain ⟨rfl, hcounts⟩ := plays_pure.mp h₂
  exact ⟨rfl, Except.ok.inj hcounts⟩

theorem recheckSource_ok (h : Plays (recheckSource store arguments snapshot) l (.ok ())) :
    Plays (store.captureSource .recheck) l (.ok (some snapshot)) := by
  obtain ⟨l₁, l₂, found, rfl, hcapture, h₂⟩ := plays_bind_ok.mp h
  rw [plays_guarded_ok] at hcapture
  cases hsame : decide (found = some snapshot) with
  | false =>
      rw [hsame] at h₂
      obtain ⟨l₃, l₄, u, -, -, h₄⟩ := plays_bind_ok.mp h₂
      cases (plays_throw.mp h₄).2
  | true =>
      rw [hsame] at h₂
      obtain ⟨rfl, -⟩ := plays_pure.mp h₂
      rw [of_decide_eq_true hsame] at hcapture
      rwa [List.append_nil]

/-! ### The outcome -/

/-- The facts about the two tables. -/
def outcomeFacts (arguments : Arguments) (snapshot : SourceSnapshot) (n c q : Nat) : List QualityFact :=
  let quarantined := observe .quarantineRatio q n
  [factFor arguments snapshot .partitionConservation (wholeMetric (c + q) n) .pass .ok,
    factFor arguments snapshot .cleanNonempty (countMetric c (some n)) (if 0 < c then .pass else .fail)
      (if 0 < c then .ok else .outputEmpty),
    factFor arguments snapshot .quarantineRatio (ratioMetric quarantined) quarantined.status
      quarantined.diagnosticCode,
    factFor arguments snapshot .outputReadback (wholeMetric 8 8) .pass .ok]

def outcomeMarks (n c q : Nat) : List (Event (Effect S) (Answer A)) :=
  let quarantined := observe .quarantineRatio q n
  [noted .partitionConservation .pass .ok,
    noted .cleanNonempty (if 0 < c then .pass else .fail) (if 0 < c then .ok else .outputEmpty),
    noted .quarantineRatio quarantined.status quarantined.diagnosticCode,
    noted .outputReadback .pass .ok]

theorem silverFacts_ok {n c q : Nat} {facts : List QualityFact}
    (h : Plays (silverFacts arguments snapshot n c q : Run A _) l (.ok facts)) :
    l = outcomeMarks n c q ∧ facts = outcomeFacts arguments snapshot n c q := by
  rcases plays_lift_bind.mp h with ⟨e, -, -, hr⟩ | ⟨o, ho, h₁⟩
  · cases hr
  obtain ⟨-, -, rfl⟩ := ratioObservation_ok ho
  obtain ⟨-, -, l₁, rfl, h₂⟩ := plays_fact_bind_ok.mp h₁
  obtain ⟨-, -, l₂, rfl, h₃⟩ := plays_fact_bind_ok.mp h₂
  obtain ⟨-, -, l₃, rfl, h₄⟩ := plays_fact_bind_ok.mp h₃
  obtain ⟨-, -, l₄, rfl, h₅⟩ := plays_fact_bind_ok.mp h₄
  obtain ⟨rfl, hfacts⟩ := plays_pure.mp h₅
  exact ⟨rfl, Except.ok.inj hfacts⟩

theorem judgeOutcome_ok {facts : List QualityFact} {status : Status}
    (h : Plays (judgeOutcome store facts) l (.ok status)) :
    l = [] ∧ overallStatus (facts.map QualityFact.status) = .ok status ∧ status ≠ .fail := by
  rcases plays_lift_bind.mp h with ⟨e, -, -, hr⟩ | ⟨found, hfound, h₁⟩
  · cases hr
  cases found with
  | fail =>
      obtain ⟨l₁, l₂, u, -, -, h₂⟩ := plays_bind_ok.mp h₁
      cases (plays_throw.mp h₂).2
  | _ =>
      obtain ⟨rfl, hstatus⟩ := plays_pure.mp h₁
      obtain rfl := Except.ok.inj hstatus
      exact ⟨rfl, hfound, nofun⟩

/-- The eight facts a run means to publish of `n` source rows, `m` invalid ones among them, and
`c` and `q` rows in the two tables. -/
def intendedFacts (arguments : Arguments) (snapshot : SourceSnapshot) (n m c q : Nat) :
    List QualityFact :=
  sourceFacts arguments snapshot n (observe .invalidRatio m n) ++ outcomeFacts arguments snapshot n c q

theorem intendedFacts_rules (n m c q : Nat) :
    (intendedFacts arguments snapshot n m c q).map QualityFact.ruleId = expectedRuleIds := rfl

/-! ### The facts -/

theorem requireFactsReadback_ok {frame : Frame} {expected : List QualityFact}
    (h : Plays (requireFactsReadback frame expected : Run A Unit) l (.ok ())) :
    l = List.replicate 3 (ran .matchFacts (.ok ())) ∧ frame.schema = factsSchema ∧
      sameRows frame.rows (factFrame expected).rows = true := by
  have hrequire : ∀ {c : Bool} {f : Unit → Run A Unit} {l : List (Event (Effect S) (Answer A))},
      Plays (Proc.lift (Lib.require c (Thrown.failure factsDiffer)) >>= f : Run A Unit) l (.ok ()) →
        c = true ∧ Plays (f ()) l (.ok ()) := by
    intro c f l h
    rcases plays_lift_bind.mp h with ⟨e, -, -, hr⟩ | ⟨u, hu, h⟩
    · cases hr
    · exact ⟨require_eq_ok.mp hu, h⟩
  obtain ⟨hschema, h₁⟩ := hrequire h
  obtain ⟨l₁, rfl, h₂⟩ := plays_action_bind_ok.mp h₁
  obtain ⟨-, h₃⟩ := hrequire h₂
  obtain ⟨l₂, rfl, h₄⟩ := plays_action_bind_ok.mp h₃
  obtain ⟨hextra, h₅⟩ := hrequire h₄
  obtain ⟨l₃, rfl, h₆⟩ := plays_action_bind_ok.mp h₅
  obtain ⟨rfl, homitted⟩ := plays_lift.mp h₆
  refine ⟨rfl, by simpa using hschema, ?_⟩
  rw [sameRows, hextra, Bool.true_and]
  exact require_eq_ok.mp homitted.symm

theorem publishFacts_ok {runId : Str} {facts : List QualityFact}
    (h : Plays (publishFacts store runId facts) l (.ok ())) :
    ∃ l₁ l₂ readback, l = l₁ ++ l₂ ++ List.replicate 3 (ran .matchFacts (.ok ())) ∧
      Plays (store.mergeFacts .writeFacts facts) l₁ (.ok ()) ∧
      Plays (store.readFacts .readFacts runId) l₂ (.ok readback) ∧
      readback.schema = factsSchema ∧ sameRows readback.rows (factFrame facts).rows = true := by
  obtain ⟨l₁, m₁, u, rfl, hmerge, h₁⟩ := plays_bind_ok.mp h
  obtain ⟨l₂, l₃, readback, rfl, hread, h₂⟩ := plays_bind_ok.mp h₁
  rw [plays_controlled_ok] at hmerge hread h₂
  obtain ⟨rfl, hschema, hsame⟩ := requireFactsReadback_ok h₂
  exact ⟨l₁, l₂, readback, (List.append_assoc _ _ _).symm, hmerge, hread, hschema, hsame⟩

end Quality
