/-
What a returned run guarantees, whatever store it ran on.

The direct store makes one call for each operation and its answers are arbitrary, so its
plays are the runs against every store.  A returned run made exactly the calls of
`returnedCalls`, and what it read has the properties that `returned` lists.  A run that
replaced a Silver table, returned or not, had checked the split of the source it read
(`checked_before_write`): what comes before the check makes no such call.
-/
import DataEngLab.Quality.Returned

namespace Quality

open Lib

/-! ### What the preparation may call -/

section
variable {S : Type} {A : S → Type} {α : Type} {P : Effect S → Prop} {store : QualityStore A}
  {arguments : Arguments}

theorem only_onFailure {operation : Run A α} {handler : QualityFailure → Run A Unit}
    (hop : Only P operation) (hhandler : ∀ f, Only P (handler f)) :
    Only P (onFailure operation handler) := by
  refine Only.handle hop fun thrown => ?_
  cases thrown with
  | failure f => exact Only.bind (hhandler f) fun _ => Only.throw
  | _ => exact Only.throw

theorem only_controlled {otherwise : QualityFailure} {operation : Run A α} (h : Only P operation) :
    Only P (controlled otherwise operation) :=
  Only.handle h fun _ => Only.throw

theorem only_action (hjob : ∀ p, P (.job p)) {p : Place} {value : α} :
    Only P (action p value : Run A α) :=
  Only.bind ⟨hjob p, fun _ => trivial⟩ fun _ => Only.pure

theorem only_fact (hfact : ∀ r s d, P (.fact r s d)) {snapshot : Option SourceSnapshot}
    {ruleId : RuleId} {metric : Metric} {status : Status} {diagnostic : Diagnostic} :
    Only P (fact arguments snapshot ruleId metric status diagnostic : Run A QualityFact) :=
  Only.bind ⟨hfact ruleId status diagnostic, fun _ => trivial⟩ fun _ =>
    Only.bind Only.lift fun _ => Only.bind Only.lift fun _ => Only.bind Only.lift fun _ => Only.pure

theorem only_persistDiagnostic (hmerge : ∀ facts, Only P (store.mergeFacts .diagnostics facts))
    {facts : List QualityFact} : Only P (persistDiagnostic store facts) := by
  unfold persistDiagnostic
  split
  · exact Only.pure
  · refine Only.handle (hmerge facts) fun thrown => ?_
    cases thrown with
    | fatal => exact Only.throw
    | _ => exact Only.pure

theorem only_recordFailure (hfact : ∀ r s d, P (.fact r s d))
    (hmerge : ∀ facts, Only P (store.mergeFacts .diagnostics facts))
    {snapshot : Option SourceSnapshot} {ruleId : RuleId} {metric : Metric} {diagnostic : Diagnostic} :
    Only P (recordFailure store arguments snapshot ruleId metric diagnostic) :=
  Only.bind (only_fact hfact) fun _ => only_persistDiagnostic hmerge

theorem only_assertPartition (hjob : ∀ p, P (.job p)) {p : Place} {bronze clean quarantine : Frame} :
    Only P (assertPartition p bronze clean quarantine : Run A Unit) := by
  have hact : ∀ {β : Type} {value : β}, Only P (action p value : Run A β) := only_action hjob
  exact Only.bind Only.lift fun _ => Only.bind Only.lift fun _ => Only.bind Only.lift fun _ =>
    Only.bind hact fun _ => Only.bind Only.lift fun _ => Only.bind hact fun _ =>
    Only.bind Only.lift fun _ => Only.bind hact fun _ => Only.bind hact fun _ =>
    Only.bind hact fun _ => Only.bind Only.lift fun _ => Only.bind hact fun _ =>
    Only.bind Only.lift fun _ => Only.bind hact fun _ => Only.lift

/-- The preparation calls for the source and the record of a rejection, and nothing else. -/
theorem prepare_only (hjob : ∀ p, P (.job p)) (hfact : ∀ r s d, P (.fact r s d))
    (hensure : Only P (store.ensureFactsTable .ensureFacts))
    (hcapture : Only P (store.captureSource .capture)) (hread : Only P (store.readBronze .readBronze))
    (hmerge : ∀ facts, Only P (store.mergeFacts .diagnostics facts)) :
    Only P (prepare store arguments) := by
  have hrecord : ∀ {snapshot : Option SourceSnapshot} {ruleId : RuleId} {metric : Metric}
      {diagnostic : Diagnostic},
      Only P (recordFailure store arguments snapshot ruleId metric diagnostic) :=
    only_recordFailure hfact hmerge
  have hpersist : ∀ {facts : List QualityFact}, Only P (persistDiagnostic store facts) :=
    only_persistDiagnostic hmerge
  have hopen : Only P (openSource store arguments) := by
    refine Only.bind (only_controlled hensure) fun _ => Only.bind
      (only_onFailure (only_controlled hcapture) fun _ => hrecord) fun captured => ?_
    cases captured with
    | none => exact Only.bind (only_fact hfact) fun _ => Only.bind hpersist fun _ => Only.throw
    | some snapshot =>
        refine Only.bind ?_ fun _ => Only.pure
        unfold requireFresh
        split
        · exact Only.bind (only_fact hfact) fun _ => Only.bind hpersist fun _ => Only.throw
        · exact Only.pure
  have hsource : ∀ snapshot, Only P (readSource store arguments snapshot) := fun snapshot =>
    Only.bind (only_onFailure (only_controlled hread) fun _ => hrecord) fun _ =>
      Only.bind (only_onFailure (only_controlled Only.lift) fun _ => hrecord) fun _ => Only.pure
  have hcount : ∀ snapshot bronze, Only P (countSource store arguments snapshot bronze) := by
    intro snapshot bronze
    refine Only.bind (only_onFailure (only_controlled (only_action hjob)) fun _ => hrecord) fun n =>
      Only.bind ?_ fun _ => Only.pure
    unfold requireNonempty
    split
    · exact Only.bind hrecord fun _ => Only.throw
    · exact Only.pure
  have hjudge : ∀ snapshot bronze n, Only P (judgeSource store arguments snapshot bronze n) := by
    intro snapshot bronze n
    have hinvalid : Only P (countInvalid store arguments snapshot bronze n) :=
      only_onFailure (only_controlled (Only.bind Only.lift fun _ => only_action hjob)) fun _ => hrecord
    have hfacts : ∀ o, Only P (bronzeFacts arguments snapshot n o : Run A _) := fun o =>
      Only.bind (only_fact hfact) fun _ => Only.bind (only_fact hfact) fun _ =>
        Only.bind (only_fact hfact) fun _ => Only.bind (only_fact hfact) fun _ => Only.pure
    refine Only.bind hinvalid fun m => Only.bind Only.lift fun o => Only.bind (hfacts o) fun facts =>
      Only.bind ?_ fun _ => Only.pure
    unfold requireBelowFail
    split
    · exact Only.bind hpersist fun _ => Only.throw
    · exact Only.pure
  have hpartition : ∀ snapshot bronze n, Only P (partitionSource store arguments snapshot bronze n) :=
    fun snapshot bronze n => Only.bind (only_controlled Only.lift) fun _ =>
      Only.bind (only_onFailure (only_controlled (only_assertPartition hjob)) fun _ => hrecord)
        fun _ => Only.pure
  exact Only.bind hopen fun snapshot => Only.bind (hsource snapshot) fun bronze =>
    Only.bind (hcount snapshot _) fun n => Only.bind (hjudge snapshot _ n) fun facts =>
    Only.bind (hpartition snapshot _ n) fun parts => Only.pure

end

/-! ### The direct store -/

/-- The calls of the direct store, and their answers. -/
abbrev StoreEvent : Type := Event (Effect StoreCall) (Answer StoreAnswer)

/-- A call that replaces a table. -/
def Replaces : Effect StoreCall → Prop
  | .store _ (.replaceSilver _ _ _) => True
  | _ => False

theorem only_ask {p : Place} {c : StoreCall} (h : ¬ Replaces (.store p c)) :
    Only (fun e => ¬ Replaces e) (ask p c : Run StoreAnswer (StoreAnswer c)) :=
  ⟨h, fun _ => trivial⟩

theorem prepare_replaces_nothing (arguments : Arguments) :
    Only (fun e => ¬ Replaces e) (prepare directStore arguments) :=
  prepare_only (fun _ => not_false) (fun _ _ _ => not_false) (only_ask not_false) (only_ask not_false)
    (only_ask not_false) fun _ => only_ask not_false

/-- The calls of a returned run, in order. -/
def returnedCalls (arguments : Arguments) (snapshot : SourceSnapshot)
    (bronze clean quarantine : Table) (readback : Frame) (parts : SplitResult)
    (properties : Properties) : List StoreEvent :=
  let n := bronze.count
  let m := bronze.rows.countP fun row => !isValid bronzeSchema row
  let facts := intendedFacts arguments snapshot n m clean.count quarantine.count
  let runId := sha256Text (runIdText arguments.logicalDate (some snapshot.id))
  [answered .ensureFacts StoreCall.ensureFactsTable (.ok ()),
    answered .capture StoreCall.captureSource (.ok (some snapshot)),
    answered .readBronze StoreCall.readBronze (.ok bronze),
    ran .countBronze (.ok ()), ran .countInvalid (.ok ())] ++
  sourceMarks (observe .invalidRatio m n) ++
  partitionJobs .partition ++
  [answered .writeClean (StoreCall.replaceSilver cleanTable parts.clean properties) (.ok ()),
    answered .readClean (StoreCall.readSilver cleanTable) (.ok clean),
    answered .writeQuarantine (StoreCall.replaceSilver quarantineTable parts.quarantine properties)
      (.ok ()),
    answered .readQuarantine (StoreCall.readSilver quarantineTable) (.ok quarantine)] ++
  partitionJobs .readback ++
  [ran .countSilver (.ok ()), ran .countSilver (.ok ()),
    answered .recheck StoreCall.captureSource (.ok (some snapshot))] ++
  outcomeMarks n clean.count quarantine.count ++
  [answered .writeFacts (StoreCall.mergeFacts facts) (.ok ()),
    answered .readFacts (StoreCall.readFacts runId) (.ok readback),
    ran .matchFacts (.ok ()), ran .matchFacts (.ok ()), ran .matchFacts (.ok ())]

/-- What a run that returned `result` has read and compared. -/
structure Shown (arguments : Arguments) (l : List StoreEvent) (result : RunResult)
    (snapshot : SourceSnapshot) (bronze clean quarantine : Table) (readback : Frame)
    (facts : List QualityFact) : Prop where
  calls : ∃ parts properties, split bronze.toFrame = .ok parts ∧
    l = returnedCalls arguments snapshot bronze clean quarantine readback parts properties
  clean_rows : (clean.rows.map Row.key).Perm
    ((bronze.rows.filter fun row => isValid bronzeSchema row).map Row.key)
  quarantine_rows : (quarantine.rows.map Row.key).Perm
    ((bronze.rows.filter fun row => !isValid bronzeSchema row).map Row.key)
  counts : result.sourceCount = bronze.count ∧ result.cleanCount = clean.count ∧
    result.quarantineCount = quarantine.count
  sum : result.sourceCount = result.cleanCount + result.quarantineCount
  clean_pos : 0 < result.cleanCount
  source_pos : 0 < result.sourceCount
  rules : facts.map QualityFact.ruleId = expectedRuleIds
  merged : answered .writeFacts (StoreCall.mergeFacts facts) (.ok ()) ∈ l
  status_mem : result.status ∈ facts.map QualityFact.status
  status_worst : ∀ s ∈ facts.map QualityFact.status, s.priority ≤ result.status.priority
  status : result.status = .pass ∨ result.status = .warn
  runId : ∀ f ∈ facts, f.qualityRunId = result.qualityRunId
  readback_schema : readback.schema = factsSchema
  readback_rows : readback.rows.Perm (facts.map QualityFact.row)

theorem factsSchema_no_double : ∀ c ∈ factsSchema, c.type ≠ .double := by decide

theorem shown_of_run_ok {arguments : Arguments} {l : List StoreEvent} {result : RunResult}
    (h : Plays (run directStore arguments) l (.ok result)) :
    ∃ snapshot bronze clean quarantine readback facts,
      Shown arguments l result snapshot bronze clean quarantine readback facts := by
  obtain ⟨x, rfl, hx⟩ := run_ok h
  obtain ⟨parts, properties, hsplit, hwroteClean, hwroteQuarantine⟩ := hx.written
  have hlog : x.log = returnedCalls arguments x.snapshot x.bronze x.clean x.quarantine x.readback
      parts properties := by
    rw [Evidence.log, plays_ask.mp hx.ensured, plays_ask.mp hx.captured, plays_ask.mp hx.read,
      plays_ask.mp hwroteClean, plays_ask.mp hx.readClean, plays_ask.mp hwroteQuarantine,
      plays_ask.mp hx.readQuarantine, plays_ask.mp hx.rechecked, plays_ask.mp hx.merged,
      plays_ask.mp hx.readFacts]
    rfl
  obtain ⟨hstatus, hclean⟩ := outcome_of_status hx.status hx.notFail
  obtain ⟨hmem, hworst⟩ := overallStatus_ok hx.status
  refine ⟨x.snapshot, x.bronze, x.clean, x.quarantine, x.readback, x.facts arguments,
    ⟨parts, properties, hsplit, hlog⟩, hx.partitioned.clean_perm, hx.partitioned.quarantine_perm, ?_, ?_,
    ?_, ?_, intendedFacts_rules _ _ _ _, ?_, hmem, hworst, hstatus, ?_, hx.readback_schema, ?_⟩
  · rw [hx.result]
    exact ⟨rfl, rfl, rfl⟩
  · rw [hx.result]
    exact hx.partitioned.counts.symm
  · rw [hx.result]
    exact hclean
  · rw [hx.result]
    exact hx.nonempty
  · rw [hlog]
    simp [returnedCalls, Evidence.facts, Evidence.sourceCount, Evidence.invalidCount,
      Evidence.cleanCount, Evidence.quarantineCount]
  · rw [hx.result]
    simp [Evidence.facts, intendedFacts, sourceFacts, outcomeFacts, factFor, factOf, Evidence.runId]
  · refine Frame.perm_of_sameRows (g := factFrame (x.facts arguments)) ?_ factsSchema_no_double
      hx.readback_rows
    rw [hx.readback_schema]
    exact factsSchema_no_double

/-- **No Silver table is replaced before the split of the source has been checked**, and only the
parts of that split are written. -/
theorem checked_before_write {arguments : Arguments} {l : List StoreEvent}
    {r : Except Thrown RunResult} (h : Plays (run directStore arguments) l r) {l₁ l₂ : List StoreEvent}
    {p : Place} {identifier : Str} {frame : Frame} {properties : Properties} {a : Except Thrown Unit}
    (hl : l = l₁ ++ answered p (StoreCall.replaceSilver identifier frame properties) a :: l₂) :
    ∃ bronze parts before after, l₁ = before ++ partitionJobs .partition ++ after ∧
      answered .readBronze StoreCall.readBronze (.ok bronze) ∈ before ∧
      split bronze.toFrame = .ok parts ∧
      Plays (assertPartition .partition bronze.toFrame parts.clean parts.quarantine :
        Run StoreAnswer Unit) (partitionJobs .partition) (.ok ()) := by
  have hbefore : ∀ {k : List StoreEvent}, (∀ x ∈ k, ¬ Replaces x.1) →
      answered p (StoreCall.replaceSilver identifier frame properties) a ∉ k :=
    fun hk hmem => hk _ hmem trivial
  rcases plays_bind.mp h with ⟨e, hprepare, -⟩ | ⟨k₁, k₂, prepared, hk, hprepare, -⟩
  · have hnot := hbefore ((prepare_replaces_nothing arguments).plays hprepare)
    rw [hl] at hnot
    exact absurd (List.mem_append_right _ List.mem_cons_self) hnot
  · have hnot := hbefore ((prepare_replaces_nothing arguments).plays hprepare)
    obtain ⟨after, rfl⟩ : ∃ after, l₁ = k₁ ++ after := by
      rw [hk] at hl
      rcases List.append_eq_append_iff.mp hl with ⟨after, h₁, -⟩ | ⟨rest, h₁, h₂⟩
      · exact ⟨after, h₁⟩
      · cases rest with
        | nil => exact ⟨[], by simpa using h₁.symm⟩
        | cons x rest =>
            obtain ⟨rfl, -⟩ := List.cons.inj h₂
            rw [h₁] at hnot
            exact absurd (List.mem_append_right _ List.mem_cons_self) hnot
    obtain ⟨l₃, l₄, l₅, m, rfl, -, -, -, -, hread, -, -, -, -, hsplit, hcheck⟩ := prepare_ok hprepare
    refine ⟨prepared.bronze, prepared.parts, _, after, rfl, ?_, hsplit, hcheck⟩
    rw [plays_ask.mp hread]
    simp only [List.append_assoc, List.mem_append, List.mem_cons]
    exact .inr (.inr (.inl (.inl rfl)))

/-- **What a run against any store shows.**  If it returned, the two tables it read back hold just
the valid and just the invalid rows of the source it read, as Spark compares rows, with the counts
it returns; the snapshot was the same before and after; the status is the worst of the eight and
passes or warns; and the facts read back are the eight it meant to publish.  Whether or not it
returned, it has replaced no Silver table before the check of the partition succeeded. -/
theorem run_guarantee (arguments : Arguments) (l : List StoreEvent) (r : Except Thrown RunResult)
    (h : Plays (run directStore arguments) l r) :
    (∀ result, r = .ok result → ∃ snapshot bronze clean quarantine readback facts,
      Shown arguments l result snapshot bronze clean quarantine readback facts) ∧
    (∀ l₁ l₂ p identifier frame properties a,
      l = l₁ ++ answered p (StoreCall.replaceSilver identifier frame properties) a :: l₂ →
      ∃ bronze parts before after, l₁ = before ++ partitionJobs .partition ++ after ∧
        answered .readBronze StoreCall.readBronze (.ok bronze) ∈ before ∧
        split bronze.toFrame = .ok parts ∧
        Plays (assertPartition .partition bronze.toFrame parts.clean parts.quarantine :
          Run StoreAnswer Unit) (partitionJobs .partition) (.ok ())) := by
  refine ⟨?_, fun l₁ l₂ p identifier frame properties a => checked_before_write h⟩
  rintro result rfl
  exact shown_of_run_ok h

/-! ### A run -/

/-- A valid trip, with the tolls it cost. -/
def tripRow (tolls : Double) : Row :=
  [.long 1, .timestampNtz 0, .timestampNtz 600000000, .double (.finite 1), .double (.finite 2),
    .double (.finite 1), .string (lit "N"), .long 1, .long 2, .long 1, .double (.finite 10),
    .double (.finite 0), .double (.finite 0), .double (.finite 0), .double tolls,
    .double (.finite 0), .double (.finite 10), .double (.finite 0), .double (.finite 0), .date 0]

theorem tripRow_conforms (tolls : Double) : Conforms bronzeSchema (tripRow tolls) := by
  simp [Conforms, bronzeSchema, tripRow, Cell.fits]

def tripTable (tolls : Double) : Table where
  schema := bronzeSchema
  rows := [tripRow tolls]
  conforms r hr := by
    rw [List.mem_singleton.mp hr]
    exact tripRow_conforms tolls
  countable := by rw [List.length_singleton]; decide

def emptyTable : Table where
  schema := bronzeSchema
  rows := []
  conforms r hr := by cases hr
  countable := countable_nil

def sampleDay : WholeSecond := ⟨63871286400, by decide⟩

def sampleArguments : Arguments := ⟨sampleDay, sampleDay, upstreamDagId⟩

def sampleSnapshot : SourceSnapshot := ⟨7, sampleDay.nanos, schemaSha256⟩

def sampleResult : RunResult :=
  ⟨sha256Text (runIdText sampleDay (some 7)), .pass, 1, 1, 0⟩

/-- A store that holds one trip and gives it back with the tolls `tolls`; the state is the facts. -/
def sampleAnswer (tolls : Double) (facts : List QualityFact) :
    (e : Effect StoreCall) → Answer StoreAnswer e × List QualityFact
  | .store _ .ensureFactsTable => (.ok (), facts)
  | .store _ .captureSource => (.ok (some sampleSnapshot), facts)
  | .store _ .readBronze => (.ok (tripTable (.finite 0)), facts)
  | .store _ (.replaceSilver _ _ _) => (.ok (), facts)
  | .store _ (.readSilver identifier) =>
      (.ok (if identifier = cleanTable then tripTable tolls else emptyTable), facts)
  | .store _ (.mergeFacts values) => (.ok (), values)
  | .store _ (.readFacts _) => (.ok (factFrame facts), facts)
  | .job _ => (.ok (), facts)
  | .fact _ _ _ => ((), facts)

/-- A backend with the same trip, whose one snapshot was committed at `committedAt`; the state is the
properties and the facts it was given last. -/
def backendAnswer (committedAt : Int) (state : Properties × List QualityFact) :
    (e : Effect BackendCall) → Answer BackendAnswer e × (Properties × List QualityFact)
  | .store _ (.tableExists identifier) => (.ok (identifier == sourceTable), state)
  | .store _ (.table identifier) =>
      (.ok (if identifier = quarantineTable then emptyTable else tripTable (.finite 0)), state)
  | .store _ .querySnapshots => (.ok [⟨some 7, some committedAt⟩], state)
  | .store _ (.queryProperties _) => (.ok state.1, state)
  | .store _ (.queryFacts _) => (.ok (factFrame state.2), state)
  | .store _ (.setProperties _ values) => (.ok (), values, state.2)
  | .store _ (.createNamespace _) => (.ok (), state)
  | .store _ .createFactsTable => (.ok (), state)
  | .store _ (.replace _ _) => (.ok (), state)
  | .store _ (.mergeFacts values) => (.ok (), state.1, values)
  | .job _ => (.ok (), state)
  | .fact _ _ _ => ((), state)

def sampleRun (tolls : Double) : List StoreEvent × Except Thrown RunResult :=
  record (sampleAnswer tolls) (run directStore sampleArguments) []

/-- The run returned this. -/
def Returns (r : Except Thrown RunResult) (result : RunResult) : Bool :=
  match r with
  | .ok found => found = result
  | .error _ => false

theorem eq_ok_of_returns {r : Except Thrown RunResult} {result : RunResult}
    (h : Returns r result = true) : r = .ok result := by
  cases r with
  | error e => cases h
  | ok found => rw [of_decide_eq_true h]

theorem sampleRun_plays (tolls : Double) (h : Returns (sampleRun tolls).2 sampleResult = true) :
    Plays (run directStore sampleArguments) (sampleRun tolls).1 (.ok sampleResult) := by
  rw [← eq_ok_of_returns h]
  exact record_plays _ _ _

theorem run_guarantee_sample : ∃ l snapshot bronze clean quarantine readback facts,
    Plays (run directStore sampleArguments) l (.ok sampleResult) ∧
      Shown sampleArguments l sampleResult snapshot bronze clean quarantine readback facts := by
  have hplays := sampleRun_plays (.finite 0) (by decide +kernel)
  obtain ⟨snapshot, bronze, clean, quarantine, readback, facts, h⟩ :=
    (run_guarantee sampleArguments _ _ hplays).1 sampleResult rfl
  exact ⟨_, snapshot, bronze, clean, quarantine, readback, facts, hplays, h⟩

/-- The clean table can come back with `-0.0` where the source has `0.0`: the run returns, and the
rows that were read back are not the rows of the source. -/
theorem negative_zero_accepted : ∃ l,
    Plays (run directStore sampleArguments) l (.ok sampleResult) ∧
      answered .readBronze StoreCall.readBronze (.ok (tripTable (.finite 0))) ∈ l ∧
      answered .readClean (StoreCall.readSilver cleanTable) (.ok (tripTable .negativeZero)) ∈ l ∧
      ¬ (tripTable .negativeZero).rows.Perm
        ((tripTable (.finite 0)).rows.filter (isValid bronzeSchema)) := by
  have hplays := sampleRun_plays .negativeZero (by decide +kernel)
  obtain ⟨snapshot, bronze, clean, quarantine, readback, facts, h⟩ := shown_of_run_ok hplays
  obtain ⟨parts, properties, -, hcalls⟩ := h.calls
  have hanswers := record_answers (sampleAnswer .negativeZero) (run directStore sampleArguments) []
  have hread : answered .readBronze StoreCall.readBronze (.ok bronze) ∈ (sampleRun .negativeZero).1 := by
    rw [hcalls]
    simp [returnedCalls]
  have hclean : answered .readClean (StoreCall.readSilver cleanTable) (.ok clean) ∈
      (sampleRun .negativeZero).1 := by
    rw [hcalls]
    simp [returnedCalls]
  obtain ⟨w, hw⟩ := hanswers _ hread
  obtain ⟨v, hv⟩ := hanswers _ hclean
  obtain rfl : bronze = tripTable (.finite 0) := Except.ok.inj hw
  obtain rfl : clean = tripTable .negativeZero := Except.ok.inj hv
  refine ⟨_, hplays, hread, hclean, ?_⟩
  have hne : tripRow .negativeZero ≠ tripRow (.finite 0) := by decide
  intro hperm
  have hmem := hperm.subset (List.mem_singleton.mpr rfl : tripRow .negativeZero ∈ _)
  exact hne (List.mem_singleton.mp (List.mem_of_mem_filter hmem))

end Quality
