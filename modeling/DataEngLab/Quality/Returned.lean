/-
A run that returned is proof of what it says.

`run_ok` takes a returned run apart into its calls, in order.  Two partition checks have
succeeded on the way: one of the split before anything was written, one of the two tables
that were read back.  From the second follows that these hold just the valid and just the
invalid rows of the source, counted with repetition (`Partitioned.clean_perm`,
`Partitioned.quarantine_perm`), because no row is on the wrong side and together they are
the source.

Spark compares rows by what they are grouped under, where the two zeros are one value and
so are all NaN; `Row.key` is that value.  A table that was read back with `-0.0` in place of
`0.0` is therefore accepted, and validity does not tell the two apart either.
-/
import DataEngLab.Quality.Steps

namespace Quality

open Lib

/-! ### Validity and row comparison -/

theorem Schema.cell_key (schema : Schema) (name : String) (row : Row) :
    schema.cell name row.key = (schema.cell name row).key := by
  simp only [Schema.cell, Row.key]
  generalize schema.map Field.name = names
  induction names generalizing row with
  | nil => rfl
  | cons head names ih =>
      cases row with
      | nil => rfl
      | cons c row =>
          simp only [List.map_cons, List.zip_cons_cons, List.lookup_cons]
          split
          · rfl
          · exact ih row

theorem Cell.key_eq_finite {c : Cell} {v : ℚ} (hv : v ≠ 0) :
    c.key = .double (.finite v) ↔ c = .double (.finite v) := by
  constructor
  · intro h
    rcases c with _ | _ | _ | _ | (_ | _ | _ | _) | _ | _ | _ | _ | _ <;> simp_all [Cell.key]
  · rintro rfl
    rfl

/-- **Rows that are compared as equal are valid together.** -/
theorem isValid_key (schema : Schema) (row : Row) : isValid schema row.key = isValid schema row := by
  rw [Bool.eq_iff_iff, isValid_iff, isValid_iff, Schema.cell_key, Schema.cell_key]
  constructor
  · rintro ⟨fare, passengers, hf, hp, hpos, hmax, hlow, hhigh⟩
    rw [Cell.key_eq_finite hpos.ne'] at hf
    rw [Cell.key_eq_finite (by linarith)] at hp
    exact ⟨fare, passengers, hf, hp, hpos, hmax, hlow, hhigh⟩
  · rintro ⟨fare, passengers, hf, hp, hpos, hmax, hlow, hhigh⟩
    exact ⟨fare, passengers, by rw [hf]; rfl, by rw [hp]; rfl, hpos, hmax, hlow, hhigh⟩

theorem filter_keys (p : Row → Bool) (hp : ∀ r : Row, p r.key = p r) (rows : List Row) :
    (rows.map Row.key).filter p = (rows.filter p).map Row.key := by
  rw [List.filter_map]
  congr 2
  funext r
  exact hp r

/-! ### The partition -/

section
variable {bronze clean quarantine : Frame}

theorem Partitioned.perm (h : Partitioned bronze clean quarantine) :
    (clean.rows.map Row.key ++ quarantine.rows.map Row.key).Perm (bronze.rows.map Row.key) := by
  rw [← List.map_append]
  exact sameRows_iff.mp h.same

/-- **The clean table holds just the valid rows of the source.** -/
theorem Partitioned.clean_perm (h : Partitioned bronze clean quarantine) :
    (clean.rows.map Row.key).Perm ((bronze.rows.filter (isValid bronzeSchema)).map Row.key) := by
  have hperm := h.perm.filter (isValid bronzeSchema)
  have hclean : clean.rows.filter (isValid bronzeSchema) = clean.rows :=
    List.filter_eq_self.mpr h.clean_valid
  have hquarantine : quarantine.rows.filter (isValid bronzeSchema) = [] :=
    List.filter_eq_nil_iff.mpr fun r hr => by simp [h.quarantine_invalid r hr]
  rw [List.filter_append, filter_keys _ (isValid_key _), filter_keys _ (isValid_key _),
    filter_keys _ (isValid_key _), hclean, hquarantine, List.map_nil, List.append_nil] at hperm
  exact hperm

/-- **The quarantine table holds just the invalid rows of the source.** -/
theorem Partitioned.quarantine_perm (h : Partitioned bronze clean quarantine) :
    (quarantine.rows.map Row.key).Perm
      ((bronze.rows.filter fun row => !isValid bronzeSchema row).map Row.key) := by
  have hkey : ∀ r : Row, (!isValid bronzeSchema r.key) = !isValid bronzeSchema r := fun r => by
    rw [isValid_key]
  have hperm := h.perm.filter fun row => !isValid bronzeSchema row
  have hclean : (clean.rows.filter fun row => !isValid bronzeSchema row) = [] :=
    List.filter_eq_nil_iff.mpr fun r hr => by simp [h.clean_valid r hr]
  have hquarantine : (quarantine.rows.filter fun row => !isValid bronzeSchema row) = quarantine.rows :=
    List.filter_eq_self.mpr fun r hr => by simp [h.quarantine_invalid r hr]
  rw [List.filter_append, filter_keys _ hkey, filter_keys _ hkey, filter_keys _ hkey, hclean,
    hquarantine, List.map_nil, List.nil_append] at hperm
  exact hperm

theorem Partitioned.quarantine_count (h : Partitioned bronze clean quarantine) :
    quarantine.count = bronze.rows.countP fun row => !isValid bronzeSchema row := by
  have hlength := h.quarantine_perm.length_eq
  rwa [List.length_map, List.length_map, ← List.countP_eq_length_filter] at hlength

end

/-! ### A returned run -/

/-- What a run read, and the calls of its store, part by part. -/
structure Evidence {S : Type} (A : S → Type) where
  snapshot : SourceSnapshot
  bronze : Table
  clean : Table
  quarantine : Table
  readback : Frame
  ensured : List (Event (Effect S) (Answer A))
  captured : List (Event (Effect S) (Answer A))
  read : List (Event (Effect S) (Answer A))
  wroteClean : List (Event (Effect S) (Answer A))
  readClean : List (Event (Effect S) (Answer A))
  wroteQuarantine : List (Event (Effect S) (Answer A))
  readQuarantine : List (Event (Effect S) (Answer A))
  rechecked : List (Event (Effect S) (Answer A))
  merged : List (Event (Effect S) (Answer A))
  readFacts : List (Event (Effect S) (Answer A))

namespace Evidence

variable {S : Type} {A : S → Type}

def sourceCount (x : Evidence A) : Nat := x.bronze.count

def cleanCount (x : Evidence A) : Nat := x.clean.count

def quarantineCount (x : Evidence A) : Nat := x.quarantine.count

def invalidCount (x : Evidence A) : Nat :=
  x.bronze.rows.countP fun row => !isValid bronzeSchema row

def runId (x : Evidence A) (arguments : Arguments) : Str :=
  sha256Text (runIdText arguments.logicalDate (some x.snapshot.id))

/-- The eight facts the run means to publish. -/
def facts (x : Evidence A) (arguments : Arguments) : List QualityFact :=
  intendedFacts arguments x.snapshot x.sourceCount x.invalidCount x.cleanCount x.quarantineCount

/-- The calls of the run, in order. -/
def log (x : Evidence A) : List (Event (Effect S) (Answer A)) :=
  x.ensured ++ x.captured ++ x.read ++ [ran .countBronze (.ok ()), ran .countInvalid (.ok ())] ++
    sourceMarks (observe .invalidRatio x.invalidCount x.sourceCount) ++ partitionJobs .partition ++
    (x.wroteClean ++ x.readClean ++ x.wroteQuarantine ++ x.readQuarantine ++ partitionJobs .readback) ++
    [ran .countSilver (.ok ()), ran .countSilver (.ok ())] ++ x.rechecked ++
    outcomeMarks x.sourceCount x.cleanCount x.quarantineCount ++
    (x.merged ++ x.readFacts ++ List.replicate 3 (ran .matchFacts (.ok ())))

/-- What the calls were, and what was found. -/
structure Holds (x : Evidence A) (store : QualityStore A) (arguments : Arguments)
    (result : RunResult) : Prop where
  ensured : Plays (store.ensureFactsTable .ensureFacts) x.ensured (.ok ())
  captured : Plays (store.captureSource .capture) x.captured (.ok (some x.snapshot))
  fresh : freshnessStatus x.snapshot.committedAt arguments.dataIntervalEnd.nanos = .pass
  positive : 0 < x.snapshot.id
  read : Plays (store.readBronze .readBronze) x.read (.ok x.bronze)
  nonempty : 0 < x.sourceCount
  written : ∃ parts properties, split x.bronze.toFrame = .ok parts ∧
    Plays (store.replaceSilver .writeClean cleanTable parts.clean properties) x.wroteClean (.ok ()) ∧
    Plays (store.replaceSilver .writeQuarantine quarantineTable parts.quarantine properties)
      x.wroteQuarantine (.ok ())
  readClean : Plays (store.readSilver .readClean cleanTable) x.readClean (.ok x.clean)
  readQuarantine : Plays (store.readSilver .readQuarantine quarantineTable) x.readQuarantine
    (.ok x.quarantine)
  partitioned : Partitioned x.bronze.toFrame x.clean.toFrame x.quarantine.toFrame
  rechecked : Plays (store.captureSource .recheck) x.rechecked (.ok (some x.snapshot))
  status : overallStatus ((x.facts arguments).map QualityFact.status) = .ok result.status
  notFail : result.status ≠ .fail
  merged : Plays (store.mergeFacts .writeFacts (x.facts arguments)) x.merged (.ok ())
  readFacts : Plays (store.readFacts .readFacts (x.runId arguments)) x.readFacts (.ok x.readback)
  readback_schema : x.readback.schema = factsSchema
  readback_rows : sameRows x.readback.rows (factFrame (x.facts arguments)).rows = true
  result : result = ⟨x.runId arguments, result.status, x.sourceCount, x.cleanCount, x.quarantineCount⟩

end Evidence

section
variable {S : Type} {A : S → Type} {store : QualityStore A} {arguments : Arguments}
  {l : List (Event (Effect S) (Answer A))}

/-- What is known when the source has been prepared. -/
theorem prepare_ok {p : Prepared} (h : Plays (prepare store arguments) l (.ok p)) :
    ∃ l₁ l₂ l₃ m, l = l₁ ++ l₂ ++ l₃ ++ [ran .countBronze (.ok ()), ran .countInvalid (.ok ())] ++
        sourceMarks (observe .invalidRatio m p.sourceCount) ++ partitionJobs .partition ∧
      Plays (store.ensureFactsTable .ensureFacts) l₁ (.ok ()) ∧
      Plays (store.captureSource .capture) l₂ (.ok (some p.snapshot)) ∧
      freshnessStatus p.snapshot.committedAt arguments.dataIntervalEnd.nanos = .pass ∧
      0 < p.snapshot.id ∧ Plays (store.readBronze .readBronze) l₃ (.ok p.bronze) ∧
      p.sourceCount = p.bronze.count ∧ 0 < p.sourceCount ∧
      m = (p.bronze.rows.countP fun row => !isValid bronzeSchema row) ∧
      p.facts = sourceFacts arguments p.snapshot p.sourceCount (observe .invalidRatio m p.sourceCount) ∧
      split p.bronze.toFrame = .ok p.parts ∧
      Plays (assertPartition .partition p.bronze.toFrame p.parts.clean p.parts.quarantine : Run A Unit)
        (partitionJobs .partition) (.ok ()) := by
  obtain ⟨m₁, n₁, snapshot, rfl, hopen, h₁⟩ := plays_bind_ok.mp h
  obtain ⟨m₂, n₂, bronze, rfl, hread, h₂⟩ := plays_bind_ok.mp h₁
  obtain ⟨m₃, n₃, count, rfl, hcount, h₃⟩ := plays_bind_ok.mp h₂
  obtain ⟨m₄, n₄, facts, rfl, hjudge, h₄⟩ := plays_bind_ok.mp h₃
  obtain ⟨m₅, n₅, parts, rfl, hparts, h₅⟩ := plays_bind_ok.mp h₄
  obtain ⟨rfl, hp⟩ := plays_pure.mp h₅
  obtain rfl := Except.ok.inj hp
  obtain ⟨l₁, l₂, rfl, hensure, hcapture, hfresh⟩ := openSource_ok hopen
  obtain ⟨hbronze, -⟩ := readSource_ok hread
  obtain ⟨rfl, hn, hpos⟩ := countSource_ok hcount
  obtain ⟨m, hm, -, rfl, hid, -, hfacts⟩ := judgeSource_ok hjudge
  obtain ⟨hsplit, hcheck⟩ := partitionSource_ok hparts
  obtain ⟨rfl, -⟩ := assertPartition_ok.mp hcheck
  refine ⟨l₁, l₂, m₂, m, ?_, hensure, hcapture, hfresh, hid, hbronze, hn, hpos, hm, hfacts, hsplit,
    hcheck⟩
  simp only [List.append_assoc, List.append_nil, List.cons_append, List.nil_append]

/-- **A returned run, taken apart.** -/
theorem run_ok {result : RunResult} (h : Plays (run store arguments) l (.ok result)) :
    ∃ x : Evidence A, l = x.log ∧ x.Holds store arguments result := by
  obtain ⟨l₀, m₀, ⟨snapshot, bronze, n, facts, parts⟩, rfl, hprepare, h₀⟩ := plays_bind_ok.mp h
  obtain ⟨l₁, l₂, l₃, m, rfl, hensure, hcapture, hfresh, hid, hread, hn, hpos, rfl, hfacts, hsplit,
    -⟩ := prepare_ok hprepare
  simp only at hcapture hfresh hid hread hn hpos hfacts hsplit
  subst hn hfacts
  rcases plays_lift_bind.mp h₀ with ⟨e, -, -, hr⟩ | ⟨runId, hrunId, h₁⟩
  · cases hr
  obtain ⟨-, rfl⟩ := qualityRunId_ok.mp hrunId
  rcases plays_lift_bind.mp h₁ with ⟨e, -, -, hr⟩ | ⟨properties, -, h₂⟩
  · cases hr
  obtain ⟨m₃, n₃, silver, rfl, hwrite, h₃⟩ := plays_bind_ok.mp h₂
  obtain ⟨m₄, n₄, counts, rfl, hcounts, h₄⟩ := plays_bind_ok.mp h₃
  obtain ⟨m₅, n₅, u, rfl, hrecheck, h₅⟩ := plays_bind_ok.mp h₄
  obtain ⟨m₆, n₆, outcome, rfl, houtcome, h₆⟩ := plays_bind_ok.mp h₅
  obtain ⟨m₇, n₇, status, rfl, hjudge, h₇⟩ := plays_bind_ok.mp h₆
  obtain ⟨m₈, n₈, v, rfl, hpublish, h₈⟩ := plays_bind_ok.mp h₇
  obtain ⟨rfl, hresult⟩ := plays_pure.mp h₈
  obtain rfl := Except.ok.inj hresult
  obtain ⟨w₁, w₂, w₃, w₄, rfl, hclean, hreadClean, hquarantine, hreadQuarantine, hpart⟩ :=
    writeSilver_ok hwrite
  obtain ⟨rfl, rfl⟩ := countSilver_ok hcounts
  obtain ⟨rfl, rfl⟩ := silverFacts_ok houtcome
  obtain ⟨rfl, hstatus, hnotFail⟩ := judgeOutcome_ok hjudge
  obtain ⟨p₁, p₂, readback, rfl, hmerge, hreadFacts, hschema, hsame⟩ := publishFacts_ok hpublish
  refine ⟨⟨snapshot, bronze, silver.1, silver.2, readback, l₁, l₂, l₃, w₁, w₂, w₃, w₄, m₅, p₁, p₂⟩, ?_,
    hensure, hcapture, hfresh, hid, hread, hpos, ⟨parts, properties, hsplit, hclean, hquarantine⟩,
    hreadClean, hreadQuarantine, hpart, recheckSource_ok hrecheck, hstatus, hnotFail, hmerge,
    hreadFacts, hschema, hsame, rfl⟩
  simp only [Evidence.log, Evidence.sourceCount, Evidence.invalidCount, Evidence.cleanCount,
    Evidence.quarantineCount, List.append_assoc, List.append_nil, List.nil_append]

end

/-! ### The status of a run -/

theorem worst_spec : ∀ (rest : List Status) (s : Status),
    s.priority ≤ (worst s rest).priority ∧ (∀ t ∈ rest, t.priority ≤ (worst s rest).priority) ∧
      worst s rest ∈ s :: rest := by
  intro rest
  induction rest with
  | nil => intro s; exact ⟨le_rfl, nofun, List.mem_cons_self⟩
  | cons t rest ih =>
      intro s
      rw [worst]
      split_ifs with h
      · obtain ⟨hle, hall, hmem⟩ := ih t
        exact ⟨h.le.trans hle, List.forall_mem_cons.mpr ⟨hle, hall⟩, List.mem_cons_of_mem _ hmem⟩
      · obtain ⟨hle, hall, hmem⟩ := ih s
        refine ⟨hle, List.forall_mem_cons.mpr ⟨(not_lt.mp h).trans hle, hall⟩, ?_⟩
        rcases List.mem_cons.mp hmem with hs | hs
        · rw [hs]
          exact List.mem_cons_self
        · exact List.mem_cons_of_mem _ (List.mem_cons_of_mem _ hs)

/-- The overall status is one of the statuses and none is worse. -/
theorem overallStatus_ok {statuses : List Status} {status : Status}
    (h : overallStatus statuses = .ok status) :
    status ∈ statuses ∧ ∀ s ∈ statuses, s.priority ≤ status.priority := by
  cases statuses with
  | nil => cases h
  | cons s rest =>
      obtain rfl := Except.ok.inj h
      obtain ⟨hle, hall, hmem⟩ := worst_spec rest s
      exact ⟨hmem, List.forall_mem_cons.mpr ⟨hle, hall⟩⟩

theorem statusOfRatio_priority (value : Nat) : (statusOfRatio value).priority ≤ Status.fail.priority := by
  unfold statusOfRatio
  split_ifs <;> decide

/-- A run's facts pass, warn or fail. -/
theorem intendedFacts_priority {arguments : Arguments} {snapshot : SourceSnapshot} {n m c q : Nat} :
    ∀ s ∈ (intendedFacts arguments snapshot n m c q).map QualityFact.status,
      s.priority ≤ Status.fail.priority := by
  have hif : (if 0 < c then Status.pass else .fail).priority ≤ Status.fail.priority := by
    split_ifs <;> decide
  simp only [intendedFacts, sourceFacts, outcomeFacts, factFor, factOf, List.cons_append,
    List.nil_append, List.map_cons, List.map_nil, List.forall_mem_cons]
  exact ⟨by decide, by decide, by decide, statusOfRatio_priority _, by decide, hif,
    statusOfRatio_priority _, by decide, fun _ hs => absurd hs List.not_mem_nil⟩

/-- **A run that does not fail passes or warns, and its clean table has rows.** -/
theorem outcome_of_status {arguments : Arguments} {snapshot : SourceSnapshot} {n m c q : Nat}
    {status : Status}
    (h : overallStatus ((intendedFacts arguments snapshot n m c q).map QualityFact.status) = .ok status)
    (hfail : status ≠ .fail) : (status = .pass ∨ status = .warn) ∧ 0 < c := by
  obtain ⟨hmem, hmax⟩ := overallStatus_ok h
  have hle := intendedFacts_priority status hmem
  have hpass : status = .pass ∨ status = .warn := by
    cases status with
    | pass => exact .inl rfl
    | warn => exact .inr rfl
    | fail => exact absurd rfl hfail
    | stale => exact absurd hle (by decide)
    | missing => exact absurd hle (by decide)
  refine ⟨hpass, Nat.pos_of_ne_zero fun hc => ?_⟩
  have hempty : Status.fail ∈ (intendedFacts arguments snapshot n m c q).map QualityFact.status := by
    subst hc
    simp [intendedFacts, sourceFacts, outcomeFacts, factFor, factOf]
  have hworse := hmax _ hempty
  rcases hpass with rfl | rfl <;> exact absurd hworse (by decide)

end Quality
