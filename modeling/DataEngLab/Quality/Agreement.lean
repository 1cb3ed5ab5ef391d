/-
Writer and reader of the facts.

The eight facts of a run, read back as a group, meet every condition of the dashboards' queries
but one whatever the run counted.  The exception is the age of the snapshot.  The writer floors
the seconds between the commit and the end of the interval; the queries divide milliseconds by
`1000.0`, which rounds to tenths of a second, and floor then.  Where the fraction of a second is
within the last twentieth, the rounding has already reached the next second, and the run is in
neither dashboard (`dashboards_agree`).

The group comes in any order.  What is known of it is that it is a permutation of the eight
facts, and so that no two of its rows are about the same rule.
-/
import DataEngLab.Quality.Dashboards
import DataEngLab.Quality.Guarantee
import DataEngLab.Quality.Outcomes
import DataEngLab.Quality.Ratios

namespace Quality

open Lib

/-! ### The join -/

/-- What a query expects of a rule. -/
def expectedOf (ruleId : RuleId) : ExpectedRule :=
  let rule := ruleId.definition
  ⟨ruleId.text, ruleVersion, rule.layer.text, rule.owner, rule.metricName, rule.warnThreshold,
    rule.failThreshold⟩

/-- **The queries expect the rules of the run.** -/
theorem expectedRules_eq : expectedRules = expectedRuleIds.map expectedOf := rfl

theorem filter_expectedRules (ruleId : RuleId) :
    (expectedRules.filter fun e => expectedOf ruleId = e) = [expectedOf ruleId] := by
  cases ruleId <;> decide

/-- The columns the join compares. -/
def FactRow.described (f : FactRow) : ExpectedRule :=
  ⟨f.ruleId, f.ruleVersion, f.layer, f.owner, f.metricName, f.warnThreshold, f.failThreshold⟩

theorem joins_holds {f : FactRow} {e : ExpectedRule} : (joins f e).holds = true ↔ f.described = e := by
  obtain ⟨ruleId, version, layer, owner, metric, warn, fail⟩ := e
  simp only [Truth.holds_iff, joins, Truth.all_cons, Truth.all_nil, Sql.eq_some, Sql.same_true,
    and_true, FactRow.described, ExpectedRule.mk.injEq]

/-- A row of the join of the facts of a run. -/
def joinedFact (f : QualityFact) : Joined := (f.columns, some (expectedOf f.ruleId))

theorem leftJoin_facts {facts : List QualityFact}
    (h : ∀ f ∈ facts, f.columns.described = expectedOf f.ruleId) :
    leftJoin (facts.map QualityFact.columns) = facts.map joinedFact := by
  induction facts with
  | nil => rfl
  | cons f rest ih =>
      have hfilter : (expectedRules.filter fun e => (joins f.columns e).holds) =
          [expectedOf f.ruleId] := by
        rw [← filter_expectedRules, ← h f List.mem_cons_self]
        refine List.filter_congr fun e _ => ?_
        rw [Bool.eq_iff_iff, joins_holds, decide_eq_true_iff]
      rw [List.map_cons, List.map_cons, ← ih fun g hg => h g (List.mem_cons_of_mem _ hg)]
      rw [leftJoin, List.flatMap_cons, hfilter]
      rfl

theorem leftJoin_filter (table : List FactRow) (p : FactRow → Bool) :
    (leftJoin table).filter (fun r => p r.1) = leftJoin (table.filter p) := by
  induction table with
  | nil => rfl
  | cons f rest ih =>
      have hcons : ∀ t : List FactRow, leftJoin (f :: t) = leftJoin [f] ++ leftJoin t := fun t => by
        simp only [leftJoin, List.flatMap_cons, List.flatMap_nil, List.append_nil]
      have hall : ∀ r ∈ leftJoin [f], r.1 = f := by
        intro r hr
        simp only [leftJoin, List.flatMap_cons, List.flatMap_nil, List.append_nil] at hr
        split at hr
        · rw [List.mem_singleton.mp hr]
        · obtain ⟨e, -, rfl⟩ := List.mem_map.mp hr
          rfl
      rw [hcons, List.filter_append, ih]
      cases hp : p f with
      | true =>
          have hkeep : (leftJoin [f]).filter (fun r => p r.1) = leftJoin [f] :=
            List.filter_eq_self.mpr fun r hr => by rw [hall r hr, hp]
          rw [hkeep, List.filter_cons_of_pos hp, ← hcons]
      | false =>
          rw [List.filter_cons_of_neg (by simp [hp])]
          have hnil : (leftJoin [f]).filter (fun r => p r.1) = [] :=
            List.filter_eq_nil_iff.mpr fun r hr => by simp [hall r hr, hp]
          rw [hnil, List.nil_append]

theorem leftJoin_perm {t u : List FactRow} (h : t.Perm u) : (leftJoin t).Perm (leftJoin u) :=
  h.flatMap_right _

/-! ### The facts of a run -/

section
variable {arguments : Arguments} {snapshot : SourceSnapshot} {n m c q : Nat}

/-- Every fact is the fact of some rule about the snapshot. -/
theorem intendedFacts_factFor {f : QualityFact}
    (hf : f ∈ intendedFacts arguments snapshot n m c q) : ∃ ruleId metric status diagnostic,
      f = factFor arguments snapshot ruleId metric status diagnostic := by
  simp only [intendedFacts, sourceFacts, outcomeFacts, List.mem_append, List.mem_cons,
    List.not_mem_nil, or_false] at hf
  rcases hf with (h | h | h | h) | (h | h | h | h) <;> exact ⟨_, _, _, _, h⟩

theorem intendedFacts_described {f : QualityFact}
    (hf : f ∈ intendedFacts arguments snapshot n m c q) : f.columns.described = expectedOf f.ruleId := by
  obtain ⟨ruleId, metric, status, diagnostic, rfl⟩ := intendedFacts_factFor hf
  cases ruleId <;> rfl

/-- The facts as a group of the join, in any order. -/
structure Grouped (arguments : Arguments) (snapshot : SourceSnapshot) (n m c q : Nat)
    (rows : List Joined) : Prop where
  perm : rows.Perm ((intendedFacts arguments snapshot n m c q).map joinedFact)

namespace Grouped

variable {rows : List Joined} (h : Grouped arguments snapshot n m c q rows)
include h

theorem length_eq : rows.length = 8 := h.perm.length_eq

theorem ne_nil : rows ≠ [] := by
  rintro rfl
  cases h.length_eq

theorem keys : (rows.map fun r : Joined => r.1.ruleId).Nodup := by
  have hperm := h.perm.map fun r : Joined => r.1.ruleId
  rw [List.map_map] at hperm
  refine hperm.nodup_iff.mpr ?_
  have htexts : (intendedFacts arguments snapshot n m c q).map
      ((fun r : Joined => r.1.ruleId) ∘ joinedFact) = expectedRuleIds.map RuleId.text := rfl
  rw [htexts]
  decide

theorem mem {f : QualityFact} (hf : f ∈ intendedFacts arguments snapshot n m c q) :
    joinedFact f ∈ rows :=
  h.perm.mem_iff.mpr (List.mem_map_of_mem hf)

/-- A column that has one value in all facts about the snapshot. -/
theorem const {α : Type} {column : Joined → Option α} {a : α}
    (hcolumn : ∀ ruleId metric status diagnostic,
      column (joinedFact (factFor arguments snapshot ruleId metric status diagnostic)) = some a) :
    ∀ r ∈ rows, column r = some a := by
  intro r hr
  obtain ⟨f, hf, rfl⟩ := List.mem_map.mp (h.perm.mem_iff.mp hr)
  obtain ⟨ruleId, metric, status, diagnostic, rfl⟩ := intendedFacts_factFor hf
  exact hcolumn ruleId metric status diagnostic

theorem oneValue {α : Type} [DecidableEq α] {column : Joined → Option α} {a : α}
    (hcolumn : ∀ ruleId metric status diagnostic,
      column (joinedFact (factFor arguments snapshot ruleId metric status diagnostic)) = some a) :
    oneValue column rows = some true := by
  have hconst := h.const hcolumn
  rw [Quality.oneValue, Sql.count_const hconst, h.length_eq, Sql.countDistinct_const hconst h.ne_nil]
  rfl

theorem isValue {column : Joined → Option Str} {value : Str}
    (hcolumn : ∀ ruleId metric status diagnostic,
      column (joinedFact (factFor arguments snapshot ruleId metric status diagnostic)) = some value) :
    isValue column value rows = some true := by
  rw [Quality.isValue, h.oneValue hcolumn, Sql.minOf_const (h.const hcolumn) h.ne_nil]
  simp

theorem maxOf {α : Type} [LinearOrder α] {column : Joined → Option α} {a : α}
    (hcolumn : ∀ ruleId metric status diagnostic,
      column (joinedFact (factFor arguments snapshot ruleId metric status diagnostic)) = some a) :
    Sql.maxOf column rows = some a :=
  Sql.maxOf_const (h.const hcolumn) h.ne_nil

/-- What is asked of the fact of a rule is asked of that fact. -/
theorem once {f : QualityFact} (hf : f ∈ intendedFacts arguments snapshot n m c q)
    {condition : FactRow → Truth}
    (hcondition : ∀ r : FactRow, condition r = some true → r.ruleId = f.ruleId.text) :
    once condition rows = some true ↔ condition f.columns = some true := by
  have hone : Sql.countIf (fun r : Joined => condition r.1) rows = 1 ↔
      condition (joinedFact f).1 = some true :=
    Sql.countIf_eq_one h.keys (h.mem hf) fun r _ hr => hcondition r.1 hr
  rw [Quality.once, Option.some.injEq, beq_iff_eq]
  exact hone

theorem ofRule {f : QualityFact} (hf : f ∈ intendedFacts arguments snapshot n m c q)
    {ruleId : String} (hrule : lit ruleId = f.ruleId.text) (column : FactRow → Option Int) :
    ofRule ruleId column rows = column f.columns := by
  have hkey : lit ruleId = (fun r : Joined => r.1.ruleId) (joinedFact f) := hrule
  rw [Quality.ofRule, hkey]
  exact Sql.maxOf_case h.keys (h.mem hf)

end Grouped

end

/-! ### Dates -/

theorem WholeSecond.micros (t : WholeSecond) :
    t.nanos / 1000 = ((t.second : Int) - 62167219200) * 1000000 := by
  have hdiv : ∀ x : Int, x * 1000000000 / 1000 = x * 1000000 := fun x => by omega
  exact hdiv _

/-- **Both sides print one date.** -/
theorem formatDatetime_text (t : WholeSecond) : Sql.formatDatetime (t.nanos / 1000) = t.text := by
  rw [WholeSecond.micros]
  by_cases h : yearZero ≤ t.second
  · rw [WholeSecond.text, dif_pos h]
    refine Sql.formatDatetime_eq ?_
    simp only [yearZero] at h ⊢
    omega
  · have hlt : t.second < yearZero := not_le.mp h
    simp only [yearZero] at hlt
    generalize hk : t.second / 86400 = k
    have hkle : k < 366 := by omega
    have hday : ((t.second : Int) - 62167219200) * 1000000 / 1000000 / 86400 + 719162 = (k : Int) - 366 := by
      omega
    have hcycle : (((k : Int) - 366) % 146097).toNat = 145731 + k := by omega
    have hera : ((k : Int) - 366) / 146097 = -1 := by omega
    have hyear : yearOf (145731 + k) = 400 := by
      simp only [yearOf]
      omega
    have hrest : (((t.second : Int) - 62167219200) * 1000000 / 1000000 % 86400).toNat =
        t.second % 86400 := by omega
    have hfour : daysBeforeYear 4 = 1095 := by norm_num [daysBeforeYear]
    have hdays : (t.second + daysBeforeYear 4 * 86400) / 86400 = 1095 + k := by
      rw [hfour, Nat.add_mul_div_right _ _ (by decide), hk, Nat.add_comm]
    have hseconds : (t.second + daysBeforeYear 4 * 86400) % 86400 = t.second % 86400 :=
      Nat.add_mul_mod_self_right _ _ _
    have hyear4 : yearOf (1095 + k) = 4 := by
      simp only [yearOf]
      omega
    have hdoy : 1095 + k - daysBeforeYear 4 = k := by
      rw [hfour, Nat.add_sub_cancel_left]
    have hdoy' : 145731 + k - daysBeforeYear 400 = k := by
      have hbefore : daysBeforeYear 400 = 145731 := by norm_num [daysBeforeYear]
      rw [hbefore, Nat.add_sub_cancel_left]
    rw [WholeSecond.text, dif_neg h]
    simp only [Sql.formatDatetime, formatUtc, hday, hcycle, hera, hyear, hrest, hdays, hseconds,
      hyear4, hdoy, hdoy']
    rfl

/-! ### The conditions -/

/-- What a run that returns has counted: `n` rows, `m` of them invalid, and `c` and `q` rows in the
two tables. -/
structure Counted (n m c q : Nat) : Prop where
  invalid : m = q
  total : c + q = n
  clean : 0 < c
  countable : n < 2 ^ 63
  accepted : ratioValue q n ≤ failRatio

theorem FactRow.rule_of_all {f : FactRow} {ruleId : String} {rest : List Truth}
    (h : Truth.all (f.isRule ruleId :: rest) = some true) : f.ruleId = lit ruleId :=
  Sql.eq_some.mp (Truth.all_cons.mp h).1

theorem FactRow.judged_iff {f : FactRow} {status severity diagnostic : String} :
    f.judged status severity diagnostic = some true ↔
      f.status = lit status ∧ f.severity = lit severity ∧ f.diagnosticCode = lit diagnostic := by
  simp only [FactRow.judged, Truth.all_cons, Truth.all_nil, Sql.eq_some, and_true]

section
variable {arguments : Arguments} {snapshot : SourceSnapshot} {n m c q : Nat}

theorem passes_factFor (ruleId : RuleId) (metric : Metric) :
    (factFor arguments snapshot ruleId metric .pass .ok).columns.passes = some true :=
  FactRow.judged_iff.mpr ⟨rfl, rfl, rfl⟩

theorem allHeld_factFor {ruleId : RuleId} {text : String} {checks : Int}
    (hrule : ruleId.text = lit text) :
    FactRow.allHeld text checks
      (factFor arguments snapshot ruleId (wholeMetric checks checks) .pass .ok).columns = some true := by
  simp only [FactRow.allHeld, FactRow.isRule, FactRow.isWhole, Truth.all_cons, Truth.all_nil,
    passes_factFor, and_true]
  refine ⟨Sql.eq_some.mpr ?_, Sql.eq_some.mpr rfl, Sql.eq_some.mpr rfl, Sql.eq_some.mpr rfl⟩
  cases ruleId <;> exact hrule

/-- The fact about a ratio. -/
abbrev ratioFact (arguments : Arguments) (snapshot : SourceSnapshot) (ruleId : RuleId) (q n : Nat) :
    QualityFact :=
  factFor arguments snapshot ruleId (ratioMetric (observe ruleId q n)) (observe ruleId q n).status
    (observe ruleId q n).diagnosticCode

/-- **A ratio that was accepted is what the queries compute, with the status it has there.** -/
theorem ratio_factFor {ruleId : RuleId} {text : String} (hrule : ruleId.text = lit text)
    (hn : 0 < n) (hle : q ≤ n) (hmax : n < 2 ^ 63) (haccepted : ratioValue q n ≤ failRatio) :
    FactRow.ratio text (ratioFact arguments snapshot ruleId q n).columns = some true := by
  have hvalue : Sql.divide (Sql.toDecimal (some (q : Int)) 9) 9 (some (n : Int)) 0 =
      some ((ratioValue q n : Nat) : Int) := by
    rw [ratioValue_eq hn hle hmax, ← Sql.divide_nat hn, Sql.toDecimal, Option.map_some]
    push_cast
    rfl
  have hnotFail : ¬ failRatio < ratioValue q n := not_lt.mpr haccepted
  simp only [FactRow.ratio, FactRow.isRule, Truth.all_cons, Truth.all_nil, and_true]
  refine ⟨Sql.eq_some.mpr ?_, Sql.le_some.mpr (Int.natCast_nonneg q),
    Sql.le_some.mpr (Int.ofNat_le.mpr hle), Sql.above_some.mpr (Int.natCast_pos.mpr hn), ?_, ?_⟩
  · cases ruleId <;> exact hrule
  · exact (congrArg (Sql.eq _) hvalue).trans (Sql.eq_some.mpr rfl)
  · rw [Truth.or_eq_true]
    by_cases hwarn : warnRatio < ratioValue q n
    · right
      have hs : statusOfRatio (ratioValue q n) = .warn := by
        rw [statusOfRatio, if_neg hnotFail, if_pos hwarn]
      simp only [Truth.all_cons, Truth.all_nil, and_true]
      exact ⟨Sql.above_some.mpr (Int.ofNat_lt.mpr hwarn), Sql.le_some.mpr (Int.ofNat_le.mpr haccepted),
        FactRow.judged_iff.mpr ⟨congrArg Status.text hs, congrArg (fun s => (severity s).text) hs,
          congrArg (fun s => (ratioDiagnostic s).text) hs⟩⟩
    · left
      have hs : statusOfRatio (ratioValue q n) = .pass := by
        rw [statusOfRatio, if_neg hnotFail, if_neg hwarn]
      simp only [Truth.all_cons, Truth.all_nil, and_true]
      exact ⟨Sql.le_some.mpr (Int.ofNat_le.mpr (not_lt.mp hwarn)),
        FactRow.judged_iff.mpr ⟨congrArg Status.text hs, congrArg (fun s => (severity s).text) hs,
          congrArg (fun s => (ratioDiagnostic s).text) hs⟩⟩

/-- The fraction of a second between a commit, in microseconds, and the end of the interval is not
within the last twentieth; when the commit is the later, it may be at the bound. -/
def InTime (arguments : Arguments) (committedAt : Int) : Prop :=
  let millis := (arguments.dataIntervalEnd.nanos / 1000 - committedAt) / 1000
  (0 ≤ millis → millis % 1000 < 950) ∧ (millis < 0 → millis % 1000 ≤ 950)

instance (arguments : Arguments) (committedAt : Int) : Decidable (InTime arguments committedAt) :=
  inferInstanceAs (Decidable (_ ∧ _))

/-- The fact about the age of the snapshot. -/
abbrev ageFact (arguments : Arguments) (snapshot : SourceSnapshot) : QualityFact :=
  factFor arguments snapshot .snapshotFreshness (ageMetric arguments snapshot) .pass .ok

/-- **The age is what the queries compute just if the commit is in time.** -/
theorem snapshotFreshness_ageFact {committedAt : Int}
    (hcommitted : snapshot.committedAt = committedAt * 1000) (hmillis : (1000 : Int) ∣ committedAt)
    (hfresh : freshnessStatus snapshot.committedAt arguments.dataIntervalEnd.nanos = .pass) :
    (ageFact arguments snapshot).columns.snapshotFreshness = some true ↔
      InTime arguments committedAt := by
  have hmicros := WholeSecond.micros arguments.dataIntervalEnd
  obtain ⟨k, rfl⟩ := hmillis
  generalize hend : (arguments.dataIntervalEnd.second : Int) - 62167219200 = s at hmicros
  have hnanos : arguments.dataIntervalEnd.nanos = s * 1000000000 := by rw [← hend]; rfl
  have hage : ageSeconds snapshot.committedAt arguments.dataIntervalEnd.nanos =
      (s * 1000 - k) / 1000 := by
    rw [ageSeconds, hcommitted, hnanos]
    omega
  have hdiff : Sql.dateDiffMillis (ageFact arguments snapshot).columns.sourceSnapshotCommittedAt
      (some (ageFact arguments snapshot).columns.dataIntervalEnd) = some (s * 1000 - k) := by
    have hsource : (ageFact arguments snapshot).columns.sourceSnapshotCommittedAt =
        some (snapshot.committedAt / 1000) := rfl
    have hinterval : (ageFact arguments snapshot).columns.dataIntervalEnd = s * 1000000 := hmicros
    rw [hsource, hinterval, hcommitted, Sql.dateDiffMillis, Option.some.injEq]
    omega
  have hle : ageSeconds snapshot.committedAt arguments.dataIntervalEnd.nanos ≤ 21600 := by
    by_contra hgt
    rw [freshnessStatus, if_pos (not_le.mp hgt)] at hfresh
    cases hfresh
  have htime : InTime arguments (1000 * k) ↔
      Sql.eq (some (ageSeconds snapshot.committedAt arguments.dataIntervalEnd.nanos))
        (Sql.wholeSeconds (some (s * 1000 - k))) = some true := by
    have hthousand : ∀ x y : Int, (x * 1000000 - 1000 * y) / 1000 = x * 1000 - y := by omega
    rw [Sql.eq_some_left, hage, Sql.wholeSeconds_eq, InTime, hmicros, hthousand]
  rw [htime]
  simp only [FactRow.snapshotFreshness, FactRow.isRule, FactRow.counts, Truth.all_cons, Truth.all_nil,
    and_true, hdiff, passes_factFor]
  constructor
  · exact fun h => h.2.2.2.1
  · exact fun h => ⟨Sql.eq_some.mpr rfl, Sql.le_some.mpr hle, Sql.eq_some.mpr rfl, h,
      Sql.eq_some.mpr rfl⟩

/-! ### The group -/

namespace Grouped

variable {rows : List Joined} (h : Grouped arguments snapshot n m c q rows)
include h

theorem numbered : numbered rows = some true := by
  have hdistinct : Sql.countDistinct (required FactRow.ruleId) rows = 8 := by
    have hmap : rows.filterMap (required FactRow.ruleId) = rows.map fun r : Joined => r.1.ruleId :=
      congrFun List.filterMap_eq_map rows
    rw [Sql.countDistinct, hmap, h.keys.dedup, List.length_map, h.length_eq]
  have hexpected : Sql.count (fun r : Joined => r.2) rows = 8 := by
    rw [Sql.count, ← h.length_eq]
    refine List.countP_eq_length.mpr fun r hr => ?_
    obtain ⟨f, -, rfl⟩ := List.mem_map.mp (h.perm.mem_iff.mp hr)
    rfl
  rw [Quality.numbered, hdistinct, hexpected, h.length_eq]
  rfl

theorem bound (hdag : arguments.upstreamDagId = upstreamDagId) (hid : 0 < snapshot.id)
    (hschema : snapshot.schemaSha256 = schemaSha256) : bound rows = some true := by
  have hsnapshot : Sql.minOf (nullable FactRow.sourceSnapshotId) rows = some snapshot.id :=
    Sql.minOf_const (h.const fun _ _ _ _ => rfl) h.ne_nil
  simp only [Quality.bound, Truth.all_cons, Truth.all_nil, and_true, hsnapshot]
  refine ⟨h.isValue fun _ _ _ _ => rfl, h.isValue fun _ _ _ _ => rfl,
    h.isValue fun _ _ _ _ => congrArg some hdag, h.isValue fun _ _ _ _ => rfl,
    h.oneValue (a := snapshot.id) fun _ _ _ _ => rfl, Sql.above_some.mpr hid,
    h.oneValue (a := snapshot.committedAt / 1000) fun _ _ _ _ => rfl,
    h.isValue fun _ _ _ _ => congrArg some (hschema.trans schemaSha256_eq),
    h.oneValue (a := arguments.logicalDate.nanos / 1000) fun _ _ _ _ => rfl,
    h.oneValue (a := arguments.dataIntervalEnd.nanos / 1000) fun _ _ _ _ => rfl⟩

theorem logicalDate :
    Sql.maxOf (required FactRow.logicalDate) rows = some (arguments.logicalDate.nanos / 1000) :=
  h.maxOf fun _ _ _ _ => rfl

theorem snapshotId : Sql.maxOf (nullable FactRow.sourceSnapshotId) rows = some snapshot.id :=
  h.maxOf fun _ _ _ _ => rfl

theorem runDigest :
    runDigest rows = some (sha256Text (runIdText arguments.logicalDate (some snapshot.id))) := by
  rw [Quality.runDigest, h.logicalDate, h.snapshotId, Option.bind_eq_bind, Option.bind_some,
    formatDatetime_text]
  rfl

/-- What is asked of the fact of a rule, when the rule is asked for first. -/
theorem asked {f : QualityFact} (hf : f ∈ intendedFacts arguments snapshot n m c q)
    {condition : FactRow → Truth}
    (hcondition : ∀ r : FactRow, condition r = some true → r.ruleId = f.ruleId.text)
    (hholds : condition f.columns = some true) : Quality.once condition rows = some true :=
  (h.once hf hcondition).mpr hholds

theorem sourceAvailable (hn : 0 < n) : Quality.once FactRow.sourceAvailable rows = some true := by
  refine h.asked (f := factFor arguments snapshot .sourceAvailable (countMetric n none) .pass .ok)
    (by simp [intendedFacts, sourceFacts]) (fun r => FactRow.rule_of_all) ?_
  simp only [FactRow.sourceAvailable, FactRow.isRule, FactRow.counts, Truth.all_cons, Truth.all_nil,
    and_true, passes_factFor]
  exact ⟨Sql.eq_some.mpr rfl, Sql.above_some.mpr (Int.natCast_pos.mpr hn), rfl, Sql.eq_some.mpr rfl⟩

theorem schema : Quality.once FactRow.schema rows = some true :=
  h.asked (f := factFor arguments snapshot .schema (wholeMetric 20 20) .pass .ok)
    (by simp [intendedFacts, sourceFacts]) (fun r => FactRow.rule_of_all) (allHeld_factFor rfl)

theorem snapshotFreshness : Quality.once FactRow.snapshotFreshness rows = some true ↔
    (ageFact arguments snapshot).columns.snapshotFreshness = some true :=
  h.once (by simp [intendedFacts, sourceFacts]) fun r => FactRow.rule_of_all

theorem invalidRatio (hc : Counted n m c q) : Quality.once FactRow.invalidRatio rows = some true := by
  obtain ⟨rfl, htotal, hclean, hmax, haccepted⟩ := hc
  exact h.asked (f := ratioFact arguments snapshot .invalidRatio m n)
    (by simp [intendedFacts, sourceFacts]) (fun r => FactRow.rule_of_all)
    (ratio_factFor rfl (by omega) (by omega) hmax haccepted)

theorem partitionConservation (hc : Counted n m c q) :
    Quality.once FactRow.partitionConservation rows = some true := by
  obtain ⟨-, htotal, hclean, -, -⟩ := hc
  refine h.asked (f := factFor arguments snapshot .partitionConservation (wholeMetric (c + q) n) .pass .ok)
    (by simp [intendedFacts, outcomeFacts]) (fun r => FactRow.rule_of_all) ?_
  simp only [FactRow.partitionConservation, FactRow.isRule, FactRow.isWhole, Truth.all_cons,
    Truth.all_nil, and_true, passes_factFor]
  refine ⟨Sql.eq_some.mpr rfl, Sql.above_some.mpr ?_, Sql.eq_some.mpr ?_, Sql.eq_some.mpr rfl⟩
  · omega
  · omega

/-- The fact about the clean table of a run that does not fail. -/
abbrev cleanFact (arguments : Arguments) (snapshot : SourceSnapshot) (n c : Nat) : QualityFact :=
  factFor arguments snapshot .cleanNonempty (countMetric c (some n)) .pass .ok

omit h in
theorem cleanFact_mem (hclean : 0 < c) :
    cleanFact arguments snapshot n c ∈ intendedFacts arguments snapshot n m c q := by
  simp only [intendedFacts, outcomeFacts, if_pos hclean, List.mem_append, List.mem_cons, true_or,
    or_true]

theorem cleanNonempty (hc : Counted n m c q) :
    Quality.once FactRow.cleanNonempty rows = some true := by
  obtain ⟨-, htotal, hclean, -, -⟩ := hc
  refine h.asked (cleanFact_mem hclean) (fun r => FactRow.rule_of_all) ?_
  simp only [FactRow.cleanNonempty, FactRow.isRule, FactRow.counts, Truth.all_cons, Truth.all_nil,
    and_true, passes_factFor]
  exact ⟨Sql.eq_some.mpr rfl, Sql.above_some.mpr (Int.natCast_pos.mpr hclean),
    Sql.above_some.mpr (Int.natCast_pos.mpr (by omega)), Sql.eq_some.mpr rfl⟩

theorem quarantineRatio (hc : Counted n m c q) :
    Quality.once FactRow.quarantineRatio rows = some true := by
  obtain ⟨-, htotal, hclean, hmax, haccepted⟩ := hc
  exact h.asked (f := ratioFact arguments snapshot .quarantineRatio q n)
    (by simp [intendedFacts, outcomeFacts]) (fun r => FactRow.rule_of_all)
    (ratio_factFor rfl (by omega) (by omega) hmax haccepted)

theorem outputReadback : Quality.once FactRow.outputReadback rows = some true :=
  h.asked (f := factFor arguments snapshot .outputReadback (wholeMetric 8 8) .pass .ok)
    (by simp [intendedFacts, outcomeFacts]) (fun r => FactRow.rule_of_all) (allHeld_factFor rfl)

/-- What the queries ask of single facts comes to the age of the snapshot. -/
theorem rules (hc : Counted n m c q) :
    Truth.all (conditions.map fun condition => Quality.once condition rows) = some true ↔
      (ageFact arguments snapshot).columns.snapshotFreshness = some true := by
  have hn : 0 < n := by
    have := hc.total
    have := hc.clean
    omega
  simp only [conditions, List.map_cons, List.map_nil, Truth.all_cons, Truth.all_nil, and_true,
    h.sourceAvailable hn, h.schema, h.invalidRatio hc, h.partitionConservation hc, h.cleanNonempty hc,
    h.quarantineRatio hc, h.outputReadback, true_and, h.snapshotFreshness]

/-! ### Two facts at a time -/

theorem sourceRows : sourceRows rows = some (n : Int) :=
  h.ofRule (f := factFor arguments snapshot .sourceAvailable (countMetric n none) .pass .ok)
    (by simp [intendedFacts, sourceFacts]) rfl FactRow.metricNumerator

/-- The fact of the ratio of the source. -/
theorem ofInvalid (column : FactRow → Option Int) :
    Quality.ofRule "bronze.invalid_ratio.v1" column rows =
      column (ratioFact arguments snapshot .invalidRatio m n).columns :=
  h.ofRule (by simp [intendedFacts, sourceFacts]) rfl column

theorem ofQuarantine (column : FactRow → Option Int) :
    Quality.ofRule "silver.quarantine_ratio.v1" column rows =
      column (ratioFact arguments snapshot .quarantineRatio q n).columns :=
  h.ofRule (by simp [intendedFacts, outcomeFacts]) rfl column

theorem ofConservation (column : FactRow → Option Int) :
    Quality.ofRule "silver.partition_conservation.v1" column rows =
      column (factFor arguments snapshot .partitionConservation (wholeMetric (c + q) n) .pass
        .ok).columns :=
  h.ofRule (by simp [intendedFacts, outcomeFacts]) rfl column

theorem ofClean (hclean : 0 < c) (column : FactRow → Option Int) :
    Quality.ofRule "silver.clean_nonempty.v1" column rows =
      column (cleanFact arguments snapshot n c).columns :=
  h.ofRule (cleanFact_mem hclean) rfl column

theorem linked (hc : Counted n m c q) : linked rows = some true := by
  obtain ⟨rfl, htotal, hclean, -, -⟩ := hc
  simp only [Quality.linked, Truth.all_cons, Truth.all_nil, and_true, h.sourceRows, h.ofInvalid,
    h.ofQuarantine, h.ofConservation, h.ofClean hclean]
  have hsum : ((c : Int) + m) = n := by omega
  refine ⟨Sql.eq_some.mpr rfl, Sql.eq_some.mpr hsum.symm, Sql.eq_some.mpr rfl, Sql.eq_some.mpr rfl,
    Sql.eq_some.mpr rfl, Sql.eq_some.mpr hsum⟩

/-- **The facts are complete just if the queries compute the age that was written.** -/
theorem complete_iff (hc : Counted n m c q) (hdag : arguments.upstreamDagId = upstreamDagId)
    (hid : 0 < snapshot.id) (hschema : snapshot.schemaSha256 = schemaSha256) :
    complete (sha256Text (runIdText arguments.logicalDate (some snapshot.id))) rows = some true ↔
      (ageFact arguments snapshot).columns.snapshotFreshness = some true := by
  rw [complete, Truth.all_append, Truth.all_append, h.rules hc]
  simp only [Truth.all_cons, Truth.all_nil, and_true, true_and, h.numbered, h.bound hdag hid hschema,
    h.runDigest, h.linked hc]
  exact and_iff_right (Sql.eq_some.mpr rfl)

theorem countIf_warn : 0 < Sql.countIf (fun r : Joined => Sql.eq (some r.1.status) (some (lit "warn")))
    rows ↔ Status.warn ∈ (intendedFacts arguments snapshot n m c q).map QualityFact.status := by
  have htext : ∀ s : Status, s.text = lit "warn" ↔ s = .warn := by
    intro s
    cases s <;> decide
  rw [Sql.countIf, List.countP_pos_iff, List.mem_map]
  constructor
  · rintro ⟨r, hr, hwarn⟩
    obtain ⟨f, hf, rfl⟩ := List.mem_map.mp (h.perm.mem_iff.mp hr)
    exact ⟨f, hf, (htext f.status).mp (Sql.eq_some.mp (Truth.holds_iff.mp hwarn))⟩
  · rintro ⟨f, hf, hwarn⟩
    exact ⟨joinedFact f, h.mem hf,
      Truth.holds_iff.mpr (Sql.eq_some.mpr ((htext f.status).mpr hwarn))⟩

theorem overallStatus {status : Status}
    (hstatus : Quality.overallStatus ((intendedFacts arguments snapshot n m c q).map QualityFact.status) =
      .ok status) (hpass : status = .pass ∨ status = .warn) :
    (if 0 < Sql.countIf (fun r : Joined => Sql.eq (some r.1.status) (some (lit "warn"))) rows
      then lit "warn" else lit "pass") = status.text := by
  obtain ⟨hmem, hmax⟩ := overallStatus_ok hstatus
  rcases hpass with rfl | rfl
  · rw [if_neg]
    · rfl
    · rw [h.countIf_warn]
      exact fun hwarn => absurd (hmax _ hwarn) (by decide)
  · rw [if_pos (h.countIf_warn.mpr hmem)]
    rfl

end Grouped

/-- The run as `trend.sql` is to show it. -/
def trendOf (arguments : Arguments) (snapshotId : Int) (result : RunResult) : TrendRow where
  qualityRunId := result.qualityRunId
  logicalDate := some (arguments.logicalDate.nanos / 1000)
  sourceSnapshotId := some snapshotId
  sourceRowCount := some result.sourceCount
  invalidRowCount := some result.quarantineCount
  invalidRatio := some (ratioValue result.quarantineCount result.sourceCount)
  cleanRowCount := some result.cleanCount
  quarantineRowCount := some result.quarantineCount
  quarantineRatio := some (ratioValue result.quarantineCount result.sourceCount)
  overallStatus := result.status.text

theorem Grouped.selectTrend {rows : List Joined} (h : Grouped arguments snapshot n m c q rows)
    (hc : Counted n m c q) {status : Status} (runId : Str)
    (hstatus : Quality.overallStatus ((intendedFacts arguments snapshot n m c q).map QualityFact.status) =
      .ok status) (hpass : status = .pass ∨ status = .warn) :
    selectTrend runId rows = trendOf arguments snapshot.id ⟨runId, status, n, c, q⟩ := by
  obtain ⟨rfl, htotal, hclean, -, -⟩ := hc
  simp only [Quality.selectTrend, trendOf, h.logicalDate, h.snapshotId, h.sourceRows, h.ofInvalid,
    h.ofQuarantine, h.ofClean hclean, h.overallStatus hstatus hpass]
  rfl

end

/-! ### A returned run -/

section
variable {S : Type} {A : S → Type} {store : QualityStore A} {arguments : Arguments}
  {x : Evidence A} {result : RunResult}

theorem Evidence.Holds.counted (hx : x.Holds store arguments result) :
    Counted x.sourceCount x.invalidCount x.cleanCount x.quarantineCount where
  invalid := hx.partitioned.quarantine_count.symm
  total := hx.partitioned.counts
  clean := (outcome_of_status hx.status hx.notFail).2
  countable := x.bronze.countable
  accepted := by
    by_contra hgt
    have hfail : statusOfRatio (ratioValue x.quarantineCount x.sourceCount) = .fail := by
      rw [statusOfRatio, if_pos (not_le.mp hgt)]
    have hmem : Status.fail ∈ (x.facts arguments).map QualityFact.status := by
      refine List.mem_map.mpr ⟨ratioFact arguments x.snapshot .quarantineRatio x.quarantineCount
        x.sourceCount, ?_, hfail⟩
      simp [Evidence.facts, intendedFacts, outcomeFacts]
    have hworse := (overallStatus_ok hx.status).2 _ hmem
    rcases (outcome_of_status hx.status hx.notFail).1 with h | h <;>
      exact absurd (h ▸ hworse) (by decide)

/-- The call is made from the place. -/
def CalledFrom (p : Place) : Effect S → Prop
  | .store q _ => q = p
  | .job q => q = p
  | .fact _ _ _ => False

/-- Every operation calls from the place it is called with. -/
structure Placed (store : QualityStore A) : Prop where
  ensureFactsTable : ∀ p, Only (CalledFrom p) (store.ensureFactsTable p)
  captureSource : ∀ p, Only (CalledFrom p) (store.captureSource p)
  readBronze : ∀ p, Only (CalledFrom p) (store.readBronze p)
  replaceSilver : ∀ p identifier frame properties,
    Only (CalledFrom p) (store.replaceSilver p identifier frame properties)
  readSilver : ∀ p identifier, Only (CalledFrom p) (store.readSilver p identifier)
  mergeFacts : ∀ p values, Only (CalledFrom p) (store.mergeFacts p values)
  readFacts : ∀ p runId, Only (CalledFrom p) (store.readFacts p runId)

theorem Placed.eq_of_mem {α : Type} {operation : Run A α} {p q : Place} {a : Except Thrown α}
    {l : List (Event (Effect S) (Answer A))} (hop : Only (CalledFrom p) operation)
    (h : Plays operation l a) {s : S} {r : Except Thrown (A s)} (hmem : answered q s r ∈ l) : q = p :=
  hop.plays h _ hmem

/-- A call of the store from the first look at the source was made there, and one from the write of
the facts there. -/
theorem Evidence.Holds.mem_part (hx : x.Holds store arguments result) (hp : Placed store) {q : Place}
    {s : S} {r : Except Thrown (A s)} (hmem : answered q s r ∈ x.log) :
    (q = .capture → answered q s r ∈ x.captured) ∧ (q = .writeFacts → answered q s r ∈ x.merged) := by
  obtain ⟨parts, properties, -, hclean, hquarantine⟩ := hx.written
  have hran : ∀ {p : Place} {r' : Except Thrown Unit}, answered q s r ≠ ran p r' :=
    fun h => by cases congrArg Sigma.fst h
  have hnoted : ∀ {k : RuleId} {t : Status} {d : Diagnostic}, answered q s r ≠ noted k t d :=
    fun h => by cases congrArg Sigma.fst h
  have hjob : ∀ {p : Place} {k : Nat}, answered q s r ∉ List.replicate k (ran p (.ok ())) :=
    fun h => hran (List.eq_of_mem_replicate h)
  simp only [Evidence.log, sourceMarks, outcomeMarks, partitionJobs, List.mem_append, List.mem_cons,
    List.not_mem_nil, hran, hnoted, hjob, or_false, or_assoc] at hmem
  rcases hmem with h | h | h | h | h | h | h | h | h | h
  · obtain rfl := Placed.eq_of_mem (hp.ensureFactsTable _) hx.ensured h
    exact ⟨by rintro ⟨⟩, by rintro ⟨⟩⟩
  · obtain rfl := Placed.eq_of_mem (hp.captureSource _) hx.captured h
    exact ⟨fun _ => h, by rintro ⟨⟩⟩
  · obtain rfl := Placed.eq_of_mem (hp.readBronze _) hx.read h
    exact ⟨by rintro ⟨⟩, by rintro ⟨⟩⟩
  · obtain rfl := Placed.eq_of_mem (hp.replaceSilver _ _ _ _) hclean h
    exact ⟨by rintro ⟨⟩, by rintro ⟨⟩⟩
  · obtain rfl := Placed.eq_of_mem (hp.readSilver _ _) hx.readClean h
    exact ⟨by rintro ⟨⟩, by rintro ⟨⟩⟩
  · obtain rfl := Placed.eq_of_mem (hp.replaceSilver _ _ _ _) hquarantine h
    exact ⟨by rintro ⟨⟩, by rintro ⟨⟩⟩
  · obtain rfl := Placed.eq_of_mem (hp.readSilver _ _) hx.readQuarantine h
    exact ⟨by rintro ⟨⟩, by rintro ⟨⟩⟩
  · obtain rfl := Placed.eq_of_mem (hp.captureSource _) hx.rechecked h
    exact ⟨by rintro ⟨⟩, by rintro ⟨⟩⟩
  · obtain rfl := Placed.eq_of_mem (hp.mergeFacts _ _) hx.merged h
    exact ⟨by rintro ⟨⟩, fun _ => h⟩
  · obtain rfl := Placed.eq_of_mem (hp.readFacts _ _) hx.readFacts h
    exact ⟨by rintro ⟨⟩, by rintro ⟨⟩⟩

end

/-! ### The Spark store -/

theorem only_backend {p : Place} {s : BackendCall} :
    Only (CalledFrom p) (ask p s : Run BackendAnswer (BackendAnswer s)) :=
  ⟨rfl, fun _ => trivial⟩

theorem sparkQualityStore_placed : Placed sparkQualityStore where
  ensureFactsTable p := Only.bind only_backend fun found => by
    cases found with
    | false => exact Only.bind only_backend fun _ => only_backend
    | true => exact Only.bind only_backend fun _ => Only.lift
  captureSource p := Only.bind only_backend fun found => by
    cases found with
    | false => exact Only.pure
    | true => exact Only.bind only_backend fun _ => Only.bind Only.lift fun _ =>
        Only.bind only_backend fun _ => Only.lift
  readBronze p := Only.bind only_backend fun _ => Only.bind Only.lift fun _ => Only.pure
  replaceSilver p identifier frame properties := Only.bind Only.lift fun _ => Only.bind Only.lift fun _ =>
    Only.bind only_backend fun _ => Only.bind only_backend fun _ =>
    Only.bind (Only.bind Only.lift fun _ => Only.bind only_backend fun _ => Only.bind Only.lift fun _ =>
      Only.pure) fun _ => Only.lift
  readSilver p identifier := Only.bind Only.lift fun _ => Only.bind only_backend fun _ =>
    Only.bind Only.lift fun _ => Only.pure
  mergeFacts p values := Only.bind Only.lift fun _ => only_backend
  readFacts p runId := Only.bind Only.lift fun _ => only_backend

variable {l : List BackendEvent} {p : Place}

theorem mergeFacts_ok {values : List QualityFact}
    (h : Plays (mergeFacts p values) l (.ok ())) :
    l = [answered p (BackendCall.mergeFacts values) (.ok ())] := by
  rcases plays_lift_bind.mp h with ⟨e, -, -, hr⟩ | ⟨u, -, h⟩
  · cases hr
  · exact plays_ask.mp h

theorem mainSnapshot_ok {rows : List SnapshotRow} {snapshot : SourceSnapshot}
    (h : mainSnapshot rows = .ok (some snapshot)) : ∃ committedAt,
      rows = [⟨some snapshot.id, some committedAt⟩] ∧ 0 < snapshot.id ∧
        snapshot.committedAt = committedAt * 1000 ∧ snapshot.schemaSha256 = schemaSha256 := by
  unfold mainSnapshot at h
  split at h
  · cases h
  · rename_i snapshotId committedAt
    split_ifs at h with hid
    obtain rfl := Option.some.inj (Except.ok.inj h)
    cases snapshotId with
    | none => exact absurd le_rfl hid
    | some id => exact ⟨committedAt, rfl, not_le.mp hid, rfl, rfl⟩
  · cases h

/-- The snapshot that was found is the one row of the snapshots of `main`. -/
theorem captureSource_ok {snapshot : SourceSnapshot}
    (h : Plays (captureSource p) l (.ok (some snapshot))) :
    ∃ source committedAt, l = [answered p (BackendCall.tableExists sourceTable) (.ok true),
        answered p (BackendCall.table sourceTable) (.ok source),
        answered p BackendCall.querySnapshots (.ok [⟨some snapshot.id, some committedAt⟩])] ∧
      0 < snapshot.id ∧ snapshot.committedAt = committedAt * 1000 ∧
      snapshot.schemaSha256 = schemaSha256 := by
  obtain ⟨l₁, l₂, found, rfl, hexists, h₁⟩ := plays_bind_ok.mp h
  cases found with
  | false => cases (plays_pure.mp h₁).2
  | true =>
      obtain ⟨l₃, l₄, source, rfl, htable, h₂⟩ := plays_bind_ok.mp h₁
      rcases plays_lift_bind.mp h₂ with ⟨e, -, -, hr⟩ | ⟨u, -, h₃⟩
      · cases hr
      obtain ⟨l₅, l₆, rows, rfl, hrows, h₄⟩ := plays_bind_ok.mp h₃
      obtain ⟨rfl, hsnapshot⟩ := plays_lift.mp h₄
      obtain ⟨committedAt, rfl, hid, hcommitted, hschema⟩ := mainSnapshot_ok hsnapshot.symm
      refine ⟨source, committedAt, ?_, hid, hcommitted, hschema⟩
      rw [plays_ask.mp hexists, plays_ask.mp htable, plays_ask.mp hrows]
      rfl

/-! ### The dashboards -/

theorem parseArguments_dag {args : List Str} {arguments : Arguments}
    (h : parseArguments args = .ok arguments) : arguments.upstreamDagId = upstreamDagId := by
  unfold parseArguments at h
  split at h
  · simp only [require, bind_eq_ok, require_eq_ok, exists_const, pure_eq_ok, beq_iff_eq] at h
    obtain ⟨-, -, hdag, logicalDate, -, dataIntervalEnd, -, rfl⟩ := h
    exact hdag
  · cases h

/-- The facts and the snapshot of a returned run, among its calls. -/
theorem Evidence.Holds.spark_calls {arguments : Arguments} {x : Evidence BackendAnswer}
    {result : RunResult} (hx : x.Holds sparkQualityStore arguments result) :
    answered .writeFacts (BackendCall.mergeFacts (x.facts arguments)) (.ok ()) ∈ x.log ∧
      ∃ committedAt, answered .capture BackendCall.querySnapshots
          (.ok [⟨some x.snapshot.id, some committedAt⟩]) ∈ x.log ∧
        x.snapshot.committedAt = committedAt * 1000 ∧ x.snapshot.schemaSha256 = schemaSha256 := by
  obtain ⟨source, committedAt, hcalls, -, hcommitted, hschema⟩ := captureSource_ok hx.captured
  have hmerged := mergeFacts_ok hx.merged
  refine ⟨?_, committedAt, ?_, hcommitted, hschema⟩
  · rw [Evidence.log, hmerged]
    simp
  · rw [Evidence.log, hcalls]
    simp

/-- Whether the facts of a returned run are shown, when they are alone under its identifier. -/
theorem Evidence.Holds.shown_iff {args : List Str} {arguments : Arguments} {x : Evidence BackendAnswer}
    {result : RunResult} {committedAt : Int} (table : List FactRow)
    (hx : x.Holds sparkQualityStore arguments result) (hargs : parseArguments args = .ok arguments)
    (hcommitted : x.snapshot.committedAt = committedAt * 1000)
    (hschema : x.snapshot.schemaSha256 = schemaSha256) (hmillis : (1000 : Int) ∣ committedAt)
    (htable : (table.filter fun r => r.qualityRunId = result.qualityRunId).Perm
      ((x.facts arguments).map QualityFact.columns)) :
    (∃ row ∈ latestRuns table, row.qualityRunId = result.qualityRunId) ∧
      trendOf arguments x.snapshot.id result ∈ trendRuns table ↔ InTime arguments committedAt := by
  have hgrouped : Grouped arguments x.snapshot x.sourceCount x.invalidCount x.cleanCount
      x.quarantineCount ((leftJoin table).filter fun r => r.1.qualityRunId = result.qualityRunId) := by
    constructor
    have hfilter := leftJoin_filter table fun r => decide (r.qualityRunId = result.qualityRunId)
    rw [hfilter, ← leftJoin_facts fun f => intendedFacts_described]
    exact leftJoin_perm htable
  have hid : result.qualityRunId = sha256Text (runIdText arguments.logicalDate (some x.snapshot.id)) :=
    congrArg RunResult.qualityRunId hx.result
  have hcomplete := hgrouped.complete_iff hx.counted (parseArguments_dag hargs) hx.positive hschema
  rw [← hid, snapshotFreshness_ageFact hcommitted hmillis hx.fresh] at hcomplete
  have hpass := (outcome_of_status hx.status hx.notFail).1
  have htrend := hgrouped.selectTrend hx.counted result.qualityRunId hx.status hpass
  have hresult : (⟨result.qualityRunId, result.status, x.sourceCount, x.cleanCount,
      x.quarantineCount⟩ : RunResult) = result := by
    rw [hid]
    exact hx.result.symm
  rw [hresult] at htrend
  constructor
  · rintro ⟨-, hshown⟩
    obtain ⟨runId, -, hholds, hrow⟩ := mem_completeRuns.mp hshown
    obtain rfl : result.qualityRunId = runId := congrArg TrendRow.qualityRunId hrow
    exact hcomplete.mp hholds
  · intro htime
    have hholds := hcomplete.mpr htime
    exact ⟨⟨selectLatest result.qualityRunId _, mem_completeRuns.mpr ⟨result.qualityRunId,
      hgrouped.ne_nil, hholds, rfl⟩, rfl⟩, mem_completeRuns.mpr ⟨result.qualityRunId,
      hgrouped.ne_nil, hholds, htrend.symm⟩⟩

/-- **Where writer and reader agree.**  Of a run that returned, with the snapshot it found committed at
a whole millisecond and the facts it merged alone under its identifier, both dashboards show the run,
the trend with its counts, ratios and status, just if the fraction of a second between the commit and
the end of the interval survives the rounding to tenths. -/
theorem dashboards_agree (args : List Str) (arguments : Arguments)
    (hargs : parseArguments args = .ok arguments) (l : List BackendEvent) (result : RunResult)
    (h : Plays (run sparkQualityStore arguments) l (.ok result))
    (facts : List QualityFact) (a : Except Thrown Unit)
    (hfacts : answered .writeFacts (BackendCall.mergeFacts facts) a ∈ l)
    (snapshotId committedAt : Int)
    (hsnapshot : answered .capture BackendCall.querySnapshots
      (.ok [⟨some snapshotId, some committedAt⟩]) ∈ l)
    (hmillis : (1000 : Int) ∣ committedAt) (table : List FactRow)
    (htable : (table.filter fun r => r.qualityRunId = result.qualityRunId).Perm
      (facts.map QualityFact.columns)) :
    (∃ row ∈ latestRuns table, row.qualityRunId = result.qualityRunId) ∧
      trendOf arguments snapshotId result ∈ trendRuns table ↔ InTime arguments committedAt := by
  obtain ⟨x, rfl, hx⟩ := run_ok h
  obtain rfl : facts = x.facts arguments := by
    have hmerged := (hx.mem_part sparkQualityStore_placed hfacts).2 rfl
    rw [mergeFacts_ok hx.merged, List.mem_singleton] at hmerged
    have hcall := congrArg Sigma.fst hmerged
    simpa only [Effect.store.injEq, BackendCall.mergeFacts.injEq, true_and] using hcall
  obtain ⟨source, committed, hcalls, -, hcommitted, hschema⟩ := captureSource_ok hx.captured
  obtain ⟨rfl, rfl⟩ : snapshotId = x.snapshot.id ∧ committedAt = committed := by
    have hcaptured := (hx.mem_part sparkQualityStore_placed hsnapshot).1 rfl
    rw [hcalls] at hcaptured
    rcases List.mem_cons.mp hcaptured with hcall | hcaptured
    · exact nomatch congrArg Sigma.fst hcall
    rcases List.mem_cons.mp hcaptured with hcall | hcaptured
    · exact nomatch congrArg Sigma.fst hcall
    have hanswer := eq_of_heq (Sigma.mk.inj (List.mem_singleton.mp hcaptured)).2
    have hrows : ([⟨some snapshotId, some committedAt⟩] : List SnapshotRow) =
        [⟨some x.snapshot.id, some committed⟩] := Except.ok.inj hanswer
    simpa only [List.cons.injEq, SnapshotRow.mk.injEq, Option.some.injEq, and_true] using hrows
  exact hx.shown_iff table hargs hcommitted hschema hmillis htable

/-! ### Two commits -/

def sampleTexts : List Str :=
  [lit "--logical-date", lit "2024-01-01T00:00:00Z", lit "--data-interval-end",
    lit "2024-01-01T00:00:00Z", lit "--upstream-dag-id", lit "nyc_taxi_etl"]

def Parses (r : Except Thrown Arguments) (arguments : Arguments) : Bool :=
  match r with
  | .ok found => found.logicalDate.second = arguments.logicalDate.second &&
      found.dataIntervalEnd.second = arguments.dataIntervalEnd.second &&
      found.upstreamDagId = arguments.upstreamDagId
  | .error _ => false

theorem sampleTexts_parse : parseArguments sampleTexts = .ok sampleArguments := by
  have h : Parses (parseArguments sampleTexts) sampleArguments = true := by decide
  generalize parseArguments sampleTexts = r at h
  cases r with
  | error e => cases h
  | ok found =>
      simp only [Parses, Bool.and_eq_true, decide_eq_true_eq] at h
      obtain ⟨⟨hlogical, hend⟩, hdag⟩ := h
      obtain ⟨logicalDate, dataIntervalEnd, dag⟩ := found
      obtain rfl : logicalDate = sampleArguments.logicalDate := WholeSecond.ext_second hlogical
      obtain rfl : dataIntervalEnd = sampleArguments.dataIntervalEnd := WholeSecond.ext_second hend
      obtain rfl : dag = sampleArguments.upstreamDagId := hdag
      rfl

def backendRun (committedAt : Int) : List BackendEvent × Except Thrown RunResult :=
  record (backendAnswer committedAt) (run sparkQualityStore sampleArguments) ([], [])

theorem backendRun_plays (committedAt : Int)
    (h : Returns (backendRun committedAt).2 sampleResult = true) :
    Plays (run sparkQualityStore sampleArguments) (backendRun committedAt).1 (.ok sampleResult) := by
  rw [← eq_ok_of_returns h]
  exact record_plays _ _ _

/-- The snapshot of the run is the one the backend has. -/
theorem backendRun_snapshot {committedAt id found : Int}
    (h : answered .capture BackendCall.querySnapshots (.ok [⟨some id, some found⟩]) ∈
      (backendRun committedAt).1) : id = 7 ∧ found = committedAt := by
  obtain ⟨state, hstate⟩ := record_answers _ _ _ _ h
  have hrows : ([⟨some id, some found⟩] : List SnapshotRow) = [⟨some 7, some committedAt⟩] :=
    Except.ok.inj hstate
  simpa only [List.cons.injEq, SnapshotRow.mk.injEq, Option.some.injEq, and_true] using hrows

/-- Nothing else is in a table that holds just the facts of a run. -/
theorem columns_filter {arguments : Arguments} {x : Evidence BackendAnswer} {result : RunResult}
    (hx : x.Holds sparkQualityStore arguments result) :
    ((x.facts arguments).map QualityFact.columns).filter
      (fun r => r.qualityRunId = result.qualityRunId) = (x.facts arguments).map QualityFact.columns := by
  refine List.filter_eq_self.mpr fun r hr => ?_
  obtain ⟨f, hf, rfl⟩ := List.mem_map.mp hr
  obtain ⟨ruleId, metric, status, diagnostic, rfl⟩ := intendedFacts_factFor hf
  exact decide_eq_true (congrArg RunResult.qualityRunId hx.result).symm

/-- A snapshot committed with the interval's end: the run is shown. -/
theorem dashboards_agree_sample : ∃ l facts,
    Plays (run sparkQualityStore sampleArguments) l (.ok sampleResult) ∧
      answered .writeFacts (BackendCall.mergeFacts facts) (.ok ()) ∈ l ∧
      trendOf sampleArguments 7 sampleResult ∈ trendRuns (facts.map QualityFact.columns) := by
  have hplays := backendRun_plays 1704067200000000 (by decide +kernel)
  obtain ⟨x, hlog, hx⟩ := run_ok hplays
  obtain ⟨hfacts, committedAt, hsnapshot, -, -⟩ := hx.spark_calls
  rw [← hlog] at hfacts hsnapshot
  obtain ⟨hid, rfl⟩ := backendRun_snapshot hsnapshot
  rw [hid] at hsnapshot
  have hagree := dashboards_agree sampleTexts sampleArguments sampleTexts_parse _ sampleResult hplays
    (x.facts sampleArguments) (.ok ()) hfacts 7 1704067200000000 hsnapshot (by decide)
    ((x.facts sampleArguments).map QualityFact.columns) (by rw [columns_filter hx])
  exact ⟨_, _, hplays, hfacts, (hagree.mpr (by decide)).2⟩

/-- **A run that no dashboard shows.**  The snapshot was committed 950 milliseconds before the end of
the interval; the run returns, and with its facts alone in the table it is not a complete run of the
trend. -/
theorem late_fraction_hidden : ∃ l facts,
    parseArguments sampleTexts = .ok sampleArguments ∧
      Plays (run sparkQualityStore sampleArguments) l (.ok sampleResult) ∧
      answered .writeFacts (BackendCall.mergeFacts facts) (.ok ()) ∈ l ∧
      answered .capture BackendCall.querySnapshots (.ok [⟨some 7, some 1704067199050000⟩]) ∈ l ∧
      ¬ ((∃ row ∈ latestRuns (facts.map QualityFact.columns),
          row.qualityRunId = sampleResult.qualityRunId) ∧
        trendOf sampleArguments 7 sampleResult ∈ trendRuns (facts.map QualityFact.columns)) := by
  have hplays := backendRun_plays 1704067199050000 (by decide +kernel)
  obtain ⟨x, hlog, hx⟩ := run_ok hplays
  obtain ⟨hfacts, committedAt, hsnapshot, hcommitted, hschema⟩ := hx.spark_calls
  rw [← hlog] at hfacts hsnapshot
  obtain ⟨hid, rfl⟩ := backendRun_snapshot hsnapshot
  have hshown := hx.shown_iff ((x.facts sampleArguments).map QualityFact.columns) sampleTexts_parse
    hcommitted hschema (by decide) (by rw [columns_filter hx])
  rw [hid] at hsnapshot hshown
  exact ⟨_, _, sampleTexts_parse, hplays, hfacts, hsnapshot,
    fun h => absurd (hshown.mp h) (by decide)⟩

end Quality
