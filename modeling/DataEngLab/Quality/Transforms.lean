/-
The transformations of the quality run: the validity of a row, the split of the source, the
check that two frames partition it, and the signals.

A row is valid when its fare and its passenger count are numbers, the fare is positive and
the passengers are one to six.  The condition is evaluated in three-valued logic and
coalesced to false, so `NULL`, NaN and infinities are invalid (`isValid_iff`).
-/
import DataEngLab.Lib.Kleene
import DataEngLab.Quality.Calls

namespace Quality

open Lib

variable {S : Type} {A : S → Type}

/-! ### Validity -/

/-- `column.isNotNull && !F.isnan(column) && F.abs(column) <= F.lit(Double.MaxValue)` -/
def finite (column : Cell) : Truth :=
  (column.isNotNull.and column.isNotNan).and (column.absAtMost (.finite maxDouble))

/-- `passengers.between(lower, upper)` -/
def between (lower upper : Double) (column : Cell) : Truth :=
  (column.atLeast lower).and (column.atMost upper)

def validPredicate (schema : Schema) (row : Row) : Truth :=
  let fare := schema.cell "fare_amount" row
  let passengers := schema.cell "passenger_count" row
  (((finite fare).and (finite passengers)).and (fare.above (.finite 0))).and
    (between (.finite 1) (.finite 6) passengers)

/-- `F.coalesce(validPredicate, F.lit(false))` -/
def isValid (schema : Schema) (row : Row) : Bool := (validPredicate schema row).holds

theorem finite_iff {c : Cell} : finite c = some true ↔
    c = .double .negativeZero ∨ ∃ v : ℚ, c = .double (.finite v) ∧ |v| ≤ maxDouble := by
  simp only [finite, Truth.and_eq_true, Cell.absAtMost_eq_true]
  constructor
  · rintro ⟨⟨-, hnan⟩, d, rfl, hd⟩
    cases d with
    | nan => cases hnan
    | infinite negative => cases hd
    | negativeZero => exact .inl rfl
    | finite v => exact .inr ⟨v, rfl, Double.le_finite.mp hd⟩
  · rintro (rfl | ⟨v, rfl, hv⟩)
    · exact ⟨⟨rfl, rfl⟩, .negativeZero, rfl, Double.le_finite.mpr (le_maxDouble (by norm_num))⟩
    · exact ⟨⟨rfl, rfl⟩, .finite v, rfl, Double.le_finite.mpr hv⟩

/-- **What the three-valued condition comes to.** -/
theorem isValid_iff {schema : Schema} {row : Row} : isValid schema row = true ↔
    ∃ fare passengers : ℚ, schema.cell "fare_amount" row = .double (.finite fare) ∧
      schema.cell "passenger_count" row = .double (.finite passengers) ∧
      0 < fare ∧ fare ≤ maxDouble ∧ 1 ≤ passengers ∧ passengers ≤ 6 := by
  simp only [isValid, Truth.holds_iff, validPredicate, between, Truth.and_eq_true, finite_iff,
    Cell.above_eq_true, Cell.atLeast_eq_true, Cell.atMost_eq_true]
  generalize schema.cell "fare_amount" row = f
  generalize schema.cell "passenger_count" row = p
  constructor
  · rintro ⟨⟨⟨hf, hp⟩, x, rfl, habove⟩, ⟨y, rfl, hlow⟩, z, hz, hhigh⟩
    obtain rfl : y = z := by simpa using hz
    rcases hf with hf | ⟨fare, hf, hfmax⟩
    · obtain rfl : x = .negativeZero := by simpa using hf
      exact absurd (Double.negativeZero_le.mpr le_rfl) habove
    · obtain rfl : x = .finite fare := by simpa using hf
      rcases hp with hp | ⟨passengers, hp, -⟩
      · obtain rfl : y = .negativeZero := by simpa using hp
        exact absurd (Double.le_negativeZero.mp hlow) (by norm_num)
      · obtain rfl : y = .finite passengers := by simpa using hp
        rw [Double.le_finite] at habove hlow hhigh
        exact ⟨fare, passengers, rfl, rfl, not_le.mp habove, (le_abs_self fare).trans hfmax, hlow,
          hhigh⟩
  · rintro ⟨fare, passengers, rfl, rfl, hpos, hfmax, hlow, hhigh⟩
    have hpmax : |passengers| ≤ maxDouble := by
      rw [abs_of_nonneg (by linarith)]
      exact le_maxDouble (by linarith)
    refine ⟨⟨⟨.inr ⟨fare, rfl, by rwa [abs_of_pos hpos]⟩, .inr ⟨passengers, rfl, hpmax⟩⟩, .finite fare,
      rfl, ?_⟩, ⟨.finite passengers, rfl, Double.le_finite.mpr hlow⟩, .finite passengers, rfl,
      Double.le_finite.mpr hhigh⟩
    rw [Double.le_finite]
    exact not_le.mpr hpos

/-! ### The source and its parts -/

def assertExactSchema (frame : Frame) : Except Thrown Unit :=
  require (frame.schema == bronzeSchema) (lit "NYC Taxi source schema is invalid")

structure SplitResult where
  clean : Frame
  quarantine : Frame

/-- The columns of an exact schema are all of its columns, in order. -/
def split (bronze : Frame) : Except Thrown SplitResult := do
  assertExactSchema bronze
  return ⟨bronze.filter (isValid bronzeSchema), bronze.filter fun row => !isValid bronzeSchema row⟩

def assertPartition (p : Place) (bronze clean quarantine : Frame) : Run A Unit := do
  Proc.lift (assertExactSchema bronze)
  Proc.lift (assertExactSchema clean)
  Proc.lift (assertExactSchema quarantine)
  let cleanInvalid ← action p (clean.rows.any fun row => !isValid bronzeSchema row)
  Proc.lift (require (!cleanInvalid) (lit "clean output contains an invalid row"))
  let quarantineValid ← action p (quarantine.rows.any (isValid bronzeSchema))
  Proc.lift (require (!quarantineValid) (lit "quarantine output contains a valid row"))
  let sourceCount ← action p bronze.count
  let cleanCount ← action p clean.count
  let quarantineCount ← action p quarantine.count
  Proc.lift (require (cleanCount + quarantineCount == sourceCount)
    (lit "quality partition count mismatch"))
  let union := clean.rows ++ quarantine.rows
  let extra ← action p (exceptAll union bronze.rows)
  Proc.lift (require extra.isEmpty (lit "quality outputs contain an extra row"))
  let omitted ← action p (exceptAll bronze.rows union)
  Proc.lift (require omitted.isEmpty (lit "quality outputs omit a source row"))

def invalidCount (p : Place) (bronze : Frame) : Run A Nat := do
  Proc.lift (assertExactSchema bronze)
  action p (bronze.rows.countP fun row => !isValid bronzeSchema row)

/-! ### Signals -/

/-- `WarnRatio` and `FailRatio`, in units of the ninth place. -/
def warnRatio : Nat := 10000000

def failRatio : Nat := 50000000

def statusOfRatio (value : Nat) : Status :=
  if failRatio < value then .fail else if warnRatio < value then .warn else .pass

def ratioStatus (numerator denominator : Nat) : Except Thrown Status := do
  require (0 < denominator && numerator ≤ denominator) (lit "quality ratio counts are invalid")
  let value ← ratio numerator denominator
  return statusOfRatio value

/-- `Duration.between(committedAt, dataIntervalEnd).getSeconds`, which rounds down. -/
def ageSeconds (committedAt dataIntervalEnd : Nanos) : Int :=
  (dataIntervalEnd - committedAt) / 1000000000

def freshnessStatus (committedAt dataIntervalEnd : Nanos) : Status :=
  if 21600 < ageSeconds committedAt dataIntervalEnd then .stale else .pass

structure SignalObservation where
  ruleId : RuleId
  numerator : Nat
  denominator : Nat
  metricValue : Nat
  status : Status
  severity : Severity
  diagnosticCode : Diagnostic

def ratioDiagnostic : Status → Diagnostic
  | .pass => .ok
  | .warn => .thresholdWarn
  | _ => .thresholdFail

def ratioObservation (ruleId : RuleId) (numerator denominator : Nat) :
    Except Thrown SignalObservation := do
  require ([RuleId.invalidRatio, .quarantineRatio].contains ruleId)
    (lit "ratio observation rule is invalid")
  let status ← ratioStatus numerator denominator
  let metricValue ← ratio numerator denominator
  return ⟨ruleId, numerator, denominator, metricValue, status, severity status,
    ratioDiagnostic status⟩

/-- The observation of two counts that may be compared. -/
def observe (ruleId : RuleId) (numerator denominator : Nat) : SignalObservation :=
  let value := ratioValue numerator denominator
  let status := statusOfRatio value
  ⟨ruleId, numerator, denominator, value, status, severity status, ratioDiagnostic status⟩

theorem ratioObservation_ok {ruleId : RuleId} {numerator denominator : Nat} {o : SignalObservation}
    (h : ratioObservation ruleId numerator denominator = .ok o) :
    0 < denominator ∧ numerator ≤ denominator ∧ o = observe ruleId numerator denominator := by
  simp only [ratioObservation, ratioStatus, ratio, require, bind_eq_ok, require_eq_ok, exists_const,
    pure_eq_ok, Bool.and_eq_true, decide_eq_true_eq] at h
  obtain ⟨-, status, ⟨⟨hpos, hle⟩, value, ⟨-, rfl⟩, rfl⟩, metricValue, ⟨-, rfl⟩, rfl⟩ := h
  exact ⟨hpos, hle, rfl⟩

theorem ratioObservation_eq {ruleId : RuleId} {numerator denominator : Nat}
    (hrule : ruleId = .invalidRatio ∨ ruleId = .quarantineRatio) (hpos : 0 < denominator)
    (hle : numerator ≤ denominator) :
    ratioObservation ruleId numerator denominator = .ok (observe ruleId numerator denominator) := by
  have hcontains : [RuleId.invalidRatio, .quarantineRatio].contains ruleId = true := by
    rcases hrule with rfl | rfl <;> rfl
  simp only [ratioObservation, ratioStatus, ratio, require, bind_eq_ok, require_eq_ok, exists_const,
    pure_eq_ok, Bool.and_eq_true, decide_eq_true_eq]
  exact ⟨hcontains, _, ⟨⟨hpos, hle⟩, _, ⟨hpos, rfl⟩, rfl⟩, _, ⟨hpos, rfl⟩, rfl⟩

/-- The status and the diagnostic code of a ratio go together. -/
theorem observe_allowed {ruleId : RuleId} (hrule : ruleId = .invalidRatio ∨ ruleId = .quarantineRatio)
    (numerator denominator : Nat) :
    Allowed ruleId (observe ruleId numerator denominator).status
      (observe ruleId numerator denominator).diagnosticCode := by
  have hall : ∀ ruleId, ruleId = .invalidRatio ∨ ruleId = .quarantineRatio →
      ∀ value, Allowed ruleId (statusOfRatio value) (ratioDiagnostic (statusOfRatio value)) := by
    intro ruleId hrule value
    unfold statusOfRatio
    rcases hrule with rfl | rfl <;> split_ifs <;> decide
  exact hall ruleId hrule _

end Quality
