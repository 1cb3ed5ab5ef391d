/-
Trino's SQL, as far as a query over one table with grouping needs it.

A column is a function that may give `NULL`.  A comparison with `NULL` is unknown, an aggregate
passes over `NULL`, and a row or a group is kept when its condition is true.

Of the rows of a group one usually knows little more than that no two have the same key.  That
is enough for the aggregates that pick a row by its key: `countIf_eq_one` for
`count_if(key = k AND ...) = 1`, and `maxOf_case` for `max(CASE WHEN key = k THEN v END)`.

A decimal is a number of units of its last place.  A quotient keeps as many places as the longer
operand has and is rounded away from zero at a half, also when it is floored afterwards.
-/
import DataEngLab.Lib.Kleene
import DataEngLab.Lib.Rounding
import DataEngLab.Lib.Utc
import Mathlib.Data.List.Dedup
import Mathlib.Data.List.Lex

namespace Lib.Sql

variable {ρ α κ : Type}

/-! ### Comparisons -/

/-- `a = b` -/
def eq [DecidableEq α] : Option α → Option α → Truth
  | some x, some y => some (decide (x = y))
  | _, _ => none

/-- `a <= b` -/
def le : Option Int → Option Int → Truth
  | some x, some y => some (decide (x ≤ y))
  | _, _ => none

/-- `a > b` -/
def above (a b : Option Int) : Truth :=
  match a, b with
  | some x, some y => some (decide (y < x))
  | _, _ => none

/-- `a IS NOT DISTINCT FROM b` -/
def same [DecidableEq α] (a b : Option α) : Truth := some (decide (a = b))

@[simp] theorem eq_some [DecidableEq α] {x y : α} :
    eq (some x) (some y) = some true ↔ x = y := by
  simp [eq]

@[simp] theorem le_some {x y : Int} : le (some x) (some y) = some true ↔ x ≤ y := by
  simp [le]

@[simp] theorem above_some {x y : Int} : above (some x) (some y) = some true ↔ y < x := by
  simp [above]

@[simp] theorem same_true [DecidableEq α] {a b : Option α} : same a b = some true ↔ a = b := by
  simp [same]

theorem eq_some_left [DecidableEq α] {x : α} {b : Option α} :
    eq (some x) b = some true ↔ b = some x := by
  cases b with
  | none => simp [eq]
  | some y => rw [eq_some, Option.some.injEq, eq_comm]

/-! ### Aggregates -/

/-- `count(column)` -/
def count (column : ρ → Option α) (rows : List ρ) : Nat := rows.countP fun r => (column r).isSome

/-- `count(DISTINCT column)` -/
def countDistinct [DecidableEq α] (column : ρ → Option α) (rows : List ρ) : Nat :=
  (rows.filterMap column).dedup.length

/-- `count_if(condition)` -/
def countIf (condition : ρ → Truth) (rows : List ρ) : Nat := rows.countP fun r => (condition r).holds

/-- `max(column)` -/
def maxOf [LinearOrder α] (column : ρ → Option α) (rows : List ρ) : Option α :=
  (rows.filterMap column).max?

/-- `min(column)` -/
def minOf [LinearOrder α] (column : ρ → Option α) (rows : List ρ) : Option α :=
  (rows.filterMap column).min?

/-- `CASE WHEN key = k THEN column END` -/
def caseWhen [DecidableEq κ] (key : ρ → κ) (k : κ) (column : ρ → Option α) (r : ρ) : Option α :=
  if key r = k then column r else none

section
variable {rows : List ρ} {column : ρ → Option α} {a : α}

/-- The column has this value in every row. -/
theorem filterMap_const (h : ∀ r ∈ rows, column r = some a) :
    rows.filterMap column = List.replicate rows.length a := by
  induction rows with
  | nil => rfl
  | cons r rest ih =>
      rw [List.filterMap_cons_some (h r List.mem_cons_self),
        ih fun r hr => h r (List.mem_cons_of_mem _ hr)]
      rfl

theorem count_const (h : ∀ r ∈ rows, column r = some a) : count column rows = rows.length :=
  List.countP_eq_length.mpr fun r hr => by rw [h r hr]; rfl

theorem countDistinct_const [DecidableEq α] (h : ∀ r ∈ rows, column r = some a) (hne : rows ≠ []) :
    countDistinct column rows = 1 := by
  rw [countDistinct, filterMap_const h,
    List.replicate_dedup (List.length_pos_iff.mpr hne).ne', List.length_singleton]

theorem maxOf_eq_some [LinearOrder α] :
    maxOf column rows = some a ↔
      (∃ r ∈ rows, column r = some a) ∧ ∀ r ∈ rows, ∀ b, column r = some b → b ≤ a := by
  rw [maxOf, List.max?_eq_some_iff, List.mem_filterMap]
  refine and_congr_right fun _ => ⟨fun h r hr b hb => h b ?_, fun h b hb => ?_⟩
  · exact List.mem_filterMap.mpr ⟨r, hr, hb⟩
  · obtain ⟨r, hr, hb⟩ := List.mem_filterMap.mp hb
    exact h r hr b hb

theorem maxOf_const [LinearOrder α] (h : ∀ r ∈ rows, column r = some a) (hne : rows ≠ []) :
    maxOf column rows = some a := by
  obtain ⟨r, hr⟩ := List.exists_mem_of_ne_nil rows hne
  refine maxOf_eq_some.mpr ⟨⟨r, hr, h r hr⟩, fun s hs b hb => ?_⟩
  rw [h s hs] at hb
  exact (Option.some.inj hb).ge

theorem minOf_const [LinearOrder α] (h : ∀ r ∈ rows, column r = some a) (hne : rows ≠ []) :
    minOf column rows = some a := by
  obtain ⟨r, hr⟩ := List.exists_mem_of_ne_nil rows hne
  rw [minOf, List.min?_eq_some_iff]
  refine ⟨List.mem_filterMap.mpr ⟨r, hr, h r hr⟩, fun b hb => ?_⟩
  obtain ⟨s, hs, hb⟩ := List.mem_filterMap.mp hb
  rw [h s hs] at hb
  exact (Option.some.inj hb).le

/-! ### Rows picked by their key -/

variable {key : ρ → κ} {r : ρ}

theorem eq_of_key (hkeys : (rows.map key).Nodup) {s : ρ} (hr : r ∈ rows) (hs : s ∈ rows)
    (h : key s = key r) : s = r :=
  List.inj_on_of_nodup_map hkeys hs hr h

/-- Just one row meets a condition that asks for a key, if the row with the key meets it. -/
theorem countIf_eq_one (hkeys : (rows.map key).Nodup) (hr : r ∈ rows) {condition : ρ → Truth}
    (hcondition : ∀ s ∈ rows, condition s = some true → key s = key r) :
    countIf condition rows = 1 ↔ condition r = some true := by
  have hnodup : rows.Nodup := List.Nodup.of_map key hkeys
  constructor
  · intro h
    obtain ⟨s, hs, hholds⟩ := List.countP_pos_iff.mp (h.symm ▸ Nat.one_pos : 0 < countIf condition rows)
    have hs' := Truth.holds_iff.mp hholds
    rwa [← eq_of_key hkeys hr hs (hcondition s hs hs')]
  · intro h
    classical
    have hsame : ∀ s ∈ rows, (condition s).holds = true ↔ (s == r) = true := by
      intro s hs
      rw [Truth.holds_iff, beq_iff_eq]
      constructor
      · exact fun hc => eq_of_key hkeys hr hs (hcondition s hs hc)
      · rintro rfl
        exact h
    rw [countIf, List.countP_congr hsame]
    exact List.count_eq_one_of_mem hnodup hr

theorem maxOf_case [LinearOrder α] [DecidableEq κ] (hkeys : (rows.map key).Nodup) (hr : r ∈ rows) :
    maxOf (caseWhen key (key r) column) rows = column r := by
  have hcase : ∀ s ∈ rows, ∀ b, caseWhen key (key r) column s = some b → column r = some b := by
    intro s hs b hb
    rw [caseWhen] at hb
    split_ifs at hb with hkey
    rwa [← eq_of_key hkeys hr hs hkey]
  cases hc : column r with
  | none =>
      rw [maxOf, List.max?_eq_none_iff, List.filterMap_eq_nil_iff]
      intro s hs
      rw [Option.eq_none_iff_forall_ne_some]
      intro b hb
      have := hcase s hs b hb
      rw [hc] at this
      cases this
  | some a =>
      refine maxOf_eq_some.mpr ⟨⟨r, hr, ?_⟩, fun s hs b hb => ?_⟩
      · rw [caseWhen, if_pos rfl, hc]
      · have := hcase s hs b hb
        rw [hc] at this
        exact (Option.some.inj this).ge

end

/-! ### Decimals -/

/-- `a / b` of decimals of scales `s₁` and `s₂`: the scale of the quotient is the greater, and the
quotient is rounded half up.  A division by zero, which ends the query, gives no value. -/
def divide (a : Option Int) (s₁ : Nat) (b : Option Int) (s₂ : Nat) : Option Int :=
  match a, b with
  | some x, some y =>
      if y = 0 then none else some (divHalfAway (x * 10 ^ (max s₁ s₂ - s₁ + s₂)) y)
  | _, _ => none

/-- `floor(a)` of a decimal of scale `s`. -/
def floor (a : Option Int) (s : Nat) : Option Int := a.map (· / 10 ^ s)

/-- `cast(a AS decimal(38, s))` of an integer. -/
def toDecimal (a : Option Int) (s : Nat) : Option Int := a.map (· * 10 ^ s)

/-- A ratio of natural numbers. -/
theorem divide_nat {n d s : Nat} (hd : 0 < d) :
    divide (some ((n * 10 ^ s : Nat) : Int)) s (some (d : Int)) 0 =
      some ((divHalfUp (n * 10 ^ s) d : Nat) : Int) := by
  have hne : (d : Int) ≠ 0 := by omega
  have hscale : max s 0 - s + 0 = 0 := by omega
  simp only [divide, if_neg hne, hscale, pow_zero, mul_one, divHalfAway, Int.natAbs_natCast]
  rw [Int.sign_eq_one_of_pos (by omega : (0 : Int) < d), mul_one]
  rcases Nat.eq_zero_or_pos (n * 10 ^ s) with h | h
  · rw [h, divHalfUp, Nat.mul_zero, Nat.zero_add, Nat.div_eq_of_lt (by omega)]
    rfl
  · rw [Int.sign_eq_one_of_pos (by omega), one_mul]

/-- The seconds of a number of milliseconds, by way of tenths. -/
def wholeSeconds (millis : Option Int) : Option Int := floor (divide millis 0 (some 10000) 1) 1

/-- **Flooring a quotient that was rounded to tenths first.**  The tenths reach the next whole second
from 950 milliseconds on; below zero a half is rounded down, and the one case that is half way is
right. -/
theorem wholeSeconds_eq {millis : Int} :
    wholeSeconds (some millis) = some (millis / 1000) ↔
      (0 ≤ millis → millis % 1000 < 950) ∧ (millis < 0 → millis % 1000 ≤ 950) := by
  have hscale : max 0 1 - 0 + 1 = 2 := rfl
  have habs : (millis * 10 ^ 2).natAbs = 100 * millis.natAbs := by omega
  have hten : Int.natAbs 10000 = 10000 := rfl
  simp only [wholeSeconds, divide, floor, if_neg (by decide : (10000 : Int) ≠ 0), Option.map_some,
    Option.some.injEq, divHalfAway, hscale, divHalfUp, habs, hten, pow_one]
  rw [Int.sign_eq_one_of_pos (by decide : (0 : Int) < 10000), mul_one]
  rcases lt_trichotomy millis 0 with h | rfl | h
  · rw [Int.sign_eq_neg_one_of_neg (by omega)]
    omega
  · decide
  · rw [Int.sign_eq_one_of_pos (by omega)]
    omega

/-! ### Timestamps -/

/-- `date_diff('millisecond', a, b)` of timestamps in microseconds. -/
def dateDiffMillis (a b : Option Int) : Option Int :=
  match a, b with
  | some x, some y => some (y / 1000 - x / 1000)
  | _, _ => none

/-- A year of the pattern `yyyy`. -/
def yearText (year : Int) : Str :=
  let digits := if year.natAbs < 10000 then padDigits 4 year.natAbs else decDigits year.natAbs
  if year < 0 then 45 :: digits else digits

/-- `format_datetime(t, 'yyyy-MM-dd''T''HH:mm:ss''Z''')` of a timestamp in microseconds: the calendar
repeats after 400 years, which are 146097 days. -/
def formatDatetime (micros : Int) : Str :=
  let second := micros / 1000000
  let day := second / 86400 + 719162
  let cycle := (day % 146097).toNat
  let y := yearOf cycle
  let md := monthDay (monthLengths (isLeap y)) 1 (cycle - daysBeforeYear y)
  let r := (second % 86400).toNat
  yearText (400 * (day / 146097) + y) ++ 45 :: padDigits 2 md.1 ++ 45 :: padDigits 2 md.2 ++ 84 ::
    padDigits 2 (r / 3600) ++ 58 :: padDigits 2 (r / 60 % 60) ++ 58 :: padDigits 2 (r % 60) ++ [90]

theorem yearOf_add (cycles day : Nat) : yearOf (146097 * cycles + day) = 400 * cycles + yearOf day := by
  have hdiv : (146097 * cycles + day) / 146097 = cycles + day / 146097 := by omega
  have hmod : (146097 * cycles + day) % 146097 = day % 146097 := by omega
  simp only [yearOf, hdiv, hmod]
  omega

theorem daysBeforeYear_add (cycles : Nat) {y : Nat} (hy : 1 ≤ y) :
    daysBeforeYear (400 * cycles + y) = 146097 * cycles + daysBeforeYear y := by
  simp only [daysBeforeYear]
  omega

theorem isLeap_add (cycles y : Nat) : isLeap (400 * cycles + y) = isLeap y := by
  have h4 : (400 * cycles + y) % 4 = y % 4 := by omega
  have h100 : (400 * cycles + y) % 100 = y % 100 := by omega
  have h400 : (400 * cycles + y) % 400 = y % 400 := by omega
  rw [isLeap, isLeap, h4, h100, h400]

theorem yearText_nat {year : Nat} (h : year < 10000) : yearText (year : Int) = padDigits 4 year := by
  simp only [yearText, Int.natAbs_natCast, if_pos h, if_neg (by omega : ¬ (year : Int) < 0)]

theorem yearOf_le {t : Instant} : yearOf (t.second / 86400) < 10000 := by
  have hmax := t.le_max
  simp only [maxSecond] at hmax
  obtain ⟨-, hbefore, -⟩ := yearOf_spec (t.second / 86400)
  simp only [daysBeforeYear] at hbefore
  omega

/-- **From the year 1 to 9999 the pattern prints what `formatUtc` prints.** -/
theorem formatDatetime_eq {micros : Int} {t : Instant}
    (h : micros / 1000000 = (t.second : Int) - 62135596800) : formatDatetime micros = formatUtc t := by
  generalize hday : t.second / 86400 = day
  have hd : micros / 1000000 / 86400 + 719162 = (day : Int) := by omega
  have hr : (micros / 1000000 % 86400).toNat = t.second % 86400 := by omega
  have hcycle : ((day : Int) % 146097).toNat = day % 146097 := by omega
  have hera : ((day : Int) / 146097) = ((day / 146097 : Nat) : Int) := by omega
  obtain ⟨hone, hbefore, -⟩ := yearOf_spec (day % 146097)
  have hyear : yearOf day = 400 * (day / 146097) + yearOf (day % 146097) := by
    rw [← yearOf_add, Nat.div_add_mod]
  have hlast := yearOf_le (t := t)
  rw [hday] at hlast
  have hdoy : day % 146097 - daysBeforeYear (yearOf (day % 146097)) = day - daysBeforeYear (yearOf day) := by
    rw [hyear, daysBeforeYear_add _ hone]
    omega
  have hleap : isLeap (yearOf (day % 146097)) = isLeap (yearOf day) := by rw [hyear, isLeap_add]
  have htext : yearText (400 * ((day / 146097 : Nat) : Int) + (yearOf (day % 146097) : Nat)) =
      padDigits 4 (yearOf day) := by
    rw [← yearText_nat hlast, hyear]
    rfl
  simp only [formatDatetime, formatUtc, hday, hd, hr, hcycle, hera, hdoy, hleap, htext]

end Lib.Sql
