/-
Decimal values.

`_validate_value` compares the digits of a number with the precision of the column and, apart from
that, its places with the scale.  A column of precision `p` and scale `s` has room for `p - s`
digits before the point.  A number that leaves places unused may have more, up to `p`, and is
accepted all the same (`accepted_fits_iff`).

Only the branch for decimal columns is here; the names of the other types do not match its pattern.
-/
import DataEngLab.Lib.DecimalExact
import Mathlib.Algebra.Order.Field.Power
import Mathlib.Data.Rat.Cast.Defs

namespace Inspection

open Lib

inductive Source where
  | csv
  | json
  | xlsx
deriving DecidableEq

/-- What the readers make of a field. -/
inductive Value where
  | text (s : Str)
  | integer (n : Int)
  | boolean (b : Bool)
  | decimal (d : Decimal)
  | other

def Value.isText : Value → Bool
  | .text _ => true
  | _ => false

def Value.isDecimal : Value → Bool
  | .decimal _ => true
  | _ => false

def Value.isInteger : Value → Bool
  | .integer _ => true
  | _ => false

/-! ### Reading -/

/-- `[+-]?(?:[0-9]+(?:\.[0-9]*)?|\.[0-9]+)` -/
def isDecimalText (s : Str) : Bool :=
  let body := match s with
    | 43 :: r => r
    | 45 :: r => r
    | r => r
  let whole := body.takeWhile isDigit
  match body.dropWhile isDigit with
  | [] => whole != []
  | 46 :: fraction => fraction.all isDigit && (whole != [] || fraction != [])
  | _ => false

/-- The groups of `decimal\(([0-9]+),([0-9]+)\)`. -/
def decimalGroups (logicalType : Str) : Option (Str × Str) :=
  if logicalType.take 8 = lit "decimal(" then
    let rest := logicalType.drop 8
    let precision := rest.takeWhile isDigit
    match rest.dropWhile isDigit with
    | 44 :: rest =>
        let scale := rest.takeWhile isDigit
        if precision ≠ [] ∧ scale ≠ [] ∧ rest.dropWhile isDigit = [41] then some (precision, scale) else none
    | _ => none
  else none

/-- `int(digits)`; `none` is `ValueError`, from 4301 digits on. -/
def intOf (digits : Str) : Option Nat := if digits.length ≤ 4300 then some (digitsValue digits) else none

/-- The precision and the scale. -/
def decimalType (logicalType : Str) : Option (Nat × Nat) := do
  let (precision, scale) ← decimalGroups logicalType
  let precision ← intOf precision
  let scale ← intOf scale
  return (precision, scale)

/-- `Decimal(value)`; `none` is an exception that is caught. -/
def decimalOf : Value → Option Decimal
  | .text s => Decimal.ofText s
  | .integer n => some (.finite ⟨n < 0, n.natAbs, 0⟩)
  | .boolean b => some (.finite ⟨false, if b then 1 else 0, 0⟩)
  | .decimal d => some d
  | .other => none

/-! ### The check -/

/-- `_decimal_shape` -/
def decimalShape (value : Dec) : Nat × Nat :=
  let scale := (-value.exponent).toNat
  let integerDigits := (digitCount value.coefficient + value.exponent).toNat
  (integerDigits + scale, scale)

/-- `_validate_value` for a decimal type; `none` is an exception. -/
def validateDecimal (value : Value) (logicalType : Str) (source : Source) (dateFormatted : Bool) : Option Bool :=
  let isBoolean := match value with
    | .boolean _ => true
    | _ => false
  let isDecimalTextValue := match value with
    | .text s => isDecimalText s
    | _ => false
  if dateFormatted || isBoolean then some false
  else if source = .csv ∧ isDecimalTextValue = false then some false
  else if source = .json ∧ (value.isInteger || value.isDecimal) = false then some false
  else if source = .xlsx ∧ value.isDecimal = false then some false
  else
    match decimalOf value with
    | none => some false
    | some .infinite => some false
    | some .nan => some false
    | some (.finite number) => do
        let (precision, scale) ← decimalType logicalType
        let (actualPrecision, actualScale) := decimalShape number
        return decide (actualPrecision ≤ precision) && decide (actualScale ≤ scale)

/-- A number as the reader of this source gives it. -/
def IsNumber (source : Source) (value : Value) (number : Dec) : Prop :=
  decimalOf value = some (.finite number) ∧
    match source, value with
    | .csv, .text s => isDecimalText s = true
    | .json, .integer _ => True
    | .json, .decimal _ => True
    | .xlsx, .decimal _ => True
    | _, _ => False

/-- A column of this precision and scale holds the value as it is. -/
def Fits (precision scale : Nat) (v : ℚ) : Prop :=
  (∃ n : ℤ, v * 10 ^ scale = n) ∧ |v| < 10 ^ (precision - scale)

/-- The digits before the point. -/
def integerDigits (number : Dec) : Nat := (digitCount number.coefficient + number.exponent).toNat

/-- The digits after it. -/
def fractionDigits (number : Dec) : Nat := (-number.exponent).toNat

/-- The value. -/
def toRat (number : Dec) : ℚ := (if number.negative then -1 else 1) * number.coefficient * 10 ^ number.exponent

/-! ### Digits and size -/

theorem abs_toRat (number : Dec) : |toRat number| = number.coefficient * 10 ^ number.exponent := by
  have hsign : |(if number.negative then -1 else 1 : ℚ)| = 1 := by
    split <;> simp
  rw [toRat, abs_mul, abs_mul, hsign, one_mul, Nat.abs_cast, abs_of_pos (by positivity)]

theorem pow_le_coefficient {n m : Nat} (hpos : 0 < n) (h : digitCount n = m + 1) : 10 ^ m ≤ n := by
  rcases Nat.eq_zero_or_pos m with rfl | hm
  · exact hpos
  · by_contra hlt
    have := (digitCount_le_iff hm).mpr (not_le.mp hlt)
    omega

/-- **A number is below a power of ten exactly when its digits before the point are few enough,** zero apart. -/
theorem abs_toRat_lt_iff {number : Dec} {k : Nat} (hpos : 0 < number.coefficient) :
    |toRat number| < 10 ^ k ↔ integerDigits number ≤ k := by
  have hten : (10 : ℚ) ≠ 0 := by norm_num
  have hle : ∀ {a b : ℤ}, a ≤ b → (10 : ℚ) ^ a ≤ 10 ^ b := fun h => zpow_le_zpow_right₀ (by norm_num) h
  have hscale : (0 : ℚ) < 10 ^ number.exponent := by positivity
  obtain ⟨m, hm⟩ : ∃ m, digitCount number.coefficient = m + 1 := Nat.exists_eq_add_one.mpr (digitCount_pos _)
  have hupper : (number.coefficient : ℚ) < 10 ^ ((m : ℤ) + 1) := by
    have := lt_pow_digitCount number.coefficient
    rw [hm] at this
    exact_mod_cast this
  have hlower : (10 : ℚ) ^ (m : ℤ) ≤ number.coefficient := by
    rw [zpow_natCast]
    exact_mod_cast pow_le_coefficient hpos hm
  rw [abs_toRat, ← zpow_natCast, integerDigits, Int.toNat_le, hm]
  constructor
  · intro h
    by_contra hlong
    have hchain : (10 : ℚ) ^ (k : ℤ) ≤ number.coefficient * 10 ^ number.exponent :=
      calc (10 : ℚ) ^ (k : ℤ) ≤ 10 ^ ((m : ℤ) + number.exponent) := hle (by push_cast at hlong; omega)
        _ = 10 ^ (m : ℤ) * 10 ^ number.exponent := zpow_add₀ hten _ _
        _ ≤ number.coefficient * 10 ^ number.exponent := mul_le_mul_of_nonneg_right hlower hscale.le
    exact absurd h (not_lt.mpr hchain)
  · intro h
    calc number.coefficient * (10 : ℚ) ^ number.exponent < 10 ^ ((m : ℤ) + 1) * 10 ^ number.exponent :=
          mul_lt_mul_of_pos_right hupper hscale
      _ = 10 ^ ((m : ℤ) + 1 + number.exponent) := (zpow_add₀ hten _ _).symm
      _ ≤ 10 ^ (k : ℤ) := hle (by push_cast at h; omega)

/-- Few enough places make a whole number of the last one. -/
theorem exists_int_of_fractionDigits {number : Dec} {scale : Nat} (h : fractionDigits number ≤ scale) :
    ∃ n : ℤ, toRat number * 10 ^ scale = n := by
  have hten : (10 : ℚ) ≠ 0 := by norm_num
  obtain ⟨j, hj⟩ : ∃ j : ℕ, number.exponent + scale = j :=
    ⟨(number.exponent + scale).toNat, by unfold fractionDigits at h; omega⟩
  refine ⟨(if number.negative then -1 else 1) * number.coefficient * 10 ^ j, ?_⟩
  have hpow : (10 : ℚ) ^ number.exponent * 10 ^ scale = 10 ^ j := by
    rw [← zpow_natCast, ← zpow_add₀ hten, hj, zpow_natCast]
  rw [toRat, mul_assoc, hpow]
  split <;> push_cast <;> rfl

section
variable {precision scale : Nat} {logicalType : Str} {source : Source} {value : Value} {number : Dec}

/-- What is accepted. -/
theorem validateDecimal_number (htype : decimalType logicalType = some (precision, scale))
    (hnumber : IsNumber source value number) :
    validateDecimal value logicalType source false = some (decide ((decimalShape number).1 ≤ precision) &&
      decide ((decimalShape number).2 ≤ scale)) := by
  obtain ⟨hdecimal, hgiven⟩ := hnumber
  cases source <;> cases value <;> first
    | exact absurd hgiven id
    | simp_all [validateDecimal, Value.isDecimal, Value.isInteger]

theorem accepted_iff (htype : decimalType logicalType = some (precision, scale))
    (hnumber : IsNumber source value number) {dateFormatted : Bool} :
    validateDecimal value logicalType source dateFormatted = some true ↔
      dateFormatted = false ∧ integerDigits number + fractionDigits number ≤ precision ∧
        fractionDigits number ≤ scale := by
  cases dateFormatted with
  | true => simp [validateDecimal]
  | false =>
      rw [validateDecimal_number htype hnumber, Option.some.injEq, Bool.and_eq_true, decide_eq_true_eq,
        decide_eq_true_eq]
      exact (and_iff_right rfl).symm

/-- **An accepted number fits its column exactly when it has no more digits before the point than there is room for,**
as long as it is accepted. -/
theorem accepted_fits_iff (htype : decimalType logicalType = some (precision, scale)) (hscale : scale ≤ precision)
    (hnumber : IsNumber source value number) (dateFormatted : Bool) :
    (validateDecimal value logicalType source dateFormatted = some true → Fits precision scale (toRat number)) ↔
      dateFormatted = true ∨ number.coefficient = 0 ∨ integerDigits number ≤ precision - scale ∨
        scale < fractionDigits number ∨ precision < integerDigits number + fractionDigits number := by
  rw [accepted_iff htype hnumber]
  constructor
  · intro h
    by_contra hnot
    simp only [not_or, not_lt, not_le, Bool.not_eq_true] at hnot
    obtain ⟨hdate, hzero, hlong, hplaces, hdigits⟩ := hnot
    have hfits := (h ⟨hdate, hdigits, hplaces⟩).2
    rw [abs_toRat_lt_iff (Nat.pos_of_ne_zero hzero)] at hfits
    omega
  · rintro hcases ⟨hdate, hdigits, hplaces⟩
    refine ⟨exists_int_of_fractionDigits hplaces, ?_⟩
    rcases Nat.eq_zero_or_pos number.coefficient with hzero | hpos
    · rw [abs_toRat, hzero, Nat.cast_zero, zero_mul]
      positivity
    · rw [abs_toRat_lt_iff hpos]
      rcases hcases with hdate' | hzero | hshort | hmany | hmany
      · rw [hdate] at hdate'
        cases hdate'
      all_goals omega

end

/-- `1.5` fits `decimal(4,2)`. -/
theorem accepted_fits_one_place : validateDecimal (.text (lit "1.5")) (lit "decimal(4,2)") .csv false = some true ∧
    Fits 4 2 (toRat ⟨false, 15, -1⟩) := by
  have haccepted : validateDecimal (.text (lit "1.5")) (lit "decimal(4,2)") .csv false = some true := by decide +kernel
  have hnumber : IsNumber .csv (.text (lit "1.5")) ⟨false, 15, -1⟩ := ⟨by rfl, by decide +kernel⟩
  exact ⟨haccepted, (accepted_fits_iff (by decide +kernel) (by decide) hnumber false).mpr
    (.inr (.inr (.inl (by decide +kernel)))) haccepted⟩

/-- **`1234` is accepted for `decimal(4,2)`, which ends below a hundred.** -/
theorem four_digits_accepted : validateDecimal (.text (lit "1234")) (lit "decimal(4,2)") .csv false = some true ∧
    ¬ Fits 4 2 (toRat ⟨false, 1234, 0⟩) := by
  refine ⟨by decide +kernel, fun h => ?_⟩
  have hlt := h.2
  norm_num [toRat] at hlt

end Inspection
