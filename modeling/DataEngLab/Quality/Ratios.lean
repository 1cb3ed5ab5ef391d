/-
Ratios of counts, exactly rounded.

The code rounds a ratio twice: to 34 digits, a half to the even one, and then to nine places,
a half upwards.  For counts of 63 bits the first rounding never decides the second, so what
is left is the exact quotient rounded once (`ratioValue_eq`).  One rounding of an exact
quotient is monotone, and so are the thresholds it is compared with.
-/
import DataEngLab.Quality.Transforms
import Mathlib.Algebra.Order.Floor.Semifield
import Mathlib.Data.Rat.Floor
import Mathlib.Algebra.Order.Field.Basic

namespace Quality

open Lib

/-- The division to 34 digits is fine enough for counts of 63 bits. -/
theorem ratioValue_eq {n d : Nat} (hd : 0 < d) (hle : n ≤ d) (hmax : d < 2 ^ 63) :
    ratioValue n d = divHalfUp (n * 10 ^ 9) d := by
  have hscale : ∀ s, 33 ≤ s → setScale9 (divHalfEven (n * 10 ^ s) d) s = divHalfUp (n * 10 ^ 9) d := by
    intro s hs
    obtain ⟨t, rfl⟩ : ∃ t, s = 10 + t := ⟨s - 10, by omega⟩
    have hpow : 10 ^ (10 + t) = 10 ^ 9 * (2 * (5 * 10 ^ t)) := by
      rw [pow_add]
      ring
    have hunit : 10 ^ (10 + t - 9) = 2 * (5 * 10 ^ t) := by
      rw [show 10 + t - 9 = 1 + t by omega, pow_add]
      ring
    have hfine : d < 2 * (5 * 10 ^ t) := by
      have hmono : 10 ^ 23 ≤ 10 ^ t := Nat.pow_le_pow_right (by decide) (by omega)
      omega
    rw [setScale9, if_pos (by omega), hunit, hpow, ← Nat.mul_assoc]
    exact divHalfUp_divHalfEven hd hfine
  have hdigits := digitCount_mono hle
  simp only [ratioValue, quotient]
  split_ifs with h
  · refine hscale _ ?_
    omega
  · refine hscale _ ?_
    omega

/-- A number rounded to the nearest natural number, a half upwards. -/
def roundHalfUp (q : Rat) : Nat := ⌊q + 1 / 2⌋₊

theorem roundHalfUp_mono {q q' : Rat} (h : q ≤ q') : roundHalfUp q ≤ roundHalfUp q' :=
  Nat.floor_mono (by linarith)

theorem divHalfUp_eq_round {n d : Nat} (hd : 0 < d) : divHalfUp n d = roundHalfUp (n / d) := by
  have hd' : (d : Rat) ≠ 0 := Nat.cast_ne_zero.mpr hd.ne'
  have hquotient : (n : Rat) / d + 1 / 2 = ((2 * n + d : Nat) : Rat) / ((2 * d : Nat) : Rat) := by
    push_cast
    field_simp
  rw [roundHalfUp, hquotient, Nat.floor_div_eq_div, divHalfUp]

section
variable {n d : Nat}

/-- The ratio of two counts is their quotient, rounded once. -/
theorem ratioValue_eq_round (hd : 0 < d) (hle : n ≤ d) (hmax : d < 2 ^ 63) :
    ratioValue n d = roundHalfUp (n / d * 10 ^ 9) := by
  rw [ratioValue_eq hd hle hmax, divHalfUp_eq_round hd]
  congr 1
  push_cast
  ring

theorem ratioStatus_eq (hd : 0 < d) (hle : n ≤ d) : ratioStatus n d = .ok (statusOfRatio (ratioValue n d)) := by
  simp only [ratioStatus, ratio, hd, hle, decide_true, Bool.and_self]
  rfl

/-- A larger ratio has no better status. -/
theorem statusOfRatio_mono {value value' : Nat} (h : value ≤ value') :
    (statusOfRatio value).priority ≤ (statusOfRatio value').priority := by
  simp only [statusOfRatio]
  split_ifs with hfail hfail' hwarn' hwarn
  all_goals first | exact Nat.le_refl _ | exact Nat.zero_le _ | (simp only [Status.priority]; omega)

/-- **Ratios are exactly rounded, and their status is monotone.**  The ratio of two counts is the exact
quotient, rounded to nine places, a half upwards; more of the counted rows do not improve the status,
and more rows in all do not worsen it. -/
theorem ratio_exactly_rounded (hd : 0 < d) (hle : n ≤ d) (hmax : d < 2 ^ 63) :
    ratio n d = .ok (roundHalfUp (n / d * 10 ^ 9)) ∧
    (∀ n', n ≤ n' → n' ≤ d → ∃ s s', ratioStatus n d = .ok s ∧ ratioStatus n' d = .ok s' ∧
      s.priority ≤ s'.priority) ∧
    ∀ d', d ≤ d' → d' < 2 ^ 63 → ∃ s s', ratioStatus n d = .ok s ∧ ratioStatus n d' = .ok s' ∧
      s'.priority ≤ s.priority := by
  have hratio : ∀ {n n' d d' : Nat}, (n : Rat) / d ≤ n' / d' → roundHalfUp (n / d * 10 ^ 9) ≤ roundHalfUp (n' / d' * 10 ^ 9) :=
    fun h => roundHalfUp_mono (mul_le_mul_of_nonneg_right h (by norm_num))
  refine ⟨?_, fun n' hn hn' => ?_, fun d' hd' hmax' => ?_⟩
  · rw [← ratioValue_eq_round hd hle hmax, ratio, decide_eq_true hd]
    rfl
  · refine ⟨_, _, ratioStatus_eq hd hle, ratioStatus_eq hd hn', statusOfRatio_mono ?_⟩
    rw [ratioValue_eq_round hd hle hmax, ratioValue_eq_round hd hn' hmax]
    have hcast : (n : Rat) ≤ n' := Nat.cast_le.mpr hn
    exact hratio (div_le_div_of_nonneg_right hcast (Nat.cast_nonneg d))
  · have hpos := hd.trans_le hd'
    refine ⟨_, _, ratioStatus_eq hd hle, ratioStatus_eq hpos (hle.trans hd'), statusOfRatio_mono ?_⟩
    rw [ratioValue_eq_round hd hle hmax, ratioValue_eq_round hpos (hle.trans hd') hmax']
    have hcast : (d : Rat) ≤ d' := Nat.cast_le.mpr hd'
    exact hratio (div_le_div_of_nonneg_left (Nat.cast_nonneg n) (Nat.cast_pos.mpr hd) hcast)

/-- One invalid row of three. -/
theorem ratio_one_third : (0 < 3 ∧ 1 ≤ 3 ∧ 3 < 2 ^ 63) ∧ ratio 1 3 = .ok (roundHalfUp ((1 : Nat) / (3 : Nat) * 10 ^ 9)) :=
  ⟨by decide, (ratio_exactly_rounded (n := 1) (d := 3) (by decide) (by decide) (by decide)).1⟩

end

end Quality
