/-
Division of natural numbers, rounded to the nearest.

Decimal arithmetic differs from one system to the next in what happens to a quotient that
lies half way: away from zero, or to the even neighbour.  Both are here, each with the
inequality that says how far the result is from the quotient.  Two systems that divide the
same numbers agree where one rounds twice and the other once, if the first rounding is fine
enough (`divHalfUp_divHalfEven`).
-/
import DataEngLab.Lib.Text
import Mathlib.Data.List.Induction
import Mathlib.Tactic.Linarith

namespace Lib

/-- `n / d` to the nearest natural number, a half upwards. -/
def divHalfUp (n d : Nat) : Nat := (2 * n + d) / (2 * d)

/-- `n / d` to the nearest natural number, a half to the even neighbour. -/
def divHalfEven (n d : Nat) : Nat :=
  let q := n / d
  if 2 * (n % d) < d ∨ 2 * (n % d) = d ∧ q % 2 = 0 then q else q + 1

/-- How many digits a number is written with; zero is written with one. -/
def digitCount (n : Nat) : Nat := (decDigits n).length

/-- `a / b` to the nearest integer, a half away from zero. -/
def divHalfAway (a b : Int) : Int := a.sign * b.sign * divHalfUp a.natAbs b.natAbs

/-! ### How far the result is from the quotient -/

theorem divHalfUp_eq_iff {n d m : Nat} (hd : 0 < d) :
    divHalfUp n d = m ↔ 2 * (m * d) ≤ 2 * n + d ∧ 2 * n + d < 2 * (m * d) + 2 * d := by
  rw [divHalfUp, Nat.div_eq_iff (by omega)]
  have hcomm : m * (2 * d) = 2 * (m * d) := Nat.mul_left_comm m 2 d
  rw [hcomm]
  omega

theorem divHalfEven_bounds {n d : Nat} (hd : 0 < d) :
    2 * (divHalfEven n d * d) ≤ 2 * n + d ∧ 2 * n ≤ 2 * (divHalfEven n d * d) + d := by
  have hdiv := Nat.div_add_mod' n d
  have hmod := Nat.mod_lt n hd
  simp only [divHalfEven]
  split_ifs with h
  · constructor <;> omega
  · rw [Nat.add_mul, Nat.one_mul]
    constructor <;> omega

/-- **Rounding twice is harmless when the first rounding is fine enough.**  Between the quotient and
a half there are at least `1 / (2 * d)`, and the first rounding moves it by less; a quotient that is
half way is a multiple of the first unit and is not moved. -/
theorem divHalfUp_divHalfEven {n d k : Nat} (hd : 0 < d) (hk : d < 2 * k) :
    divHalfUp (divHalfEven (n * (2 * k)) d) (2 * k) = divHalfUp n d := by
  obtain ⟨hlow, hhigh⟩ := (divHalfUp_eq_iff hd).mp (rfl : divHalfUp n d = divHalfUp n d)
  obtain ⟨hover, hunder⟩ := divHalfEven_bounds (n := n * (2 * k)) hd
  generalize divHalfUp n d = m at hlow hhigh ⊢
  generalize divHalfEven (n * (2 * k)) d = c at hover hunder ⊢
  rw [divHalfUp_eq_iff (by omega)]
  have hnk : 2 * (n * (2 * k)) = 2 * k * (2 * n) := by ring
  rw [hnk] at hover hunder
  constructor
  · by_contra hlt
    have hstep : c + k + 1 ≤ 2 * (m * k) := by
      have : 2 * (m * (2 * k)) = 2 * (2 * (m * k)) := by ring
      omega
    have hscaled : (c + k + 1) * d ≤ 2 * (m * k) * d := Nat.mul_le_mul_right d hstep
    have hbound : 2 * (m * d) * k ≤ (2 * n + d) * k := Nat.mul_le_mul_right k hlow
    nlinarith
  · by_contra hge
    have hstep : 2 * (m * k) + k ≤ c := by
      have : 2 * (m * (2 * k)) = 2 * (2 * (m * k)) := by ring
      omega
    have hscaled : (2 * (m * k) + k) * d ≤ c * d := Nat.mul_le_mul_right d hstep
    have hbound : (2 * n + d + 1) * k ≤ (2 * (m * d) + 2 * d) * k := Nat.mul_le_mul_right k hhigh
    nlinarith

/-! ### The number of digits -/

theorem digitsValue_lt {s : Str} (h : ∀ c ∈ s, isDigit c = true) : digitsValue s < 10 ^ s.length := by
  induction s using List.reverseRecOn with
  | nil => decide
  | append_singleton s c ih =>
      have hc := h c (List.mem_append_right _ (List.mem_singleton_self c))
      have hs := ih fun x hx => h x (List.mem_append_left _ hx)
      simp only [isDigit, Bool.and_eq_true, decide_eq_true_eq] at hc
      have hvalue : digitsValue (s ++ [c]) = 10 * digitsValue s + (c - 48) := by
        rw [digitsValue, List.foldl_append]
        rfl
      rw [hvalue, List.length_append, List.length_singleton, pow_succ]
      omega

theorem lt_pow_digitCount (n : Nat) : n < 10 ^ digitCount n := by
  have h := digitsValue_lt (decDigits_digits n)
  rwa [digitsValue_decDigits] at h

theorem digitCount_pos (n : Nat) : 0 < digitCount n := by
  refine Nat.pos_of_ne_zero fun h => ?_
  have hn := lt_pow_digitCount n
  rw [h, pow_zero, Nat.lt_one_iff] at hn
  subst hn
  cases h

theorem digitCount_mono {n d : Nat} (h : n ≤ d) : digitCount n ≤ digitCount d :=
  decDigits_length_le (h.trans_lt (lt_pow_digitCount d)) (digitCount_pos d)

end Lib
