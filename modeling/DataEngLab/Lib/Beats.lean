/-
Acting again and again beside a clock that shows whole units.

Between two acts there is a pause, and the clock may or may not show something new after
it.  `floor_lt_floor` says when it does.  If every pause falls short of a unit by a fixed
amount, however small, then sooner or later it does not: the acts fall behind the clock a
little each time, and what they have to spare is less than one unit (`exists_stall`).
-/
import Mathlib.Algebra.Order.Floor.Semiring
import Mathlib.Algebra.Order.Archimedean.Basic
import Mathlib.Logic.Function.Iterate
import Mathlib.Tactic.Linarith
import Mathlib.Tactic.Ring

namespace Lib

variable {K : Type} [Field K] [LinearOrder K] {beat : K → K} {ε t : K}

section
variable [FloorSemiring K]

/-- The clock shows something new once what is left of the unit has passed. -/
theorem floor_lt_floor {t u : K} (h : (⌊t⌋₊ : K) + 1 ≤ u) : ⌊t⌋₊ < ⌊u⌋₊ := by
  refine Nat.lt_of_succ_le (Nat.le_floor ?_)
  rw [Nat.succ_eq_add_one, Nat.cast_add_one]
  exact h

/-- The clock moves by one unit at least for each act after which it shows something new. -/
theorem floor_iterate_ge {n : Nat} (h : ∀ m < n, ⌊beat^[m] t⌋₊ < ⌊beat^[m + 1] t⌋₊) : ⌊t⌋₊ + n ≤ ⌊beat^[n] t⌋₊ := by
  induction n with
  | zero => exact Nat.le_refl _
  | succ n ih =>
      have hbefore := ih fun m hm => h m (Nat.lt_succ_of_lt hm)
      have hlast := h n (Nat.lt_succ_self n)
      omega

end

variable [IsStrictOrderedRing K]

theorem iterate_nonneg (ht : 0 ≤ t) (hpos : ∀ t, 0 ≤ t → 0 ≤ beat t) (n : Nat) : 0 ≤ beat^[n] t := by
  induction n with
  | zero => exact ht
  | succ n ih =>
      rw [Function.iterate_succ_apply']
      exact hpos _ ih

theorem iterate_le (ht : 0 ≤ t) (hpos : ∀ t, 0 ≤ t → 0 ≤ beat t) (hbeat : ∀ t, 0 ≤ t → beat t ≤ t + (1 - ε)) (n : Nat) :
    beat^[n] t ≤ t + n * (1 - ε) := by
  induction n with
  | zero => simp
  | succ n ih =>
      rw [Function.iterate_succ_apply']
      have hstep := hbeat _ (iterate_nonneg ht hpos n)
      rw [Nat.cast_add_one]
      linarith

variable [FloorSemiring K]

/-- So the acts that see the clock move are few. -/
theorem moved_lt (ht : 0 ≤ t) (hpos : ∀ t, 0 ≤ t → 0 ≤ beat t) (hbeat : ∀ t, 0 ≤ t → beat t ≤ t + (1 - ε))
    {n : Nat} (h : ∀ m < n, ⌊beat^[m] t⌋₊ < ⌊beat^[m + 1] t⌋₊) : n * ε < 1 := by
  have hfloor : (⌊t⌋₊ : K) + n ≤ ⌊beat^[n] t⌋₊ := by exact_mod_cast floor_iterate_ge h
  have hle := Nat.floor_le (iterate_nonneg ht hpos n)
  have hlt := Nat.lt_floor_add_one t
  have hsum := iterate_le ht hpos hbeat n
  linarith

/-- **Pauses that fall short of a unit lead to an act at which the clock shows what it showed.** -/
theorem exists_stall (hε : 0 < ε) (ht : 0 ≤ t) (hpos : ∀ t, 0 ≤ t → 0 ≤ beat t)
    (hbeat : ∀ t, 0 ≤ t → beat t ≤ t + (1 - ε)) :
    ∃ n : Nat, n * ε < 1 ∧ (∀ m < n, ⌊beat^[m] t⌋₊ < ⌊beat^[m + 1] t⌋₊) ∧
      ⌊beat^[n + 1] t⌋₊ ≤ ⌊beat^[n] t⌋₊ := by
  have hexists : ∃ n : Nat, ⌊beat^[n + 1] t⌋₊ ≤ ⌊beat^[n] t⌋₊ := by
    by_contra hnone
    push Not at hnone
    have hmoved := moved_lt (n := ⌊1 / ε⌋₊ + 1) ht hpos hbeat fun m _ => hnone m
    have hmany := Nat.lt_floor_add_one (1 / ε)
    rw [div_lt_iff₀ hε] at hmany
    rw [Nat.cast_add_one] at hmoved
    linarith
  have hbefore : ∀ m < Nat.find hexists, ⌊beat^[m] t⌋₊ < ⌊beat^[m + 1] t⌋₊ := fun m hm =>
    not_le.mp (Nat.find_min hexists hm)
  exact ⟨Nat.find hexists, moved_lt ht hpos hbeat hbefore, hbefore, Nat.find_spec hexists⟩

end Lib
