/-
When the next renewal comes.

Between two renewals the keepalive pauses for a time that depends on three things only: when
the lease ends, what the server's clock reads, and how far the local clock is ahead of it.
A renewal is of use when the server shows a later second than the one the lease was written
in.  With the local clock ahead by 57 seconds or less the pause always reaches that second
(`pause_reaches`); with one microsecond more it always falls short of a second by a third
of a microsecond or more (`pause_short`).
-/
import DataEngLab.Datasets.Keepalive
import DataEngLab.Lib.Beats
import Mathlib.Data.Rat.Floor
import Mathlib.Tactic.Positivity
import Mathlib.Tactic.NormNum

namespace Datasets

open Lib

/-- What the local clock reads, in seconds, when the server's reads `t`. -/
def localSeconds (skew : Int) (t : Rat) : Rat := ((⌊t * 1000000⌋₊ : Rat) + skew) / 1000000

/-- The pause at `t`, for a lease that ends at the second `e`. -/
def pause (skew : Int) (e t : Rat) : Rat := max (1 / 20) (min 5 (max (e - localSeconds skew t) 0 / 3))

section
variable {skew : Int} {e t : Rat}

theorem pause_ge : 1 / 20 ≤ pause skew e t := le_max_left _ _

theorem pause_le : pause skew e t ≤ 5 := max_le (by norm_num) (min_le_left _ _)

theorem localSeconds_le (ht : 0 ≤ t) : localSeconds skew t ≤ t + skew / 1000000 := by
  have hfloor : (⌊t * 1000000⌋₊ : Rat) ≤ t * 1000000 := Nat.floor_le (by positivity)
  unfold localSeconds
  linarith

theorem localSeconds_ge {c : Nat} (hc : (c : Rat) ≤ t) : c + (skew : Rat) / 1000000 ≤ localSeconds skew t := by
  have hfloor : ((c * 1000000 : Nat) : Rat) ≤ (⌊t * 1000000⌋₊ : Rat) := by
    refine Nat.cast_le.mpr (Nat.le_floor ?_)
    push_cast
    linarith
  push_cast at hfloor
  unfold localSeconds
  linarith

/-- The next second of the server's clock is reached if the local clock is not too far ahead. -/
theorem pause_reaches {c : Nat} (hc : (c : Rat) ≤ t) (hskew : skew ≤ 57000000) :
    (c : Rat) + 1 ≤ t + pause skew (c + 60) t := by
  have ht : 0 ≤ t := le_trans (Nat.cast_nonneg c) hc
  have hskew' : (skew : Rat) ≤ 57000000 := by exact_mod_cast hskew
  have hlocal := @localSeconds_le skew t ht
  have hthird : (c : Rat) + 1 - t ≤ max ((c : Rat) + 60 - localSeconds skew t) 0 / 3 := by
    have hmax := le_max_left ((c : Rat) + 60 - localSeconds skew t) 0
    linarith
  have hpause : (c : Rat) + 1 - t ≤ pause skew (c + 60) t :=
    le_trans (le_min (by linarith) hthird) (le_max_right _ _)
  linarith

/-- It is missed, by a third of a microsecond, if the local clock is further ahead. -/
theorem pause_short {c : Nat} (hc : (c : Rat) ≤ t) (hskew : 57000000 < skew) :
    pause skew (c + 60) t ≤ 1 - 1 / 3000000 := by
  have hskew' : (57000001 : Rat) ≤ skew := by exact_mod_cast hskew
  have hlocal := @localSeconds_ge skew t c hc
  have hleft : max ((c : Rat) + 60 - localSeconds skew t) 0 ≤ 3 - 1 / 1000000 :=
    max_le (by linarith) (by norm_num)
  exact max_le (by norm_num) (le_trans (min_le_right _ _) (by linarith))

/-- The pause ends before the lease does. -/
theorem pause_ample : t + pause skew e t < e ↔
    1 / 20 < e - t ∧ (5 < e - t ∨ e - localSeconds skew t < 3 * (e - t)) := by
  have hsplit : t + pause skew e t < e ↔ pause skew e t < e - t := by
    constructor <;> intro h <;> linarith
  rw [hsplit, pause, max_lt_iff, min_lt_iff]
  refine and_congr_right fun hleft => or_congr_right ?_
  rw [div_lt_iff₀ (by norm_num), max_lt_iff]
  constructor
  · intro h
    linarith [h.1]
  · intro h
    exact ⟨by linarith, by linarith⟩

end

/-! ### One renewal after another -/

/-- When the renewal after the one at `t` comes. -/
def nextRenewal (skew : Int) (t : Rat) : Rat := t + pause skew (⌊t⌋₊ + 60) t

/-- **With the local clock too far ahead, some renewal finds the second it wrote last.** -/
theorem exists_wasted_renewal {skew : Int} (hskew : 57000000 < skew) {t : Rat} (ht : 0 ≤ t) :
    ∃ n < 3000000, ⌊(nextRenewal skew)^[n + 1] t⌋₊ ≤ ⌊(nextRenewal skew)^[n] t⌋₊ := by
  have hpos : ∀ t : Rat, 0 ≤ t → 0 ≤ nextRenewal skew t := fun t ht => by
    have hpause := @pause_ge skew (⌊t⌋₊ + 60) t
    unfold nextRenewal
    linarith
  have hbeat : ∀ t : Rat, 0 ≤ t → nextRenewal skew t ≤ t + (1 - 1 / 3000000) := fun t ht =>
    add_le_add_right (pause_short (Nat.floor_le ht) hskew) t
  obtain ⟨n, hn, -, hstall⟩ := exists_stall (by norm_num) ht hpos hbeat
  refine ⟨n, ?_, hstall⟩
  rw [mul_one_div, div_lt_one (by norm_num)] at hn
  exact_mod_cast hn

/-- A renewal at the very beginning of a second is followed by such a one at once. -/
theorem wasted_after_second {skew : Int} (hskew : 57000000 < skew) (c : Nat) : ⌊nextRenewal skew c⌋₊ ≤ ⌊(c : Rat)⌋₊ := by
  have hshort := pause_short (le_refl (c : Rat)) hskew
  have hlt : nextRenewal skew c < ((c + 1 : Nat) : Rat) := by
    rw [nextRenewal, Nat.floor_natCast]
    push_cast
    linarith
  rw [Nat.floor_natCast]
  exact Nat.le_of_lt_succ ((Nat.floor_lt' (Nat.succ_ne_zero c)).mpr hlt)

end Datasets
