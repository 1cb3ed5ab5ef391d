/-
Three-valued logic and the order of doubles, as SQL has them.

A condition on a row is true, false or unknown.  A conjunction is false as soon as one side
is, and true only if both are; a row is kept when the condition is true.  Comparisons with
`NULL` are unknown.  Among doubles the two zeros are equal and NaN lies above everything,
infinity included.
-/
import DataEngLab.Lib.Frames
import Mathlib.Algebra.Order.Group.Abs
import Mathlib.Algebra.Order.Ring.Rat
import Mathlib.Tactic.NormNum
import Mathlib.Tactic.Linarith

namespace Lib

/-- Unknown is `none`. -/
abbrev Truth := Option Bool

def Truth.and : Truth → Truth → Truth
  | some false, _ => some false
  | _, some false => some false
  | some true, some true => some true
  | _, _ => none

theorem Truth.and_eq_true {a b : Truth} : a.and b = some true ↔ a = some true ∧ b = some true := by
  rcases a with _ | _ | _ <;> rcases b with _ | _ | _ <;> simp [Truth.and]

def Truth.or : Truth → Truth → Truth
  | some true, _ => some true
  | _, some true => some true
  | some false, some false => some false
  | _, _ => none

theorem Truth.or_eq_true {a b : Truth} : a.or b = some true ↔ a = some true ∨ b = some true := by
  rcases a with _ | _ | _ <;> rcases b with _ | _ | _ <;> simp [Truth.or]

/-- A chain of `AND`. -/
def Truth.all (conditions : List Truth) : Truth := conditions.foldr Truth.and (some true)

@[simp] theorem Truth.all_nil : Truth.all [] = some true := rfl

@[simp] theorem Truth.all_cons {a : Truth} {rest : List Truth} :
    Truth.all (a :: rest) = some true ↔ a = some true ∧ Truth.all rest = some true :=
  Truth.and_eq_true

theorem Truth.all_append {conditions rest : List Truth} : Truth.all (conditions ++ rest) = some true ↔
    Truth.all conditions = some true ∧ Truth.all rest = some true := by
  induction conditions with
  | nil => simp
  | cons a conditions ih => rw [List.cons_append, all_cons, all_cons, ih, and_assoc]

/-- `coalesce(condition, false)` -/
def Truth.holds (a : Truth) : Bool := a.getD false

theorem Truth.holds_iff {a : Truth} : a.holds = true ↔ a = some true := by
  rcases a with _ | _ | _ <;> simp [Truth.holds]

/-! ### Doubles -/

/-- The number a double stands for, if it is one. -/
def Double.rational : Double → ℚ
  | .finite v => v
  | _ => 0

def Double.le : Double → Double → Bool
  | _, .nan => true
  | .nan, _ => false
  | .infinite true, _ => true
  | _, .infinite false => true
  | .infinite false, _ => false
  | _, .infinite true => false
  | a, b => a.rational ≤ b.rational

theorem Double.le_finite {a b : ℚ} : Double.le (.finite a) (.finite b) = true ↔ a ≤ b :=
  decide_eq_true_iff

theorem Double.le_negativeZero {a : ℚ} : Double.le (.finite a) .negativeZero = true ↔ a ≤ 0 :=
  decide_eq_true_iff

theorem Double.negativeZero_le {a : ℚ} : Double.le .negativeZero (.finite a) = true ↔ 0 ≤ a :=
  decide_eq_true_iff

def Double.abs : Double → Double
  | .nan => .nan
  | .infinite _ => .infinite false
  | .negativeZero => .finite 0
  | .finite v => .finite |v|

/-- `Double.MaxValue` -/
def maxDouble : ℚ := (2 ^ 53 - 1) * 2 ^ 971

theorem le_maxDouble {v : ℚ} (h : v ≤ 2 ^ 53 - 1) : v ≤ maxDouble := by
  have hpow : (1 : ℚ) ≤ 2 ^ 971 := one_le_pow₀ one_le_two
  refine h.trans ?_
  rw [maxDouble]
  exact le_mul_of_one_le_right (by norm_num) hpow

/-! ### Cells -/

def Cell.isNotNull : Cell → Truth
  | .null => some false
  | _ => some true

/-- `NOT isnan(c)`; `NULL` is not NaN. -/
def Cell.isNotNan : Cell → Truth
  | .double .nan => some false
  | _ => some true

/-- `c <= d` -/
def Cell.atMost (d : Double) : Cell → Truth
  | .double c => some (c.le d)
  | _ => none

/-- `c >= d` -/
def Cell.atLeast (d : Double) : Cell → Truth
  | .double c => some (d.le c)
  | _ => none

/-- `c > d` -/
def Cell.above (d : Double) : Cell → Truth
  | .double c => some !(c.le d)
  | _ => none

theorem Cell.atMost_eq_true {c : Cell} {d : Double} :
    c.atMost d = some true ↔ ∃ x, c = .double x ∧ x.le d = true := by
  cases c <;> simp [Cell.atMost]

theorem Cell.atLeast_eq_true {c : Cell} {d : Double} :
    c.atLeast d = some true ↔ ∃ x, c = .double x ∧ d.le x = true := by
  cases c <;> simp [Cell.atLeast]

theorem Cell.above_eq_true {c : Cell} {d : Double} :
    c.above d = some true ↔ ∃ x, c = .double x ∧ ¬ x.le d = true := by
  cases c <;> simp [Cell.above]

/-- `abs(c) <= d` -/
def Cell.absAtMost (d : Double) : Cell → Truth
  | .double c => some (c.abs.le d)
  | _ => none

theorem Cell.absAtMost_eq_true {c : Cell} {d : Double} :
    c.absAtMost d = some true ↔ ∃ x, c = .double x ∧ x.abs.le d = true := by
  cases c <;> simp [Cell.absAtMost]

end Lib
