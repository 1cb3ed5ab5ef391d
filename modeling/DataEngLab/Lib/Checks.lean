/-
Sequences of checks.

A validator reads as a list of conditions, each with the error it raises when it fails.
`require` is one such condition.  A validator that succeeded passed every one of them, and
the lemmas here let a proof say so by rewriting rather than by splitting each `if`.
-/
import Mathlib.Data.List.Basic
import Mathlib.Data.List.Forall2

namespace Lib

variable {ε α β : Type}

/-- Raise `e` unless the condition holds. -/
def require (c : Bool) (e : ε) : Except ε Unit := if c then .ok () else .error e

@[simp] theorem require_eq_ok {c : Bool} {e : ε} {u : Unit} : require c e = .ok u ↔ c = true := by
  cases c <;> simp [require]

@[simp] theorem require_true (e : ε) : require true e = .ok () := rfl

@[simp] theorem require_false (e : ε) : require false e = .error e := rfl

@[simp] theorem bind_eq_ok {x : Except ε α} {f : α → Except ε β} {b : β} :
    (x >>= f) = .ok b ↔ ∃ a, x = .ok a ∧ f a = .ok b := by
  cases x with
  | error e => simp [bind, Except.bind]
  | ok a => simp [bind, Except.bind]

@[simp] theorem map_eq_ok {x : Except ε α} {f : α → β} {b : β} :
    (f <$> x) = .ok b ↔ ∃ a, x = .ok a ∧ f a = b := by
  cases x with
  | error e => simp [Functor.map, Except.map]
  | ok a => simp [Functor.map, Except.map]

@[simp] theorem pure_eq_ok {a b : α} : (pure a : Except ε α) = .ok b ↔ a = b := by
  simp [pure, Except.pure]

theorem ok_of_error {e : ε} {a : α} {p : Prop} (h : (.error e : Except ε α) = .ok a) : p := by cases h

theorem error_of_ok {e : ε} {a : α} {p : Prop} (h : (.ok a : Except ε α) = .error e) : p := by cases h

/-- The value of an option, or the error of its absence. -/
def orElse (o : Option α) (e : ε) : Except ε α :=
  match o with
  | some a => .ok a
  | none => .error e

@[simp] theorem orElse_eq_ok {o : Option α} {e : ε} {a : α} : orElse o e = .ok a ↔ o = some a := by
  cases o <;> simp [orElse]

@[simp] theorem mapError_eq_ok {ε' : Type} {x : Except ε α} {f : ε → ε'} {a : α} :
    x.mapError f = .ok a ↔ x = .ok a := by
  cases x <;> simp [Except.mapError]

/-! ### The error of a sequence -/

theorem require_eq_error {c : Bool} {e e' : ε} : require c e = .error e' ↔ c = false ∧ e = e' := by
  cases c <;> simp

theorem orElse_eq_error {o : Option α} {e e' : ε} : orElse o e = .error e' ↔ o = none ∧ e = e' := by
  cases o <;> simp [orElse]

theorem bind_eq_error {x : Except ε α} {f : α → Except ε β} {e : ε} :
    (x >>= f) = .error e ↔ x = .error e ∨ ∃ a, x = .ok a ∧ f a = .error e := by
  cases x with
  | error e' => simp [bind, Except.bind]
  | ok a => simp [bind, Except.bind]

theorem pure_ne_error {a : α} {e : ε} : (pure a : Except ε α) ≠ .error e := by
  simp [pure, Except.pure]

/-- Every element is checked, in order. -/
def checkAll (f : α → Except ε β) : List α → Except ε (List β)
  | [] => .ok []
  | x :: xs => do
      let y ← f x
      let ys ← checkAll f xs
      return y :: ys

theorem checkAll_eq_ok {f : α → Except ε β} {xs : List α} {ys : List β} :
    checkAll f xs = .ok ys ↔ List.Forall₂ (fun x y => f x = .ok y) xs ys := by
  induction xs generalizing ys with
  | nil =>
      cases ys with
      | nil => simp [checkAll]
      | cons y ys =>
          constructor
          · intro h; simp [checkAll] at h
          · intro h; cases h
  | cons x xs ih =>
      constructor
      · intro h
        simp only [checkAll, bind_eq_ok, pure_eq_ok] at h
        obtain ⟨y, hy, ys', hys, rfl⟩ := h
        exact List.Forall₂.cons hy (ih.mp hys)
      · intro h
        cases h with
        | cons hy hys =>
            simp only [checkAll, bind_eq_ok, pure_eq_ok]
            exact ⟨_, hy, _, ih.mpr hys, rfl⟩

theorem checkAll_eq_map {f : α → Except ε β} {g : α → β} {xs : List α}
    (h : ∀ x ∈ xs, f x = .ok (g x)) : checkAll f xs = .ok (xs.map g) := by
  rw [checkAll_eq_ok, List.forall₂_map_right_iff]
  exact List.forall₂_same.mpr h

theorem checkAll_mem {f : α → Except ε β} {xs : List α} {ys : List β} (h : checkAll f xs = .ok ys)
    {y : β} (hy : y ∈ ys) : ∃ x ∈ xs, f x = .ok y := by
  have hall := checkAll_eq_ok.mp h
  clear h
  induction hall with
  | nil => simp at hy
  | cons hxy _ ih =>
      rcases List.mem_cons.mp hy with rfl | hy'
      · exact ⟨_, by simp, hxy⟩
      · obtain ⟨x, hx, hfx⟩ := ih hy'
        exact ⟨x, List.mem_cons_of_mem _ hx, hfx⟩

end Lib
