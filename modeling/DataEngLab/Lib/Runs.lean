/-
What one program does to its surroundings.

`Runs step p w a w'` says that the program `p`, started in the world `w` with every call
answered as `step` allows, may end with `a` in the world `w'`.  Nothing else runs meanwhile.
The rules take a run apart as the program is built, and put one together the same way; a
run under a script is a run (`runs_of_runSome`).
-/
import DataEngLab.Lib.Prog
import DataEngLab.Lib.Scripted

namespace Lib

variable {E : Type} {R : E → Type} {W V ε ε' α β : Type}

/-- How one call may be answered, and what it makes of the world. -/
abbrev Step (W E : Type) (R : E → Type) := W → (e : E) → R e → W → Prop

def Runs (step : Step W E R) : Prog E R α → W → α → W → Prop
  | .pure a, w, b, w' => a = b ∧ w = w'
  | .call e k, w, b, w' => ∃ r m, step w e r m ∧ Runs step (k r) m b w'

section
variable {step : Step W E R} {w w' : W}

theorem runs_ret {a b : α} : Runs step (.pure a : Prog E R α) w b w' ↔ a = b ∧ w = w' := Iff.rfl

theorem runs_call {e : E} {k : R e → Prog E R α} {b : α} :
    Runs step (.call e k) w b w' ↔ ∃ r m, step w e r m ∧ Runs step (k r) m b w' := Iff.rfl

-- a run is taken apart by the rules below, never by unfolding the program
attribute [irreducible] Runs

theorem runs_prog_bind {p : Prog E R α} {f : α → Prog E R β} {b : β} :
    Runs step (p.bind f) w b w' ↔ ∃ a m, Runs step p w a m ∧ Runs step (f a) m b w' := by
  induction p generalizing w with
  | pure a =>
      constructor
      · intro h
        exact ⟨a, w, runs_ret.mpr ⟨rfl, rfl⟩, h⟩
      · rintro ⟨a', m, hp, h⟩
        obtain ⟨rfl, rfl⟩ := runs_ret.mp hp
        exact h
  | call e k ih =>
      constructor
      · intro h
        obtain ⟨r, m, hr, hrest⟩ := runs_call.mp h
        obtain ⟨a, m', hk, hf⟩ := (ih r).mp hrest
        exact ⟨a, m', runs_call.mpr ⟨r, m, hr, hk⟩, hf⟩
      · rintro ⟨a, m', hp, hf⟩
        obtain ⟨r, m, hr, hk⟩ := runs_call.mp hp
        exact runs_call.mpr ⟨r, m, hr, (ih r).mpr ⟨a, m', hk, hf⟩⟩

/-- Fewer answers allow fewer runs. -/
theorem Runs.mono {step' : Step W E R} (hstep : ∀ w e r w', step w e r w' → step' w e r w') {p : Prog E R α}
    {a : α} (h : Runs step p w a w') : Runs step' p w a w' := by
  induction p generalizing w with
  | pure b => exact runs_ret.mpr (runs_ret.mp h)
  | call e k ih =>
      obtain ⟨r, m, hr, hk⟩ := runs_call.mp h
      exact runs_call.mpr ⟨r, m, hstep _ _ _ _ hr, ih r hk⟩

/-- **Frame rule.**  What every call of a kind keeps is kept by a program that makes only calls of
that kind. -/
theorem Runs.keeps {P : E → Prop} {I : W → Prop} (hcall : ∀ w e r w', P e → step w e r w' → I w → I w')
    {p : Prog E R α} (hp : Only P p) {a : α} (h : Runs step p w a w') (hI : I w) : I w' := by
  induction p generalizing w with
  | pure b => exact (runs_ret.mp h).2 ▸ hI
  | call e k ih =>
      obtain ⟨r, m, hr, hk⟩ := runs_call.mp h
      exact ih r (hp.2 r) hk (hcall _ _ _ _ hp.1 hr hI)

/-- What holds of every result of a program holds of the result of a run. -/
theorem Runs.ends {P : α → Prop} {p : Prog E R α} (hp : Ends P p) {a : α} (h : Runs step p w a w') : P a := by
  induction p generalizing w with
  | pure b => exact (runs_ret.mp h).1 ▸ hp
  | call e k ih =>
      obtain ⟨r, m, -, hk⟩ := runs_call.mp h
      exact ih r (hp r) hk

/-! ### The rules -/

@[simp] theorem runs_pure {a : α} {r : Except ε α} :
    Runs step (pure a : Proc E R ε α) w r w' ↔ r = .ok a ∧ w = w' :=
  runs_ret.trans (and_congr_left fun _ => eq_comm)

@[simp] theorem runs_throw {e : ε} {r : Except ε α} :
    Runs step (throw e : Proc E R ε α) w r w' ↔ r = .error e ∧ w = w' :=
  runs_ret.trans (and_congr_left fun _ => eq_comm)

@[simp] theorem runs_lift {x r : Except ε α} :
    Runs step (Proc.lift x : Proc E R ε α) w r w' ↔ x = r ∧ w = w' := runs_ret

@[simp] theorem runs_perform {e : E} {r : Except ε (R e)} :
    Runs step (Proc.perform e : Proc E R ε (R e)) w r w' ↔ ∃ a, r = .ok a ∧ step w e a w' := by
  refine runs_call.trans ⟨?_, ?_⟩
  · rintro ⟨a, m, ha, h⟩
    obtain ⟨rfl, rfl⟩ := runs_ret.mp h
    exact ⟨a, rfl, ha⟩
  · rintro ⟨a, rfl, ha⟩
    exact ⟨a, w', ha, runs_ret.mpr ⟨rfl, rfl⟩⟩

/-- A sequence raises what its first part raises, or goes on from where that left the world. -/
theorem runs_bind {x : Proc E R ε α} {f : α → Proc E R ε β} {r : Except ε β} :
    Runs step (x >>= f : Proc E R ε β) w r w' ↔
      (∃ e, Runs step x w (.error e) w' ∧ r = .error e) ∨
        ∃ a m, Runs step x w (.ok a) m ∧ Runs step (f a) m r w' := by
  refine runs_prog_bind.trans ?_
  constructor
  · rintro ⟨e | a, m, hx, hf⟩
    · obtain ⟨rfl, rfl⟩ := runs_ret.mp hf
      exact .inl ⟨e, hx, rfl⟩
    · exact .inr ⟨a, m, hx, hf⟩
  · rintro (⟨e, hx, rfl⟩ | ⟨a, m, hx, hf⟩)
    · exact ⟨.error e, w', hx, runs_ret.mpr ⟨rfl, rfl⟩⟩
    · exact ⟨.ok a, m, hx, hf⟩

theorem runs_bind_ok {x : Proc E R ε α} {f : α → Proc E R ε β} {b : β} :
    Runs step (x >>= f : Proc E R ε β) w (.ok b) w' ↔
      ∃ a m, Runs step x w (.ok a) m ∧ Runs step (f a) m (.ok b) w' := by
  rw [runs_bind]
  constructor
  · rintro (⟨e, -, hr⟩ | h)
    · cases hr
    · exact h
  · exact .inr

/-- A computation without calls, and what follows it. -/
theorem runs_lift_bind {x : Except ε α} {f : α → Proc E R ε β} {r : Except ε β} :
    Runs step (Proc.lift x >>= f : Proc E R ε β) w r w' ↔
      (∃ e, x = .error e ∧ r = .error e ∧ w = w') ∨ ∃ a, x = .ok a ∧ Runs step (f a) w r w' := by
  rw [runs_bind]
  constructor
  · rintro (⟨e, hx, rfl⟩ | ⟨a, m, hx, hf⟩)
    · obtain ⟨he, rfl⟩ := runs_lift.mp hx
      exact .inl ⟨e, he, rfl, rfl⟩
    · obtain ⟨ha, rfl⟩ := runs_lift.mp hx
      exact .inr ⟨a, ha, hf⟩
  · rintro (⟨e, rfl, rfl, rfl⟩ | ⟨a, rfl, hf⟩)
    · exact .inl ⟨e, runs_lift.mpr ⟨rfl, rfl⟩, rfl⟩
    · exact .inr ⟨a, w, runs_lift.mpr ⟨rfl, rfl⟩, hf⟩

/-- A call, and what follows its answer. -/
theorem runs_perform_bind {e : E} {f : R e → Proc E R ε β} {r : Except ε β} :
    Runs step (Proc.perform e >>= f : Proc E R ε β) w r w' ↔
      ∃ a m, step w e a m ∧ Runs step (f a) m r w' := runs_call

theorem runs_attempt {x : Proc E R ε α} {r : Except ε' (Except ε α)} :
    Runs step (x.attempt : Proc E R ε' (Except ε α)) w r w' ↔ ∃ a, r = .ok a ∧ Runs step x w a w' := by
  refine runs_prog_bind.trans ?_
  constructor
  · rintro ⟨a, m, hx, hr⟩
    obtain ⟨rfl, rfl⟩ := runs_ret.mp hr
    exact ⟨a, rfl, hx⟩
  · rintro ⟨a, rfl, hx⟩
    exact ⟨a, w', hx, runs_ret.mpr ⟨rfl, rfl⟩⟩

/-- A program whose exceptions are values, and what follows them. -/
theorem runs_attempt_bind {x : Proc E R ε α} {f : Except ε α → Proc E R ε' β} {r : Except ε' β} :
    Runs step (x.attempt >>= f : Proc E R ε' β) w r w' ↔
      ∃ a m, Runs step x w a m ∧ Runs step (f a) m r w' := by
  rw [runs_bind]
  constructor
  · rintro (⟨e, hx, rfl⟩ | ⟨a, m, hx, hf⟩)
    · obtain ⟨a, he, -⟩ := runs_attempt.mp hx
      cases he
    · obtain ⟨b, hb, hx⟩ := runs_attempt.mp hx
      cases hb
      exact ⟨a, m, hx, hf⟩
  · rintro ⟨a, m, hx, hf⟩
    exact .inr ⟨a, m, runs_attempt.mpr ⟨a, rfl, hx⟩, hf⟩

theorem runs_mapError_ok {f : ε → ε'} {x : Proc E R ε α} {a : α} :
    Runs step (x.mapError f) w (.ok a) w' ↔ Runs step x w (.ok a) w' := by
  refine runs_prog_bind.trans ?_
  constructor
  · rintro ⟨e | b, m, hx, hr⟩
    · cases (runs_ret.mp hr).1
    · obtain ⟨hb, rfl⟩ := runs_ret.mp hr
      cases hb
      exact hx
  · intro hx
    exact ⟨.ok a, w', hx, runs_ret.mpr ⟨rfl, rfl⟩⟩

theorem runs_handle {x : Proc E R ε α} {handler : ε → Proc E R ε α} {r : Except ε α} :
    Runs step (tryCatch x handler : Proc E R ε α) w r w' ↔
      (∃ a, Runs step x w (.ok a) w' ∧ r = .ok a) ∨
        ∃ e m, Runs step x w (.error e) m ∧ Runs step (handler e) m r w' := by
  refine runs_prog_bind.trans ?_
  constructor
  · rintro ⟨e | a, m, hx, hf⟩
    · exact .inr ⟨e, m, hx, hf⟩
    · obtain ⟨rfl, rfl⟩ := runs_ret.mp hf
      exact .inl ⟨a, hx, rfl⟩
  · rintro (⟨a, hx, rfl⟩ | ⟨e, m, hx, hf⟩)
    · exact ⟨.ok a, w', hx, runs_ret.mpr ⟨rfl, rfl⟩⟩
    · exact ⟨.error e, m, hx, hf⟩

end

/-! ### Runs that cannot go wrong -/

section
variable {step : Step W E R} {w w' : W}

/-- A first part that always succeeds is passed over. -/
theorem Runs.bind_of {x : Proc E R ε α} {f : α → Proc E R ε β} {r : Except ε β} {Q : α → W → Prop}
    (h : Runs step (x >>= f : Proc E R ε β) w r w')
    (hx : ∀ r' m, Runs step x w r' m → ∃ a, r' = .ok a ∧ Q a m) :
    ∃ a m, Q a m ∧ Runs step (f a) m r w' := by
  rcases runs_bind.mp h with ⟨e, he, -⟩ | ⟨a, m, ha, hf⟩
  · obtain ⟨a, hr, -⟩ := hx _ _ he
    cases hr
  · obtain ⟨b, hr, hb⟩ := hx _ _ ha
    cases hr
    exact ⟨a, m, hb, hf⟩

theorem Runs.lift_bind_of {x : Except ε α} {f : α → Proc E R ε β} {r : Except ε β} {a : α}
    (h : Runs step (Proc.lift x >>= f : Proc E R ε β) w r w') (hx : x = .ok a) : Runs step (f a) w r w' := by
  subst hx
  exact h

/-- **Progress.**  Where every call of a kind has an answer, a program that makes only calls of that
kind has a run. -/
theorem exists_runs {P : E → Prop} {I : W → Prop}
    (hcall : ∀ w e, P e → I w → ∃ r w', step w e r w' ∧ I w') {p : Prog E R α} (hp : Only P p) (hI : I w) :
    ∃ a w', Runs step p w a w' ∧ I w' := by
  induction p generalizing w with
  | pure a => exact ⟨a, w, runs_ret.mpr ⟨rfl, rfl⟩, hI⟩
  | call e k ih =>
      obtain ⟨r, m, hr, hm⟩ := hcall w e hp.1 hI
      obtain ⟨a, w', hk, hI'⟩ := ih r (hp.2 r) hm
      exact ⟨a, w', runs_call.mpr ⟨r, m, hr, hk⟩, hI'⟩

end

/-- A run by a script whose answers are allowed, seen through the world it shows. -/
theorem runs_of_runSome {step : Step W E R} {view : V → W} {answer : V → (e : E) → Option (R e × V)}
    (hanswer : ∀ v e r v', answer v e = some (r, v') → step (view v) e r (view v')) {p : Prog E R α} {a : α}
    {v v' : V} (h : p.runSome answer v = some (a, v')) : Runs step p (view v) a (view v') := by
  induction p generalizing v with
  | pure b =>
      cases h
      exact runs_ret.mpr ⟨rfl, rfl⟩
  | call e k ih =>
      rw [Prog.runSome] at h
      obtain ⟨⟨r, m⟩, hr, hk⟩ := Option.bind_eq_some_iff.mp h
      exact runs_call.mpr ⟨r, view m, hanswer v e r m hr, ih r hk⟩

end Lib
