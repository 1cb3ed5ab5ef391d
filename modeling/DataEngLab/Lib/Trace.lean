/-
What a program does from beginning to end.

`Plays p l a` says that the program `p`, when its calls are answered as the log `l` tells,
oldest first, makes just the calls of the log and ends with `a`.  Every execution is such a
play, with any answers at all, so a theorem about plays holds against every environment.

A play of a sequence is a play of its first part followed by one of the rest
(`plays_bind`), which is how a play is taken apart: the log splits where the program does.
-/
import DataEngLab.Lib.Prog

namespace Lib

variable {E : Type} {R : E → Type} {W ε ε' α β : Type}

/-- Answered as `l` says, the program ends with `a`. -/
def Plays : Prog E R α → List (Event E R) → α → Prop
  | .pure a, l, b => l = [] ∧ a = b
  | .call e k, l, b => ∃ r l', l = ⟨e, r⟩ :: l' ∧ Plays (k r) l' b

theorem plays_ret {a : α} {l : List (Event E R)} {b : α} :
    Plays (.pure a : Prog E R α) l b ↔ l = [] ∧ a = b := Iff.rfl

theorem plays_call {e : E} {k : R e → Prog E R α} {l : List (Event E R)} {b : α} :
    Plays (.call e k) l b ↔ ∃ r l', l = ⟨e, r⟩ :: l' ∧ Plays (k r) l' b := Iff.rfl

-- a play is taken apart by the rules below, never by running the program
attribute [irreducible] Plays

theorem plays_prog_bind {p : Prog E R α} {f : α → Prog E R β} {l : List (Event E R)} {b : β} :
    Plays (p.bind f) l b ↔ ∃ l₁ l₂ a, l = l₁ ++ l₂ ∧ Plays p l₁ a ∧ Plays (f a) l₂ b := by
  induction p generalizing l with
  | pure a =>
      constructor
      · intro h
        exact ⟨[], l, a, rfl, plays_ret.mpr ⟨rfl, rfl⟩, h⟩
      · rintro ⟨l₁, l₂, a', rfl, hp, h⟩
        obtain ⟨rfl, rfl⟩ := plays_ret.mp hp
        exact h
  | call e k ih =>
      constructor
      · intro h
        obtain ⟨r, l', rfl, hrest⟩ := plays_call.mp h
        obtain ⟨l₁, l₂, a, rfl, hk, hf⟩ := (ih r).mp hrest
        exact ⟨⟨e, r⟩ :: l₁, l₂, a, rfl, plays_call.mpr ⟨r, l₁, rfl, hk⟩, hf⟩
      · rintro ⟨l₁, l₂, a, rfl, hp, hf⟩
        obtain ⟨r, l₁', rfl, hk⟩ := plays_call.mp hp
        exact plays_call.mpr ⟨r, l₁' ++ l₂, rfl, (ih r).mpr ⟨l₁', l₂, a, rfl, hk, hf⟩⟩

/-- What a program is known to call is all that its log holds. -/
theorem Only.plays {P : E → Prop} {p : Prog E R α} (hp : Only P p) {l : List (Event E R)} {a : α}
    (h : Plays p l a) : ∀ x ∈ l, P x.1 := by
  induction p generalizing l with
  | pure b =>
      obtain ⟨rfl, -⟩ := plays_ret.mp h
      intro x hx
      cases hx
  | call e k ih =>
      obtain ⟨r, l', rfl, hk⟩ := plays_call.mp h
      intro x hx
      rcases List.mem_cons.mp hx with rfl | hx
      · exact hp.1
      · exact ih r (hp.2 r) hk x hx

/-! ### The rules -/

section
variable {l : List (Event E R)}

@[simp] theorem plays_pure {a : α} {r : Except ε α} :
    Plays (pure a : Proc E R ε α) l r ↔ l = [] ∧ r = .ok a :=
  plays_ret.trans (and_congr_right fun _ => eq_comm)

@[simp] theorem plays_throw {e : ε} {r : Except ε α} :
    Plays (throw e : Proc E R ε α) l r ↔ l = [] ∧ r = .error e :=
  plays_ret.trans (and_congr_right fun _ => eq_comm)

@[simp] theorem plays_lift {x : Except ε α} {r : Except ε α} :
    Plays (Proc.lift x : Proc E R ε α) l r ↔ l = [] ∧ r = x :=
  plays_ret.trans (and_congr_right fun _ => eq_comm)

@[simp] theorem plays_perform {e : E} {r : Except ε (R e)} :
    Plays (Proc.perform e : Proc E R ε (R e)) l r ↔ ∃ a, l = [⟨e, a⟩] ∧ r = .ok a := by
  refine plays_call.trans ⟨?_, ?_⟩
  · rintro ⟨a, l', rfl, h⟩
    obtain ⟨rfl, rfl⟩ := plays_ret.mp h
    exact ⟨a, rfl, rfl⟩
  · rintro ⟨a, rfl, rfl⟩
    exact ⟨a, [], rfl, plays_ret.mpr ⟨rfl, rfl⟩⟩

/-- **The log of a sequence splits where the program does.** -/
theorem plays_bind {x : Proc E R ε α} {f : α → Proc E R ε β} {r : Except ε β} :
    Plays (x >>= f : Proc E R ε β) l r ↔
      (∃ e, Plays x l (.error e) ∧ r = .error e) ∨
        ∃ l₁ l₂ a, l = l₁ ++ l₂ ∧ Plays x l₁ (.ok a) ∧ Plays (f a) l₂ r := by
  refine plays_prog_bind.trans ?_
  constructor
  · rintro ⟨l₁, l₂, e | a, rfl, hx, hf⟩
    · obtain ⟨rfl, rfl⟩ := plays_ret.mp hf
      exact .inl ⟨e, by simpa using hx, rfl⟩
    · exact .inr ⟨l₁, l₂, a, rfl, hx, hf⟩
  · rintro (⟨e, hx, rfl⟩ | ⟨l₁, l₂, a, rfl, hx, hf⟩)
    · exact ⟨l, [], .error e, by simp, hx, plays_ret.mpr ⟨rfl, rfl⟩⟩
    · exact ⟨l₁, l₂, .ok a, rfl, hx, hf⟩

theorem plays_bind_ok {x : Proc E R ε α} {f : α → Proc E R ε β} {b : β} :
    Plays (x >>= f : Proc E R ε β) l (.ok b) ↔
      ∃ l₁ l₂ a, l = l₁ ++ l₂ ∧ Plays x l₁ (.ok a) ∧ Plays (f a) l₂ (.ok b) := by
  rw [plays_bind]
  constructor
  · rintro (⟨e, -, hr⟩ | h)
    · cases hr
    · exact h
  · exact .inr

theorem plays_handle {x : Proc E R ε α} {handler : ε → Proc E R ε α} {r : Except ε α} :
    Plays (tryCatch x handler : Proc E R ε α) l r ↔
      (∃ a, Plays x l (.ok a) ∧ r = .ok a) ∨
        ∃ l₁ l₂ e, l = l₁ ++ l₂ ∧ Plays x l₁ (.error e) ∧ Plays (handler e) l₂ r := by
  refine plays_prog_bind.trans ?_
  constructor
  · rintro ⟨l₁, l₂, e | a, rfl, hx, hf⟩
    · exact .inr ⟨l₁, l₂, e, rfl, hx, hf⟩
    · obtain ⟨rfl, rfl⟩ := plays_ret.mp hf
      exact .inl ⟨a, by simpa using hx, rfl⟩
  · rintro (⟨a, hx, rfl⟩ | ⟨l₁, l₂, e, rfl, hx, hf⟩)
    · exact ⟨l, [], .ok a, by simp, hx, plays_ret.mpr ⟨rfl, rfl⟩⟩
    · exact ⟨l₁, l₂, .error e, rfl, hx, hf⟩

theorem plays_attempt {x : Proc E R ε α} {r : Except ε' (Except ε α)} :
    Plays (x.attempt : Proc E R ε' (Except ε α)) l r ↔ ∃ a, r = .ok a ∧ Plays x l a := by
  refine plays_prog_bind.trans ?_
  constructor
  · rintro ⟨l₁, l₂, a, rfl, hx, hr⟩
    obtain ⟨rfl, rfl⟩ := plays_ret.mp hr
    exact ⟨a, rfl, by simpa using hx⟩
  · rintro ⟨a, rfl, hx⟩
    exact ⟨l, [], a, by simp, hx, plays_ret.mpr ⟨rfl, rfl⟩⟩

theorem plays_mapError {x : Proc E R ε α} {f : ε → ε'} {r : Except ε' α} :
    Plays (x.mapError f) l r ↔ ∃ a, r = a.mapError f ∧ Plays x l a := by
  refine plays_prog_bind.trans ?_
  constructor
  · rintro ⟨l₁, l₂, e | a, rfl, hx, hr⟩
    · obtain ⟨rfl, rfl⟩ := plays_ret.mp hr
      exact ⟨.error e, rfl, by simpa using hx⟩
    · obtain ⟨rfl, rfl⟩ := plays_ret.mp hr
      exact ⟨.ok a, rfl, by simpa using hx⟩
  · rintro ⟨e | a, rfl, hx⟩
    · exact ⟨l, [], .error e, by simp, hx, plays_ret.mpr ⟨rfl, rfl⟩⟩
    · exact ⟨l, [], .ok a, by simp, hx, plays_ret.mpr ⟨rfl, rfl⟩⟩

/-- A call, and what follows its answer. -/
theorem plays_perform_bind {e : E} {f : R e → Proc E R ε β} {r : Except ε β} :
    Plays (Proc.perform e >>= f : Proc E R ε β) l r ↔ ∃ reply l', l = ⟨e, reply⟩ :: l' ∧ Plays (f reply) l' r :=
  plays_call

/-- A computation without calls, and what follows it. -/
theorem plays_lift_bind {x : Except ε α} {f : α → Proc E R ε β} {r : Except ε β} :
    Plays (Proc.lift x >>= f : Proc E R ε β) l r ↔
      (∃ e, x = .error e ∧ l = [] ∧ r = .error e) ∨ ∃ a, x = .ok a ∧ Plays (f a) l r := by
  rw [plays_bind]
  constructor
  · rintro (⟨e, hx, rfl⟩ | ⟨l₁, l₂, a, rfl, hx, hf⟩)
    · obtain ⟨rfl, he⟩ := plays_lift.mp hx
      exact .inl ⟨e, he.symm, rfl, rfl⟩
    · obtain ⟨rfl, ha⟩ := plays_lift.mp hx
      exact .inr ⟨a, ha.symm, hf⟩
  · rintro (⟨e, rfl, rfl, rfl⟩ | ⟨a, rfl, hf⟩)
    · exact .inl ⟨e, plays_lift.mpr ⟨rfl, rfl⟩, rfl⟩
    · exact .inr ⟨[], l, a, rfl, plays_lift.mpr ⟨rfl, rfl⟩, hf⟩

end

/-! ### Recording a play -/

/-- The play that a function's answers make. -/
def record (answer : W → (e : E) → R e × W) : Prog E R α → W → List (Event E R) × α
  | .pure a, _ => ([], a)
  | .call e k, w =>
      let rest := record answer (k (answer w e).1) (answer w e).2
      (⟨e, (answer w e).1⟩ :: rest.1, rest.2)

theorem record_plays (answer : W → (e : E) → R e × W) (p : Prog E R α) :
    ∀ w, Plays p (record answer p w).1 (record answer p w).2 := by
  induction p with
  | pure a => exact fun _ => plays_ret.mpr ⟨rfl, rfl⟩
  | call e k ih => exact fun w => plays_call.mpr ⟨(answer w e).1, _, rfl, ih _ _⟩

/-- A run is a play, of whatever its calls were answered. -/
theorem run_plays (answer : W → (e : E) → R e × W) (p : Prog E R α) : ∀ w, ∃ l, Plays p l (p.run answer w).1 := by
  induction p with
  | pure a => exact fun _ => ⟨[], plays_ret.mpr ⟨rfl, rfl⟩⟩
  | call e k ih =>
      intro w
      obtain ⟨l, hl⟩ := ih (answer w e).1 (answer w e).2
      exact ⟨_, plays_call.mpr ⟨(answer w e).1, l, rfl, hl⟩⟩

/-- Every answer in a recorded play is one of the function's. -/
theorem record_answers (answer : W → (e : E) → R e × W) (p : Prog E R α) :
    ∀ w, ∀ x ∈ (record answer p w).1, ∃ w', x.2 = (answer w' x.1).1 := by
  induction p with
  | pure a => exact fun _ x hx => nomatch hx
  | call e k ih =>
      intro w x hx
      rcases List.mem_cons.mp hx with rfl | hx
      · exact ⟨w, rfl⟩
      · exact ih _ _ x hx

end Lib
