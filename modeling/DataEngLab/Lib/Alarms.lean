/-
Where an exception of some kind comes from.

`Tells` says of a program that it raises an exception of a kind exactly when one of its
calls was answered by one.  A program with that property neither makes such an exception
itself nor catches one, and the property is that of its parts: every rule here reads it off
one construct.  The log of a play is searched, so the rules hold against every environment.
-/
import DataEngLab.Lib.Trace

namespace Lib

variable {E : Type} {R : E → Type} {ε ε' α β : Type}

/-- Does this end with an exception of the kind? -/
def alarmed (kind : ε → Bool) : Except ε α → Bool
  | .error e => kind e
  | .ok _ => false

@[simp] theorem alarmed_ok {kind : ε → Bool} {a : α} : alarmed kind (.ok a) = false := rfl

@[simp] theorem alarmed_error {kind : ε → Bool} {e : ε} : alarmed kind (.error e : Except ε α) = kind e := rfl

/-- Does an answer of the log sound? -/
def sounded (sounds : (e : E) → R e → Bool) (l : List (Event E R)) : Bool := l.any fun x => sounds x.1 x.2

section
variable {sounds : (e : E) → R e → Bool} {l₁ l₂ : List (Event E R)}

@[simp] theorem sounded_nil : sounded sounds ([] : List (Event E R)) = false := rfl

@[simp] theorem sounded_cons {x : Event E R} : sounded sounds (x :: l₁) = (sounds x.1 x.2 || sounded sounds l₁) := rfl

@[simp] theorem sounded_append : sounded sounds (l₁ ++ l₂) = (sounded sounds l₁ || sounded sounds l₂) :=
  List.any_append

theorem sounded_iff : sounded sounds l₁ = true ↔ ∃ x ∈ l₁, sounds x.1 x.2 = true := List.any_eq_true

theorem sounded_eq_false : sounded sounds l₁ = false ↔ ∀ x ∈ l₁, sounds x.1 x.2 = false := by
  simp [sounded]

end

/-- An exception of the kind is raised exactly when an answer sounds. -/
def Tells (kind : ε → Bool) (sounds : (e : E) → R e → Bool) (p : Proc E R ε α) : Prop :=
  ∀ l x, Plays p l x → alarmed kind x = sounded sounds l

section
variable {kind : ε → Bool} {sounds : (e : E) → R e → Bool}

theorem Tells.pure {a : α} : Tells kind sounds (pure a : Proc E R ε α) := by
  intro l x h
  obtain ⟨rfl, rfl⟩ := plays_pure.mp h
  rfl

theorem Tells.throw {e : ε} (he : kind e = false) : Tells kind sounds (throw e : Proc E R ε α) := by
  intro l x h
  obtain ⟨rfl, rfl⟩ := plays_throw.mp h
  exact he

theorem Tells.lift {x : Except ε α} (hx : alarmed kind x = false) : Tells kind sounds (Proc.lift x : Proc E R ε α) := by
  intro l r h
  obtain ⟨rfl, rfl⟩ := plays_lift.mp h
  exact hx

theorem Tells.bind {p : Proc E R ε α} {f : α → Proc E R ε β} (hp : Tells kind sounds p)
    (hf : ∀ a, Tells kind sounds (f a)) : Tells kind sounds (p >>= f : Proc E R ε β) := by
  intro l x h
  rcases plays_bind.mp h with ⟨e, he, rfl⟩ | ⟨l₁, l₂, a, rfl, ha, hx⟩
  · exact hp _ _ he
  · rw [sounded_append, ← hp _ _ ha, ← hf a _ _ hx]
    rfl

/-- A call whose answer cannot sound. -/
theorem Tells.perform {e : E} (he : ∀ r, sounds e r = false) :
    Tells kind sounds (Proc.perform e : Proc E R ε (R e)) := by
  intro l x h
  obtain ⟨r, rfl, rfl⟩ := plays_perform.mp h
  rw [sounded_cons, sounded_nil, he, alarmed_ok]
  rfl

/-- A call and what follows its answer, which sounds if it does. -/
theorem Tells.perform_bind {e : E} {f : R e → Proc E R ε β}
    (hf : ∀ r l x, Plays (f r) l x → alarmed kind x = (sounds e r || sounded sounds l)) :
    Tells kind sounds (Proc.perform e >>= f : Proc E R ε β) := by
  intro l x h
  obtain ⟨r, l', rfl, hrest⟩ := plays_perform_bind.mp h
  exact hf r l' x hrest

theorem Tells.mapError {p : Proc E R ε α} {g : ε → ε} (hp : Tells kind sounds p) (hg : ∀ e, kind (g e) = kind e) :
    Tells kind sounds (p.mapError g) := by
  intro l x h
  obtain ⟨a, rfl, ha⟩ := plays_mapError.mp h
  rw [← hp _ _ ha]
  cases a with
  | error e => exact hg e
  | ok a => rfl

theorem Tells.ite {c : Prop} [Decidable c] {p q : Proc E R ε α} (hp : c → Tells kind sounds p)
    (hq : ¬ c → Tells kind sounds q) : Tells kind sounds (if c then p else q) := by
  split
  · exact hp (by assumption)
  · exact hq (by assumption)

end

end Lib
