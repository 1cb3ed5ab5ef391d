/-
Runs by a script.

A script answers some calls and not others.  A program that only makes calls which the
script has an answer for runs to its end, and the run of a sequence is the run of its first
part and then of the rest, so what a program does under a script is computed function by
function.
-/
import DataEngLab.Lib.Prog

namespace Lib

variable {E : Type} {R : E → Type} {W ε ε' α β : Type}

/-- `Prog.run`, with answers to some calls only. -/
def Prog.runSome (answer : W → (e : E) → Option (R e × W)) : Prog E R α → W → Option (α × W)
  | .pure a, w => some (a, w)
  | .call e k, w => (answer w e).bind fun x => (k x.1).runSome answer x.2

section
variable (answer : W → (e : E) → Option (R e × W))

theorem Prog.runSome_bind (x : Prog E R α) (f : α → Prog E R β) (w : W) :
    (x.bind f).runSome answer w = (x.runSome answer w).bind fun y => (f y.1).runSome answer y.2 := by
  induction x generalizing w with
  | pure a => rfl
  | call e k ih =>
      rw [runSome, Option.bind_assoc]
      exact congrArg (Option.bind (answer w e)) (funext fun y => ih y.1 y.2)

/-- `Prog.runSome` of a program that may raise. -/
def Proc.runSome (x : Proc E R ε α) (w : W) : Option (Except ε α × W) := Prog.runSome answer x w

@[simp] theorem runSome_pure (a : α) (w : W) :
    Proc.runSome answer (pure a : Proc E R ε α) w = some (.ok a, w) := rfl

@[simp] theorem runSome_throw (e : ε) (w : W) :
    Proc.runSome answer (throw e : Proc E R ε α) w = some (.error e, w) := rfl

@[simp] theorem runSome_perform (e : E) (w : W) :
    Proc.runSome answer (Proc.perform e : Proc E R ε (R e)) w =
      (answer w e).map fun x => (.ok x.1, x.2) := by
  cases h : answer w e <;> simp [Proc.runSome, Proc.perform, Prog.runSome, h]

@[simp] theorem runSome_lift (x : Except ε α) (w : W) :
    Proc.runSome answer (Proc.lift x : Proc E R ε α) w = some (x, w) := rfl

/-- What follows in a sequence, if the first part did not raise. -/
def Proc.goOn (f : α → Proc E R ε β) (y : Except ε α × W) : Option (Except ε β × W) :=
  match y.1 with
  | .ok a => Proc.runSome answer (f a) y.2
  | .error e => some (.error e, y.2)

@[simp] theorem Proc.goOn_ok (f : α → Proc E R ε β) (a : α) (w : W) :
    Proc.goOn answer f (.ok a, w) = Proc.runSome answer (f a) w := rfl

@[simp] theorem Proc.goOn_error (f : α → Proc E R ε β) (e : ε) (w : W) :
    Proc.goOn answer f (.error e, w) = some (.error e, w) := rfl

theorem runSome_bind (x : Proc E R ε α) (f : α → Proc E R ε β) (w : W) :
    Proc.runSome answer (x >>= f) w = (Proc.runSome answer x w).bind (Proc.goOn answer f) := by
  refine (Prog.runSome_bind answer x _ w).trans (congrArg _ (funext fun y => ?_))
  obtain ⟨r, w'⟩ := y
  cases r <;> rfl

theorem runSome_bind_ok {x : Proc E R ε α} {f : α → Proc E R ε β} {w w' : W} {a : α}
    (h : Proc.runSome answer x w = some (.ok a, w')) :
    Proc.runSome answer (x >>= f) w = Proc.runSome answer (f a) w' := by
  rw [runSome_bind, h]
  rfl

theorem runSome_bind_error {x : Proc E R ε α} {f : α → Proc E R ε β} {w w' : W} {e : ε}
    (h : Proc.runSome answer x w = some (.error e, w')) :
    Proc.runSome answer (x >>= f) w = some (.error e, w') := by
  rw [runSome_bind, h]
  rfl

@[simp] theorem runSome_attempt (x : Proc E R ε α) (w : W) :
    Proc.runSome answer (x.attempt : Proc E R ε' (Except ε α)) w =
      (Proc.runSome answer x w).map fun y => (.ok y.1, y.2) := by
  refine (Prog.runSome_bind answer x _ w).trans ?_
  cases h : Prog.runSome answer x w <;> simp [Proc.runSome, Prog.runSome, h]

theorem runSome_attempt_bind {x : Proc E R ε α} {f : Except ε α → Proc E R ε' β} {w w' : W} {r : Except ε α}
    (h : Proc.runSome answer x w = some (r, w')) :
    Proc.runSome answer (x.attempt >>= f : Proc E R ε' β) w = Proc.runSome answer (f r) w' := by
  rw [runSome_bind, runSome_attempt, h]
  rfl

theorem runSome_mapError_ok {x : Proc E R ε α} {f : ε → ε'} {w w' : W} {a : α}
    (h : Proc.runSome answer x w = some (.ok a, w')) :
    Proc.runSome answer (x.mapError f) w = some (.ok a, w') := by
  refine (Prog.runSome_bind answer x _ w).trans ?_
  have h' : Prog.runSome answer x w = some (.ok a, w') := h
  rw [h']
  rfl

end

end Lib
