/-
Programs that call on their surroundings.

A program is a tree: it has finished, or it makes a call and goes on according to the
answer.  Everything outside the program (a store, a clock, a lock, other programs) is in
the answers, so one definition of a program serves a run with no failures, a run in which
any call may fail, and a run interleaved with others.

`Sat` is the rule of assertion for the last of these.  It follows the program call by
call; before each call the state may change as `rely` allows, and each call has to be
shown to do what `guar` promises.  Because the guarantee is an argument, a property of the
calls of a program can be proved on its own and joined with another by `Sat.and`.
-/
import Mathlib.Logic.Basic
import Mathlib.Data.List.Basic

namespace Lib

/-- A program: its result, or a call and what is done with the answer. -/
inductive Prog (E : Type) (R : E → Type) (α : Type) where
  | pure (a : α)
  | call (e : E) (k : R e → Prog E R α)

variable {E : Type} {R : E → Type} {W ε ε' α β : Type}

def Prog.bind : Prog E R α → (α → Prog E R β) → Prog E R β
  | .pure a, f => f a
  | .call e k, f => .call e fun r => (k r).bind f

/-- A program that may raise. -/
def Proc (E : Type) (R : E → Type) (ε α : Type) : Type := Prog E R (Except ε α)

namespace Proc

def ret (a : α) : Proc E R ε α := Prog.pure (.ok a)

def raise (e : ε) : Proc E R ε α := Prog.pure (.error e)

def andThen (x : Proc E R ε α) (f : α → Proc E R ε β) : Proc E R ε β :=
  Prog.bind x fun r => match r with
    | .ok a => f a
    | .error e => Prog.pure (.error e)

/-- `try: x except e: handler(e)` -/
def handle (x : Proc E R ε α) (handler : ε → Proc E R ε α) : Proc E R ε α :=
  Prog.bind x fun r => match r with
    | .ok a => Prog.pure (.ok a)
    | .error e => handler e

/-- `x`, with what it raises as a value. -/
def attempt (x : Proc E R ε α) : Proc E R ε' (Except ε α) := Prog.bind x fun r => Prog.pure (.ok r)

/-- `x`, with what it raises changed by a function. -/
def mapError (f : ε → ε') (x : Proc E R ε α) : Proc E R ε' α :=
  Prog.bind x fun r => match r with
    | .ok a => Prog.pure (.ok a)
    | .error e => Prog.pure (.error (f e))

def perform (e : E) : Proc E R ε (R e) := Prog.call e fun r => Prog.pure (.ok r)

def lift (x : Except ε α) : Proc E R ε α := Prog.pure x

instance : Monad (Proc E R ε) where
  pure := ret
  bind := andThen

instance : MonadExceptOf ε (Proc E R ε) where
  throw := raise
  tryCatch := handle

end Proc

theorem Prog.bind_assoc {γ : Type} (x : Prog E R α) (f : α → Prog E R β) (g : β → Prog E R γ) :
    (x.bind f).bind g = x.bind fun a => (f a).bind g := by
  induction x with
  | pure a => rfl
  | call e k ih => exact congrArg (Prog.call e) (funext ih)

theorem Proc.bind_assoc {γ : Type} (x : Proc E R ε α) (f : α → Proc E R ε β) (g : β → Proc E R ε γ) :
    x >>= f >>= g = x >>= fun a => f a >>= g := by
  refine (Prog.bind_assoc x _ _).trans (congrArg (Prog.bind x) (funext fun r => ?_))
  cases r with
  | error e => rfl
  | ok a => rfl

/-! ### Runs without surprises -/

/-- The run of a program whose calls are answered by a function. -/
def Prog.run (answer : W → (e : E) → R e × W) : Prog E R α → W → α × W
  | .pure a, w => (a, w)
  | .call e k, w => (k (answer w e).1).run answer (answer w e).2

section
variable (answer : W → (e : E) → R e × W)

@[simp] theorem Prog.run_bind (x : Prog E R α) (f : α → Prog E R β) (w : W) :
    (x.bind f).run answer w = (f (x.run answer w).1).run answer (x.run answer w).2 := by
  induction x generalizing w with
  | pure a => rfl
  | call e k ih => exact ih _ _

/-- `Prog.run` of a program that may raise. -/
def Proc.run (x : Proc E R ε α) (w : W) : Except ε α × W := Prog.run answer x w

@[simp] theorem run_pure (a : α) (w : W) :
    Proc.run answer (pure a : Proc E R ε α) w = (.ok a, w) := rfl

@[simp] theorem run_throw (e : ε) (w : W) :
    Proc.run answer (throw e : Proc E R ε α) w = (.error e, w) := rfl

@[simp] theorem run_perform (e : E) (w : W) :
    Proc.run answer (Proc.perform e : Proc E R ε (R e)) w = (.ok (answer w e).1, (answer w e).2) := rfl

@[simp] theorem run_lift (x : Except ε α) (w : W) :
    Proc.run answer (Proc.lift x : Proc E R ε α) w = (x, w) := rfl

theorem run_bind (x : Proc E R ε α) (f : α → Proc E R ε β) (w : W) :
    Proc.run answer (x >>= f) w =
      match (Proc.run answer x w).1 with
      | .ok a => Proc.run answer (f a) (Proc.run answer x w).2
      | .error e => (.error e, (Proc.run answer x w).2) := by
  refine (Prog.run_bind answer x _ w).trans ?_
  rcases h : (Prog.run answer x w).1 with e | a
  · simp only [Proc.run, h]; rfl
  · simp only [Proc.run, h]

theorem run_tryCatch (x : Proc E R ε α) (handler : ε → Proc E R ε α) (w : W) :
    Proc.run answer (tryCatch x handler) w =
      match (Proc.run answer x w).1 with
      | .ok a => (.ok a, (Proc.run answer x w).2)
      | .error e => Proc.run answer (handler e) (Proc.run answer x w).2 := by
  refine (Prog.run_bind answer x _ w).trans ?_
  rcases h : (Prog.run answer x w).1 with e | a
  · simp only [Proc.run, h]
  · simp only [Proc.run, h]; rfl

theorem run_attempt (x : Proc E R ε α) (w : W) :
    Proc.run answer (x.attempt : Proc E R ε' (Except ε α)) w =
      (.ok (Proc.run answer x w).1, (Proc.run answer x w).2) :=
  Prog.run_bind answer x _ w

theorem run_mapError (f : ε → ε') (x : Proc E R ε α) (w : W) :
    Proc.run answer (x.mapError f) w = ((Proc.run answer x w).1.mapError f, (Proc.run answer x w).2) := by
  refine (Prog.run_bind answer x _ w).trans ?_
  rcases h : (Prog.run answer x w).1 with e | a
  · simp only [Proc.run, h]; rfl
  · simp only [Proc.run, h]; rfl

end

/-! ### States and assertions -/

/-- A call and its answer. -/
abbrev Event (E : Type) (R : E → Type) := Σ e : E, R e

/-- A state of the surroundings and everything that was called, newest first, each call
with the number of the thread that made it. -/
structure Sys (W E : Type) (R : E → Type) where
  world : W
  log : List (Nat × Event E R)

/-- The state after thread `t` has been answered. -/
def Sys.next (s : Sys W E R) (t : Nat) (e : E) (r : R e) (w : W) : Sys W E R :=
  ⟨w, (t, ⟨e, r⟩) :: s.log⟩

/-- What a thread has called, newest first. -/
def Sys.history (s : Sys W E R) (t : Nat) : List (Event E R) :=
  (s.log.filter fun x => x.1 == t).map Prod.snd

@[simp] theorem Sys.next_world (s : Sys W E R) (t : Nat) (e : E) (r : R e) (w : W) :
    (s.next t e r w).world = w := rfl

@[simp] theorem Sys.next_log (s : Sys W E R) (t : Nat) (e : E) (r : R e) (w : W) :
    (s.next t e r w).log = (t, ⟨e, r⟩) :: s.log := rfl

@[simp] theorem Sys.next_history (s : Sys W E R) (t : Nat) (e : E) (r : R e) (w : W) :
    (s.next t e r w).history t = ⟨e, r⟩ :: s.history t := by
  simp [Sys.history]

theorem Sys.next_history_ne (s : Sys W E R) {t u : Nat} (h : u ≠ t) (e : E) (r : R e) (w : W) :
    (s.next t e r w).history u = s.history u := by
  have hne : (t == u) = false := by simpa using fun hc => h hc.symm
  simp [Sys.history, hne]

/-- How the surroundings may answer thread `t`, and how they change. -/
abbrev Answers (W E : Type) (R : E → Type) := Nat → Sys W E R → (e : E) → R e → W → Prop

/-- What a thread promises of each of its calls: the states around it and the answer. -/
abbrev Guarantee (W E : Type) (R : E → Type) :=
  Sys W E R → (e : E) → R e → Sys W E R → Prop

/-- Run by thread `t` from `s`, with the state changing between calls as `rely` allows, every
call of the program keeps `guar`, and when it has finished `Q` holds. -/
def Sat (step : Answers W E R) (rely : Sys W E R → Sys W E R → Prop) (guar : Guarantee W E R)
    (t : Nat) : Prog E R α → (α → Sys W E R → Prop) → Sys W E R → Prop
  | .pure a, Q, s => Q a s
  | .call e k, Q, s => ∀ s', rely s s' → ∀ r w, step t s' e r w →
      guar s' e r (s'.next t e r w) ∧ Sat step rely guar t (k r) Q (s'.next t e r w)

section
variable {step : Answers W E R} {rely : Sys W E R → Sys W E R → Prop} {guar : Guarantee W E R}
  {t : Nat}

theorem Sat.mono {Q Q' : α → Sys W E R → Prop} (hQ : ∀ a s, Q a s → Q' a s) :
    ∀ {p : Prog E R α} {s : Sys W E R}, Sat step rely guar t p Q s → Sat step rely guar t p Q' s := by
  intro p
  induction p with
  | pure a => intro s h; exact hQ a s h
  | call e k ih =>
      intro s h s' hs' r w hstep
      obtain ⟨hguar, hrest⟩ := h s' hs' r w hstep
      exact ⟨hguar, ih r hrest⟩

/-- Two properties of the same calls, proved separately. -/
theorem Sat.and {guar' : Guarantee W E R} {Q Q' : α → Sys W E R → Prop} :
    ∀ {p : Prog E R α} {s : Sys W E R}, Sat step rely guar t p Q s →
      Sat step rely guar' t p Q' s →
      Sat step rely (fun s e r s' => guar s e r s' ∧ guar' s e r s') t p
        (fun a s => Q a s ∧ Q' a s) s := by
  intro p
  induction p with
  | pure a => intro s h h'; exact ⟨h, h'⟩
  | call e k ih =>
      intro s h h' s' hs' r w hstep
      obtain ⟨hguar, hrest⟩ := h s' hs' r w hstep
      obtain ⟨hguar', hrest'⟩ := h' s' hs' r w hstep
      exact ⟨⟨hguar, hguar'⟩, ih r hrest hrest'⟩

theorem Sat.weaken {guar' : Guarantee W E R} {Q : α → Sys W E R → Prop}
    (hg : ∀ s e r s', guar s e r s' → guar' s e r s') :
    ∀ {p : Prog E R α} {s : Sys W E R}, Sat step rely guar t p Q s → Sat step rely guar' t p Q s := by
  intro p
  induction p with
  | pure a => intro s h; exact h
  | call e k ih =>
      intro s h s' hs' r w hstep
      obtain ⟨hguar, hrest⟩ := h s' hs' r w hstep
      exact ⟨hg _ _ _ _ hguar, ih r hrest⟩

/-- Fewer answers are no harder. -/
theorem Sat.restrict {step' : Answers W E R} {Q : α → Sys W E R → Prop}
    (hstep : ∀ s e r w, step' t s e r w → step t s e r w) :
    ∀ {p : Prog E R α} {s : Sys W E R}, Sat step rely guar t p Q s → Sat step' rely guar t p Q s := by
  intro p
  induction p with
  | pure a => intro s h; exact h
  | call e k ih =>
      intro s h s' hs' r w hr
      obtain ⟨hguar, hrest⟩ := h s' hs' r w (hstep _ _ _ _ hr)
      exact ⟨hguar, ih r hrest⟩

theorem Sat.prog_bind {p : Prog E R α} {f : α → Prog E R β} {Q : β → Sys W E R → Prop} :
    ∀ {s : Sys W E R}, Sat step rely guar t p (fun a s => Sat step rely guar t (f a) Q s) s →
      Sat step rely guar t (p.bind f) Q s := by
  induction p with
  | pure a => intro s h; exact h
  | call e k ih =>
      intro s h s' hs' r w hstep
      obtain ⟨hguar, hrest⟩ := h s' hs' r w hstep
      exact ⟨hguar, ih r hrest⟩

/-- A thread does not forget a call it made. -/
theorem Sat.remembers {Q : α → Sys W E R → Prop} {x : Event E R}
    (hrely : ∀ s s', rely s s' → s'.history t = s.history t) :
    ∀ {p : Prog E R α} {s : Sys W E R}, Sat step rely guar t p Q s → x ∈ s.history t →
      Sat step rely guar t p (fun a s => Q a s ∧ x ∈ s.history t) s := by
  intro p
  induction p with
  | pure a => intro s h hx; exact ⟨h, hx⟩
  | call e k ih =>
      intro s h hx s' hs' r w hstep
      obtain ⟨hguar, hrest⟩ := h s' hs' r w hstep
      refine ⟨hguar, ih r hrest ?_⟩
      rw [Sys.next_history, hrely s s' hs']
      exact List.mem_cons_of_mem _ hx

/-- An unfinished program keeps its assertion while the state changes as `rely` allows. -/
theorem Sat.stable {Q : α → Sys W E R → Prop} {e : E} {k : R e → Prog E R α} {s s' : Sys W E R}
    (htrans : ∀ {a b c}, rely a b → rely b c → rely a c)
    (h : Sat step rely guar t (.call e k) Q s) (hs : rely s s') :
    Sat step rely guar t (.call e k) Q s' :=
  fun s'' hs'' => h s'' (htrans hs hs'')

/-! ### The rules -/

variable {Q : Except ε α → Sys W E R → Prop} {s : Sys W E R}

theorem Sat.pure {a : α} (h : Q (.ok a) s) :
    Sat step rely guar t (Pure.pure a : Proc E R ε α) Q s := h

theorem Sat.throw {e : ε} (h : Q (.error e) s) :
    Sat step rely guar t (throw e : Proc E R ε α) Q s := h

theorem Sat.lift {x : Except ε α} (h : Q x s) :
    Sat step rely guar t (Proc.lift x : Proc E R ε α) Q s := h

/-- What is done with a result: go on with a value, or leave with an exception. -/
def onOk (f : α → Sys W E R → Prop) (Q : Except ε β → Sys W E R → Prop) :
    Except ε α → Sys W E R → Prop
  | .ok a, s => f a s
  | .error e, s => Q (.error e) s

theorem Sat.bind {x : Proc E R ε α} {f : α → Proc E R ε β} {Q : Except ε β → Sys W E R → Prop}
    (h : Sat step rely guar t x (onOk (fun a s => Sat step rely guar t (f a) Q s) Q) s) :
    Sat step rely guar t (x >>= f : Proc E R ε β) Q s := by
  refine Sat.prog_bind (Sat.mono ?_ h)
  rintro (e | a) s hs
  · exact hs
  · exact hs

/-- The first part ends with a value that satisfies `P` or with an exception that is allowed. -/
theorem Sat.bind_of {x : Proc E R ε α} {f : α → Proc E R ε β} {Q : Except ε β → Sys W E R → Prop}
    {P : α → Sys W E R → Prop} {X : ε → Sys W E R → Prop}
    (hx : Sat step rely guar t x (fun r s => match r with
      | .ok a => P a s
      | .error e => X e s) s)
    (hf : ∀ a s, P a s → Sat step rely guar t (f a) Q s)
    (he : ∀ e s, X e s → Q (.error e) s) : Sat step rely guar t (x >>= f : Proc E R ε β) Q s := by
  refine Sat.bind (Sat.mono ?_ hx)
  rintro (e | a) s hs
  · exact he e s hs
  · exact hf a s hs

/-- A computation without calls, and what follows it. -/
theorem Sat.lift_bind {x : Except ε α} {f : α → Proc E R ε β} {Q : Except ε β → Sys W E R → Prop}
    (hok : ∀ a, x = .ok a → Sat step rely guar t (f a) Q s)
    (herror : ∀ e, x = .error e → Q (.error e) s) :
    Sat step rely guar t (Proc.lift x >>= f : Proc E R ε β) Q s := by
  cases x with
  | error e => exact herror e rfl
  | ok a => exact hok a rfl

theorem Sat.handle {x : Proc E R ε α} {handler : ε → Proc E R ε α}
    (h : Sat step rely guar t x (fun r s => match r with
      | .ok a => Q (.ok a) s
      | .error e => Sat step rely guar t (handler e) Q s) s) :
    Sat step rely guar t (tryCatch x handler : Proc E R ε α) Q s := by
  refine Sat.prog_bind (Sat.mono ?_ h)
  rintro (e | a) s hs
  · exact hs
  · exact hs

theorem Sat.attempt {x : Proc E R ε α} {Q : Except ε' (Except ε α) → Sys W E R → Prop}
    (h : Sat step rely guar t x (fun r s => Q (.ok r) s) s) :
    Sat step rely guar t (x.attempt : Proc E R ε' (Except ε α)) Q s :=
  Sat.prog_bind (Sat.mono (fun _ _ hs => hs) h)

theorem Sat.mapError {f : ε → ε'} {x : Proc E R ε α} {Q : Except ε' α → Sys W E R → Prop}
    (h : Sat step rely guar t x (fun r s => Q (r.mapError f) s) s) :
    Sat step rely guar t (x.mapError f) Q s := by
  refine Sat.prog_bind (Sat.mono ?_ h)
  rintro (e | a) s hs
  · exact hs
  · exact hs

theorem Sat.perform {e : E} {Q : Except ε (R e) → Sys W E R → Prop}
    (h : ∀ s', rely s s' → ∀ r w, step t s' e r w →
      guar s' e r (s'.next t e r w) ∧ Q (.ok r) (s'.next t e r w)) :
    Sat step rely guar t (Proc.perform e : Proc E R ε (R e)) Q s := h

end

/-! ### Programs restricted in what they return -/

/-- Whatever the answers, a result satisfies `P`. -/
def Ends (P : α → Prop) : Prog E R α → Prop
  | .pure a => P a
  | .call _ k => ∀ r, Ends P (k r)

section

theorem Ends.prog_bind {P : α → Prop} {P' : β → Prop} {p : Prog E R α} {f : α → Prog E R β}
    (hp : Ends P p) (hf : ∀ a, P a → Ends P' (f a)) : Ends P' (p.bind f) := by
  induction p with
  | pure a => exact hf a hp
  | call e k ih => exact fun r => ih r (hp r)

theorem Ends.mono {P P' : α → Prop} {p : Prog E R α} (h : Ends P p) (hPP' : ∀ a, P a → P' a) :
    Ends P' p := by
  induction p with
  | pure a => exact hPP' a h
  | call e k ih => exact fun r => ih r (h r)

theorem Ends.any (p : Prog E R α) : Ends (fun _ => True) p := by
  induction p with
  | pure a => trivial
  | call e k ih => exact fun r => ih r

variable {P : Except ε α → Prop}

theorem Ends.pure {a : α} (h : P (.ok a)) : Ends P (Pure.pure a : Proc E R ε α) := h

theorem Ends.throw {e : ε} (h : P (.error e)) : Ends P (throw e : Proc E R ε α) := h

theorem Ends.lift {x : Except ε α} (h : P x) : Ends P (Proc.lift x : Proc E R ε α) := h

/-- The parts of a sequence agree on the exceptions. -/
theorem Ends.bind {x : Proc E R ε α} {f : α → Proc E R ε β} {P : Except ε β → Prop}
    (hx : Ends (fun r => ∀ e, r = .error e → P (.error e)) x) (hf : ∀ a, Ends P (f a)) :
    Ends P (x >>= f : Proc E R ε β) := by
  refine Ends.prog_bind hx fun r hr => ?_
  cases r with
  | error e => exact hr e rfl
  | ok a => exact hf a

theorem Ends.perform {e : E} {P : Except ε (R e) → Prop} (h : ∀ r, P (.ok r)) :
    Ends P (Proc.perform e : Proc E R ε (R e)) := h

theorem Ends.ite {P : α → Prop} {c : Prop} [Decidable c] {x y : Prog E R α} (hx : c → Ends P x)
    (hy : ¬ c → Ends P y) : Ends P (if c then x else y) := by
  split
  · exact hx (by assumption)
  · exact hy (by assumption)

end

/-- What holds of every result of a program holds when it has finished. -/
theorem Sat.ends {step : Answers W E R} {rely : Sys W E R → Sys W E R → Prop}
    {guar : Guarantee W E R} {t : Nat} {P : α → Prop} {Q : α → Sys W E R → Prop} :
    ∀ {p : Prog E R α} {s : Sys W E R}, Sat step rely guar t p Q s → Ends P p →
      Sat step rely guar t p (fun a s => Q a s ∧ P a) s := by
  intro p
  induction p with
  | pure a => intro s h hp; exact ⟨h, hp⟩
  | call e k ih =>
      intro s h hp s' hs' r w hstep
      obtain ⟨hguar, hrest⟩ := h s' hs' r w hstep
      exact ⟨hguar, ih r hrest (hp r)⟩

/-! ### Programs restricted in what they call -/

/-- Every call the program can make is one of `P`. -/
def Only (P : E → Prop) : Prog E R α → Prop
  | .pure _ => True
  | .call e k => P e ∧ ∀ r, Only P (k r)

section
variable {P : E → Prop}

theorem Only.mono {P' : E → Prop} (h : ∀ e, P e → P' e) {p : Prog E R α} (hp : Only P p) :
    Only P' p := by
  induction p with
  | pure a => trivial
  | call e k ih => exact ⟨h e hp.1, fun r => ih r (hp.2 r)⟩

theorem Only.prog_bind {p : Prog E R α} {f : α → Prog E R β} (hp : Only P p)
    (hf : ∀ a, Only P (f a)) : Only P (p.bind f) := by
  induction p with
  | pure a => exact hf a
  | call e k ih => exact ⟨hp.1, fun r => ih r (hp.2 r)⟩

theorem Only.pure {a : α} : Only P (Pure.pure a : Proc E R ε α) := trivial

theorem Only.throw {e : ε} : Only P (throw e : Proc E R ε α) := trivial

theorem Only.lift {x : Except ε α} : Only P (Proc.lift x : Proc E R ε α) := trivial

theorem Only.perform {e : E} (h : P e) : Only P (Proc.perform e : Proc E R ε (R e)) :=
  ⟨h, fun _ => trivial⟩

theorem Only.bind {x : Proc E R ε α} {f : α → Proc E R ε β} (hx : Only P x)
    (hf : ∀ a, Only P (f a)) : Only P (x >>= f : Proc E R ε β) := by
  refine Only.prog_bind hx fun r => ?_
  cases r with
  | error e => trivial
  | ok a => exact hf a

/-- A computation without calls, and what follows it when it succeeds. -/
theorem Only.lift_bind {x : Except ε α} {f : α → Proc E R ε β} (h : ∀ a, x = .ok a → Only P (f a)) :
    Only P (Proc.lift x >>= f : Proc E R ε β) := by
  cases x with
  | error e => trivial
  | ok a => exact h a rfl

theorem Only.handle {x : Proc E R ε α} {handler : ε → Proc E R ε α} (hx : Only P x)
    (hh : ∀ e, Only P (handler e)) : Only P (tryCatch x handler : Proc E R ε α) := by
  refine Only.prog_bind hx fun r => ?_
  cases r with
  | error e => exact hh e
  | ok a => trivial

theorem Only.attempt {x : Proc E R ε α} (hx : Only P x) :
    Only P (x.attempt : Proc E R ε' (Except ε α)) :=
  Only.prog_bind hx fun _ => trivial

theorem Only.mapError {f : ε → ε'} {x : Proc E R ε α} (hx : Only P x) : Only P (x.mapError f) := by
  refine Only.prog_bind hx fun r => ?_
  cases r with
  | error e => trivial
  | ok a => trivial

theorem Only.ite {c : Prop} [Decidable c] {x y : Prog E R α} (hx : c → Only P x)
    (hy : ¬ c → Only P y) : Only P (if c then x else y) := by
  split
  · exact hx (by assumption)
  · exact hy (by assumption)

/-- **Frame rule.**  An assertion that others keep, and that every call of a kind keeps, is
kept by a program that makes only calls of that kind. -/
theorem Only.sat {step : Answers W E R} {rely : Sys W E R → Sys W E R → Prop}
    {guar : Guarantee W E R} {t : Nat} {I : Sys W E R → Prop}
    (hrely : ∀ s s', I s → rely s s' → I s')
    (hcall : ∀ s e r w, P e → I s → step t s e r w →
      guar s e r (s.next t e r w) ∧ I (s.next t e r w)) :
    ∀ {p : Prog E R α}, Only P p → ∀ {s}, I s → Sat step rely guar t p (fun _ s => I s) s := by
  intro p
  induction p with
  | pure a => intro _ s hI; exact hI
  | call e k ih =>
      intro hp s hI s' hs' r w hstep
      obtain ⟨hguar, hI'⟩ := hcall s' e r w hp.1 (hrely s s' hI hs') hstep
      exact ⟨hguar, ih r (hp.2 r) hI'⟩

end

/-! ### Programs judged by their answers -/

/-- As long as its calls are answered as `C` says, every call the program makes is one of `P`, and
its result satisfies `Q`. -/
def Heeds (C : (e : E) → R e → Prop) (P : E → Prop) : Prog E R α → (α → Prop) → Prop
  | .pure a, Q => Q a
  | .call e k, Q => P e ∧ ∀ r, C e r → Heeds C P (k r) Q

section
variable {C : (e : E) → R e → Prop} {P : E → Prop}

theorem Heeds.mono {Q Q' : α → Prop} (hQ : ∀ a, Q a → Q' a) :
    ∀ {p : Prog E R α}, Heeds C P p Q → Heeds C P p Q' := by
  intro p
  induction p with
  | pure a => exact hQ a
  | call e k ih => exact fun h => ⟨h.1, fun r hr => ih r (h.2 r hr)⟩

theorem Heeds.prog_bind {p : Prog E R α} {f : α → Prog E R β} {Q : β → Prop}
    (h : Heeds C P p fun a => Heeds C P (f a) Q) : Heeds C P (p.bind f) Q := by
  induction p with
  | pure a => exact h
  | call e k ih => exact ⟨h.1, fun r hr => ih r (h.2 r hr)⟩

variable {Q : Except ε α → Prop}

theorem Heeds.pure {a : α} (h : Q (.ok a)) : Heeds C P (Pure.pure a : Proc E R ε α) Q := h

theorem Heeds.throw {e : ε} (h : Q (.error e)) : Heeds C P (throw e : Proc E R ε α) Q := h

theorem Heeds.lift {x : Except ε α} (h : Q x) : Heeds C P (Proc.lift x : Proc E R ε α) Q := h

theorem Heeds.perform {e : E} {Q : Except ε (R e) → Prop} (hP : P e) (h : ∀ r, C e r → Q (.ok r)) :
    Heeds C P (Proc.perform e : Proc E R ε (R e)) Q := ⟨hP, h⟩

/-- The first part's result, if it has one, satisfies `Q'`. -/
theorem Heeds.bind {x : Proc E R ε α} {f : α → Proc E R ε β} {Q : Except ε β → Prop}
    (Q' : α → Prop) (hx : Heeds C P x fun r => match r with
      | .ok a => Q' a
      | .error e => Q (.error e))
    (hf : ∀ a, Q' a → Heeds C P (f a) Q) : Heeds C P (x >>= f : Proc E R ε β) Q := by
  refine Heeds.prog_bind (Heeds.mono ?_ hx)
  rintro (e | a) h
  · exact h
  · exact hf a h

/-- A sequence of which nothing is asked but its calls. -/
theorem Heeds.seq {x : Proc E R ε α} {f : α → Proc E R ε β} (hx : Heeds C P x fun _ => True)
    (hf : ∀ a, Heeds C P (f a) fun _ => True) : Heeds C P (x >>= f : Proc E R ε β) fun _ => True := by
  refine Heeds.prog_bind (Heeds.mono ?_ hx)
  rintro (e | a) -
  · trivial
  · exact hf a

/-- A computation without calls, and what follows it. -/
theorem Heeds.lift_bind {x : Except ε α} {f : α → Proc E R ε β} {Q : Except ε β → Prop}
    (hok : ∀ a, x = .ok a → Heeds C P (f a) Q) (herror : ∀ e, x = .error e → Q (.error e)) :
    Heeds C P (Proc.lift x >>= f : Proc E R ε β) Q := by
  cases x with
  | error e => exact herror e rfl
  | ok a => exact hok a rfl

/-- A call, and what follows its answer. -/
theorem Heeds.perform_bind {e : E} {f : R e → Proc E R ε β} {Q : Except ε β → Prop} (hP : P e)
    (hf : ∀ r, C e r → Heeds C P (f r) Q) : Heeds C P (Proc.perform e >>= f : Proc E R ε β) Q :=
  ⟨hP, hf⟩

theorem Heeds.attempt {x : Proc E R ε α} {Q : Except ε' (Except ε α) → Prop}
    (h : Heeds C P x fun r => Q (.ok r)) :
    Heeds C P (x.attempt : Proc E R ε' (Except ε α)) Q :=
  Heeds.prog_bind h

theorem Heeds.mapError {f : ε → ε'} {x : Proc E R ε α} {Q : Except ε' α → Prop}
    (h : Heeds C P x fun r => Q (r.mapError f)) : Heeds C P (x.mapError f) Q := by
  refine Heeds.prog_bind (Heeds.mono ?_ h)
  rintro (e | a) hr
  · exact hr
  · exact hr

/-- **Frame rule**, for a program that makes only calls of a kind if it is answered well. -/
theorem Heeds.sat {step : Answers W E R} {rely : Sys W E R → Sys W E R → Prop}
    {guar : Guarantee W E R} {t : Nat} {I : Sys W E R → Prop}
    (hrely : ∀ s s', I s → rely s s' → I s') (hstep : ∀ s e r w, step t s e r w → C e r)
    (hcall : ∀ s e r w, P e → I s → step t s e r w →
      guar s e r (s.next t e r w) ∧ I (s.next t e r w)) {Q : α → Prop} :
    ∀ {p : Prog E R α}, Heeds C P p Q → ∀ {s}, I s →
      Sat step rely guar t p (fun a s => Q a ∧ I s) s := by
  intro p
  induction p with
  | pure a => intro hp s hI; exact ⟨hp, hI⟩
  | call e k ih =>
      intro hp s hI s' hs' r w hr
      obtain ⟨hguar, hI'⟩ := hcall s' e r w hp.1 (hrely s s' hI hs') hr
      exact ⟨hguar, ih r (hp.2 r (hstep s' e r w hr)) hI'⟩

end

end Lib
