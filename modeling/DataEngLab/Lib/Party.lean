/-
A thread among others, and what it may remember.

A party is a thread with the rules it works under: how it is answered, what may happen
between its calls, and what it promises of its own.  Two relations between states go with
it.  `rely` is what happens between its calls; calm calls of its own look no different.
`order` is weaker: one state lies before another, whatever the party did in between
(`Party.Does.since`).

What a party has seen may have changed since.  `Between s F s'` is what it can still say
later: at some moment after `s` and before `s'` the fact held.  Such a statement lasts.
-/
import DataEngLab.Lib.Prog

namespace Lib

variable {W E : Type} {R : E → Type}

structure Party (W E : Type) (R : E → Type) where
  thread : Nat
  step : Answers W E R
  rely : Sys W E R → Sys W E R → Prop
  order : Sys W E R → Sys W E R → Prop
  guar : Guarantee W E R
  /-- calls that keep every promise whatever the state -/
  calm : E → Prop
  refl : ∀ s, rely s s
  trans : ∀ {a b c}, rely a b → rely b c → rely a c
  order_trans : ∀ {a b c}, order a b → order b c → order a c
  rely_order : ∀ {a b}, rely a b → order a b
  quiet : ∀ {s e r w}, calm e → step thread s e r w →
    guar s e r (s.next thread e r w) ∧ rely s (s.next thread e r w)
  after : ∀ {s e r w}, step thread s e r w → guar s e r (s.next thread e r w) →
    order s (s.next thread e r w)

variable {X : Party W E R} {α β ε ε' : Type}

namespace Party

/-- The party carries out `p` from `s`, and when it has finished `Q` holds. -/
def Does (X : Party W E R) (p : Prog E R α) (Q : α → Sys W E R → Prop) (s : Sys W E R) : Prop :=
  Sat X.step X.rely X.guar X.thread p Q s

/-- At some moment from `s` to `s'`. -/
def Between (X : Party W E R) (s : Sys W E R) (F : Sys W E R → Prop) (s' : Sys W E R) : Prop :=
  ∃ s₀, X.order s s₀ ∧ F s₀ ∧ X.order s₀ s'

theorem order_refl (s : Sys W E R) : X.order s s := X.rely_order (X.refl s)

section
variable {s s' s'' : Sys W E R} {F F' : Sys W E R → Prop}

theorem Between.later (h : X.Between s F s') (hs : X.order s' s'') : X.Between s F s'' := by
  obtain ⟨s₀, h₀, hF, h₁⟩ := h
  exact ⟨s₀, h₀, hF, X.order_trans h₁ hs⟩

theorem Between.sooner (hs : X.order s s') (h : X.Between s' F s'') : X.Between s F s'' := by
  obtain ⟨s₀, h₀, hF, h₁⟩ := h
  exact ⟨s₀, X.order_trans hs h₀, hF, h₁⟩

theorem Between.mono (hF : ∀ s, F s → F' s) (h : X.Between s F s') : X.Between s F' s' := by
  obtain ⟨s₀, h₀, hf, h₁⟩ := h
  exact ⟨s₀, h₀, hF s₀ hf, h₁⟩

theorem Between.now (h : F s) : X.Between s F s := ⟨s, order_refl s, h, order_refl s⟩

end

variable {s : Sys W E R}

theorem Does.mono {p : Prog E R α} {Q Q' : α → Sys W E R → Prop} (h : X.Does p Q s)
    (hQ : ∀ a s, Q a s → Q' a s) : X.Does p Q' s :=
  Sat.mono hQ h

/-- What comes out comes later. -/
theorem Does.since {p : Prog E R α} {Q : α → Sys W E R → Prop} (h : X.Does p Q s) :
    X.Does p (fun a s' => Q a s' ∧ X.order s s') s := by
  suffices ∀ {s₀}, X.order s₀ s → X.Does p (fun a s' => Q a s' ∧ X.order s₀ s') s from
    this (order_refl s)
  induction p generalizing s with
  | pure a => exact fun hs => ⟨h, hs⟩
  | call e k ih =>
      intro s₀ hs s' hs' r w hstep
      obtain ⟨hguar, hrest⟩ := h s' hs' r w hstep
      exact ⟨hguar, ih r hrest (X.order_trans (X.order_trans hs (X.rely_order hs')) (X.after hstep hguar))⟩

/-- A program that makes only calm calls does nothing that others could not have done. -/
theorem calmly {p : Prog E R α} (h : Only X.calm p) : X.Does p (fun _ s' => X.rely s s') s := by
  refine Only.sat (I := fun s' => X.rely s s') (fun _ _ hs hs' => X.trans hs hs') ?_ h (X.refl s)
  intro s' e r w he hs hstep
  obtain ⟨hguar, hs'⟩ := X.quiet he hstep
  exact ⟨hguar, X.trans hs hs'⟩

/-- What others leave alone, calm calls leave alone. -/
theorem Does.calm {p : Prog E R α} {Q : α → Sys W E R → Prop} (h : X.Does p Q s) (hp : Only X.calm p) :
    X.Does p (fun a s' => Q a s' ∧ X.rely s s') s := by
  refine Sat.mono (fun a s' hs' => hs') (Sat.weaken (fun _ _ _ _ hg => hg.1) (Sat.and h (calmly hp)))

/-- What every result of a program satisfies. -/
theorem Does.ends {p : Prog E R α} {Q : α → Sys W E R → Prop} {P : α → Prop} (h : X.Does p Q s)
    (hp : Ends P p) : X.Does p (fun a s' => Q a s' ∧ P a) s :=
  Sat.ends h hp

/-! ### Rules -/

theorem pure {a : α} {Q : Except ε α → Sys W E R → Prop} (h : Q (.ok a) s) :
    X.Does (Pure.pure a : Proc E R ε α) Q s := h

theorem throw {e : ε} {Q : Except ε α → Sys W E R → Prop} (h : Q (.error e) s) :
    X.Does (MonadExcept.throw e : Proc E R ε α) Q s := h

theorem lift {x : Except ε α} {Q : Except ε α → Sys W E R → Prop} (h : Q x s) :
    X.Does (Proc.lift x : Proc E R ε α) Q s := h

/-- A sequence, by what is known of its first part. -/
theorem bind {x : Proc E R ε α} {f : α → Proc E R ε β} {P : Except ε α → Sys W E R → Prop}
    {Q : Except ε β → Sys W E R → Prop} (hx : X.Does x P s)
    (hf : ∀ a s', X.order s s' → P (.ok a) s' → X.Does (f a) Q s')
    (he : ∀ e s', X.order s s' → P (.error e) s' → Q (.error e) s') :
    X.Does (x >>= f : Proc E R ε β) Q s := by
  refine Sat.bind (Sat.mono ?_ hx.since)
  rintro (e | a) s' ⟨hP, hs⟩
  · exact he e s' hs hP
  · exact hf a s' hs hP

/-- A computation without calls, and what follows it. -/
theorem lift_bind {x : Except ε α} {f : α → Proc E R ε β} {Q : Except ε β → Sys W E R → Prop}
    (hok : ∀ a, x = .ok a → X.Does (f a) Q s) (herror : ∀ e, x = .error e → Q (.error e) s) :
    X.Does (Proc.lift x >>= f : Proc E R ε β) Q s :=
  Sat.lift_bind hok herror

theorem ite {c : Prop} [Decidable c] {x y : Prog E R α} {Q : α → Sys W E R → Prop}
    (hx : c → X.Does x Q s) (hy : ¬ c → X.Does y Q s) : X.Does (if c then x else y) Q s := by
  split
  · exact hx (by assumption)
  · exact hy (by assumption)

theorem handle {x : Proc E R ε α} {handler : ε → Proc E R ε α} {P Q : Except ε α → Sys W E R → Prop}
    (hx : X.Does x P s) (hok : ∀ a s', X.order s s' → P (.ok a) s' → Q (.ok a) s')
    (he : ∀ e s', X.order s s' → P (.error e) s' → X.Does (handler e) Q s') :
    X.Does (tryCatch x handler : Proc E R ε α) Q s := by
  refine Sat.handle (Sat.mono ?_ hx.since)
  rintro (e | a) s' ⟨hP, hs⟩
  · exact he e s' hs hP
  · exact hok a s' hs hP

theorem attempt {x : Proc E R ε α} {Q : Except ε' (Except ε α) → Sys W E R → Prop}
    (h : X.Does x (fun r s => Q (.ok r) s) s) :
    X.Does (x.attempt : Proc E R ε' (Except ε α)) Q s :=
  Sat.attempt h

theorem mapError {f : ε → ε'} {x : Proc E R ε α} {Q : Except ε' α → Sys W E R → Prop}
    (h : X.Does x (fun r s => Q (r.mapError f) s) s) :
    X.Does (x.mapError f : Proc E R ε' α) Q s :=
  Sat.mapError h

/-- A call: the state in which it is answered, and the state after it. -/
def Answered (X : Party W E R) (s : Sys W E R) (e : E) (a : R e) (s' : Sys W E R) : Prop :=
  ∃ s₀ w, X.rely s s₀ ∧ X.step X.thread s₀ e a w ∧ s' = s₀.next X.thread e a w ∧
    X.guar s₀ e a s' ∧ X.order s₀ s'

/-- A call that keeps its promise whenever it is made. -/
def Keeps (X : Party W E R) (s : Sys W E R) (e : E) : Prop :=
  ∀ s' r w, X.rely s s' → X.step X.thread s' e r w → X.guar s' e r (s'.next X.thread e r w)

theorem keeps_calm {e : E} (he : X.calm e) : X.Keeps s e := fun _ _ _ _ hstep => (X.quiet he hstep).1

theorem perform {e : E} (hguar : X.Keeps s e) :
    X.Does (Proc.perform e : Proc E R ε (R e))
      (fun r s' => ∃ a, r = .ok a ∧ X.Answered s e a s') s := by
  refine Sat.perform fun s' hs' r w hstep => ?_
  have hg := hguar s' r w hs' hstep
  exact ⟨hg, r, rfl, s', w, hs', hstep, rfl, hg, X.after hstep hg⟩

/-- A call, and what follows its answer. -/
theorem perform_bind {e : E} {f : R e → Proc E R ε β} {Q : Except ε β → Sys W E R → Prop}
    (hguar : X.Keeps s e)
    (hf : ∀ a s', X.order s s' → X.Answered s e a s' → X.Does (f a) Q s') :
    X.Does (Proc.perform e >>= f : Proc E R ε β) Q s := by
  refine bind (perform hguar) (fun a s' hs ha => ?_) fun e s' _ ha => ?_
  · obtain ⟨a', heq, hans⟩ := ha
    cases heq
    exact hf _ s' hs hans
  · obtain ⟨a', heq, -⟩ := ha
    cases heq

/-- A calm call, and what follows its answer. -/
theorem calm_bind {e : E} {f : R e → Proc E R ε β} {Q : Except ε β → Sys W E R → Prop} (he : X.calm e)
    (hf : ∀ a s', X.rely s s' → X.Answered s e a s' → X.Does (f a) Q s') :
    X.Does (Proc.perform e >>= f : Proc E R ε β) Q s := by
  refine perform_bind (keeps_calm he) fun a s' _ hans => ?_
  have hs : X.rely s s' := by
    obtain ⟨s₀, w, hs₀, hstep, rfl, -, -⟩ := hans
    exact X.trans hs₀ (X.quiet he hstep).2
  exact hf a s' hs hans

end Party

end Lib
