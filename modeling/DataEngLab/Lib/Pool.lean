/-
Many programs at once, and one after another.

A pool is a shared state and the threads that work on it.  A step starts a thread on a
request, lets a thread make its next call, or lets the surroundings drift; any order of
steps is a run.  `Reachable.sound` is the soundness of the rules of assertion: when every
request's program satisfies its assertion under what the others promise, then every call
made in any run keeps its promise, and every thread that finishes has reached its
postcondition at the moment of its last call.

`SeqReach` is the other extreme: requests are served one at a time, and each may be cut
off at any point, as when the process is stopped.
-/
import DataEngLab.Lib.Prog
import Mathlib.Logic.Relation

namespace Lib

/-- What is asked for, how it is served, and how the surroundings answer and change. -/
structure Machine (Q W E : Type) (R : E → Type) (A : Type) where
  code : Q → Prog E R A
  step : Q → Answers W E R
  drift : W → W → Prop

/-- The machine, as far as its calls are answered as `C` says. -/
def Machine.when {Q W E : Type} {R : E → Type} {A : Type} (m : Machine Q W E R A)
    (C : Nat → Q → Sys W E R → (e : E) → R e → Prop) : Machine Q W E R A :=
  { m with step := fun q t s e r w => m.step q t s e r w ∧ C t q s e r }

/-- A request, and what is left of the program that serves it. -/
structure Thread (Q E : Type) (R : E → Type) (A : Type) where
  request : Q
  rest : Prog E R A

structure Pool (Q W E : Type) (R : E → Type) (A : Type) where
  sys : Sys W E R
  threads : Nat → Option (Thread Q E R A)

variable {Q W E A : Type} {R : E → Type}

/-- The state with its world replaced. -/
def Sys.withWorld (s : Sys W E R) (w : W) : Sys W E R := ⟨w, s.log⟩

@[simp] theorem Sys.withWorld_world (s : Sys W E R) (w : W) : (s.withWorld w).world = w := rfl

@[simp] theorem Sys.withWorld_log (s : Sys W E R) (w : W) : (s.withWorld w).log = s.log := rfl

@[simp] theorem Sys.withWorld_history (s : Sys W E R) (w : W) (t : Nat) :
    (s.withWorld w).history t = s.history t := rfl

/-- Threads `u` other than `t` unchanged. -/
def Pool.set (p : Pool Q W E R A) (s : Sys W E R) (t : Nat) (th : Thread Q E R A) :
    Pool Q W E R A :=
  ⟨s, fun u => if u = t then some th else p.threads u⟩

@[simp] theorem Pool.set_sys (p : Pool Q W E R A) (s : Sys W E R) (t : Nat) (th : Thread Q E R A) :
    (p.set s t th).sys = s := rfl

@[simp] theorem Pool.set_threads_self (p : Pool Q W E R A) (s : Sys W E R) (t : Nat)
    (th : Thread Q E R A) : (p.set s t th).threads t = some th := by simp [Pool.set]

theorem Pool.set_threads_ne (p : Pool Q W E R A) (s : Sys W E R) {t u : Nat} (h : u ≠ t)
    (th : Thread Q E R A) : (p.set s t th).threads u = p.threads u := by simp [Pool.set, h]

inductive PoolStep (m : Machine Q W E R A) : Pool Q W E R A → Pool Q W E R A → Prop where
  | start {p : Pool Q W E R A} (t : Nat) (q : Q) (h : p.threads t = none) :
      PoolStep m p (p.set p.sys t ⟨q, m.code q⟩)
  | act {p : Pool Q W E R A} (t : Nat) (q : Q) (e : E) (k : R e → Prog E R A) (r : R e) (w : W)
      (h : p.threads t = some ⟨q, .call e k⟩) (hstep : m.step q t p.sys e r w) :
      PoolStep m p (p.set (p.sys.next t e r w) t ⟨q, k r⟩)
  | drift {p : Pool Q W E R A} (w : W) (h : m.drift p.sys.world w) :
      PoolStep m p ⟨p.sys.withWorld w, p.threads⟩

/-- The pools that can be reached from a world without threads. -/
inductive Reachable (m : Machine Q W E R A) (init : W → Prop) : Pool Q W E R A → Prop where
  | init {w : W} (h : init w) : Reachable m init ⟨⟨w, []⟩, fun _ => none⟩
  | step {p p' : Pool Q W E R A} (h : Reachable m init p) (hstep : PoolStep m p p') :
      Reachable m init p'

/-- What the threads promise one another, and that the promises fit together. -/
structure Protocol (m : Machine Q W E R A) where
  inv : Sys W E R → Prop
  rely : Nat → Sys W E R → Sys W E R → Prop
  guar : Nat → Q → Guarantee W E R
  post : Nat → Q → A → Sys W E R → Prop
  trans : ∀ {t a b c}, rely t a b → rely t b c → rely t a c
  drift_rely : ∀ t s w, inv s → m.drift s.world w → rely t s (s.withWorld w)
  drift_inv : ∀ s w, inv s → m.drift s.world w → inv (s.withWorld w)
  guar_rely : ∀ t u q s e r w, u ≠ t → inv s → guar t q s e r (s.next t e r w) →
    rely u s (s.next t e r w)
  guar_inv : ∀ t q s e r w, inv s → guar t q s e r (s.next t e r w) → inv (s.next t e r w)
  sat : ∀ t q s, inv s → s.history t = [] →
    Sat (m.step q) (rely t) (guar t q) t (m.code q) (post t q) s

/-- What holds of every reachable pool. -/
structure Pool.Sound (m : Machine Q W E R A) (P : Protocol m) (p : Pool Q W E R A) : Prop where
  inv : P.inv p.sys
  fresh : ∀ t, p.threads t = none → p.sys.history t = []
  sat : ∀ t q e k, p.threads t = some ⟨q, .call e k⟩ →
    Sat (m.step q) (P.rely t) (P.guar t q) t (.call e k) (P.post t q) p.sys

variable {m : Machine Q W E R A} {P : Protocol m} {p p' : Pool Q W E R A}

/-- One call of a thread of a sound pool. -/
theorem Pool.Sound.act (h : p.Sound m P) {t : Nat} {q : Q} {e : E} {k : R e → Prog E R A}
    {r : R e} {w : W} (ht : p.threads t = some ⟨q, .call e k⟩) (hs : m.step q t p.sys e r w)
    (hrefl : P.rely t p.sys p.sys) :
    P.guar t q p.sys e r (p.sys.next t e r w) ∧
      Sat (m.step q) (P.rely t) (P.guar t q) t (k r) (P.post t q) (p.sys.next t e r w) :=
  h.sat t q e k ht p.sys hrefl r w hs

theorem Pool.Sound.step (hrefl : ∀ t s, P.rely t s s) (h : p.Sound m P) (hs : PoolStep m p p') :
    p'.Sound m P := by
  cases hs with
  | start t q hnone =>
      refine ⟨h.inv, ?_, ?_⟩
      · intro u hu
        by_cases hut : u = t
        · subst hut; simp at hu
        · rw [Pool.set_threads_ne _ _ hut] at hu
          exact h.fresh u hu
      · intro u q' e k hu
        by_cases hut : u = t
        · subst hut
          simp only [Pool.set_threads_self, Option.some.injEq, Thread.mk.injEq] at hu
          obtain ⟨rfl, hcode⟩ := hu
          rw [← hcode]
          exact P.sat u q p.sys h.inv (h.fresh u hnone)
        · rw [Pool.set_threads_ne _ _ hut] at hu
          exact h.sat u q' e k hu
  | act t q e k r w ht hstep =>
      obtain ⟨hguar, hrest⟩ := h.act ht hstep (hrefl t p.sys)
      refine ⟨P.guar_inv t q p.sys e r w h.inv hguar, ?_, ?_⟩
      · intro u hu
        by_cases hut : u = t
        · subst hut; simp at hu
        · rw [Pool.set_threads_ne _ _ hut] at hu
          rw [Pool.set_sys, Sys.next_history_ne _ hut]
          exact h.fresh u hu
      · intro u q' e' k' hu
        by_cases hut : u = t
        · subst hut
          simp only [Pool.set_threads_self, Option.some.injEq, Thread.mk.injEq] at hu
          obtain ⟨rfl, hkr⟩ := hu
          rw [← hkr]
          exact hrest
        · rw [Pool.set_threads_ne _ _ hut] at hu
          exact (h.sat u q' e' k' hu).stable P.trans (P.guar_rely t u q p.sys e r w hut h.inv hguar)
  | drift w hd =>
      refine ⟨P.drift_inv p.sys w h.inv hd, h.fresh, fun u q e k hu => ?_⟩
      exact (h.sat u q e k hu).stable P.trans (P.drift_rely u p.sys w h.inv hd)

/-- **Soundness.**  Every reachable pool keeps the promises. -/
theorem Reachable.sound {init : W → Prop} (hrefl : ∀ t s, P.rely t s s)
    (hinit : ∀ w, init w → P.inv ⟨w, []⟩) (h : Reachable m init p) : p.Sound m P := by
  induction h with
  | init hw => exact ⟨hinit _ hw, fun _ _ => rfl, fun _ _ _ _ h => nomatch h⟩
  | step _ hs ih => exact ih.step hrefl hs

/-! ### Calls and results in a run -/

/-- Any number of steps. -/
abbrev Steps (m : Machine Q W E R A) : Pool Q W E R A → Pool Q W E R A → Prop :=
  Relation.ReflTransGen (PoolStep m)

theorem Reachable.steps {init : W → Prop} (h : Reachable m init p) (hs : Steps m p p') :
    Reachable m init p' := by
  induction hs with
  | refl => exact h
  | tail _ hstep ih => exact .step ih hstep

/-- Thread `t`, which serves `q`, makes the call `e` and is answered `r`. -/
inductive Acts (m : Machine Q W E R A) (t : Nat) (q : Q) (e : E) (r : R e) :
    Pool Q W E R A → Pool Q W E R A → Prop where
  | mk {p : Pool Q W E R A} (k : R e → Prog E R A) (w : W)
      (h : p.threads t = some ⟨q, .call e k⟩) (hstep : m.step q t p.sys e r w) :
      Acts m t q e r p (p.set (p.sys.next t e r w) t ⟨q, k r⟩)

theorem Acts.step {t : Nat} {q : Q} {e : E} {r : R e} (h : Acts m t q e r p p') :
    PoolStep m p p' := by
  cases h with
  | mk k w ht hstep => exact .act t q e k r w ht hstep

/-- What a step is: a call, or something that no thread does. -/
theorem PoolStep.cases_acts (h : PoolStep m p p') :
    (∃ t q e r, Acts m t q e r p p') ∨ p'.sys = p.sys ∨
      ∃ w, m.drift p.sys.world w ∧ p'.sys = p.sys.withWorld w := by
  cases h with
  | start t q hnone => exact .inr (.inl rfl)
  | act t q e k r w ht hstep => exact .inl ⟨t, q, e, r, .mk k w ht hstep⟩
  | drift w hd => exact .inr (.inr ⟨w, hd, rfl⟩)

/-- A call of a reachable pool keeps its promise. -/
theorem Pool.Sound.acts (hrefl : ∀ t s, P.rely t s s) (h : p.Sound m P) {t : Nat} {q : Q} {e : E}
    {r : R e} (ha : Acts m t q e r p p') : P.guar t q p.sys e r p'.sys := by
  cases ha with
  | mk k w ht hstep => exact (h.act ht hstep (hrefl t p.sys)).1

/-- A thread serves the request it was started on. -/
theorem PoolStep.request {t : Nat} {q : Q} {rest : Prog E R A} (h : PoolStep m p p')
    (ht : p.threads t = some ⟨q, rest⟩) : ∃ rest', p'.threads t = some ⟨q, rest'⟩ := by
  cases h with
  | start u q' hnone =>
      have hne : t ≠ u := by rintro rfl; rw [hnone] at ht; cases ht
      exact ⟨rest, by rw [Pool.set_threads_ne _ _ hne]; exact ht⟩
  | act u q' e k r w hu hstep =>
      by_cases hut : t = u
      · subst hut
        rw [hu] at ht
        cases ht
        exact ⟨k r, by rw [Pool.set_threads_self]⟩
      · exact ⟨rest, by rw [Pool.set_threads_ne _ _ hut]; exact ht⟩
  | drift w hd => exact ⟨rest, ht⟩

/-- What calls leave behind, each thing with the thread that left it: if the promise of a call says
`C` of what is new and of the request, then `C` holds of all that has been left in a run. -/
theorem Reachable.attributed {X : Type} {init : W → Prop} {L : Sys W E R → Nat → X → Prop}
    {C : Q → X → Prop} (hrefl : ∀ t s, P.rely t s s) (hinit : ∀ w, init w → P.inv ⟨w, []⟩)
    (hnone : ∀ w t x, init w → ¬ L ⟨w, []⟩ t x)
    (hdrift : ∀ s w t x, m.drift s.world w → L (s.withWorld w) t x → L s t x)
    (hcall : ∀ t q s e r w, P.inv s → P.guar t q s e r (s.next t e r w) → ∀ u x,
      L (s.next t e r w) u x → L s u x ∨ u = t ∧ C q x) (h : Reachable m init p) :
    ∀ t x, L p.sys t x → ∃ q rest, p.threads t = some ⟨q, rest⟩ ∧ C q x := by
  induction h with
  | init hw => exact fun t x hx => absurd hx (hnone _ t x hw)
  | @step p p' hp hstep ih =>
      have hsound := hp.sound hrefl hinit
      intro u x hx
      have hold : L p.sys u x → ∃ q rest, p'.threads u = some ⟨q, rest⟩ ∧ C q x := by
        intro hleft
        obtain ⟨q, rest, hu, hC⟩ := ih u x hleft
        obtain ⟨rest', hu'⟩ := hstep.request hu
        exact ⟨q, rest', hu', hC⟩
      cases hstep with
      | start t q hnone => exact hold hx
      | act t q e k r w ht hs =>
          rcases hcall t q p.sys e r w hsound.inv (hsound.act ht hs (hrefl t p.sys)).1 u x hx with
            hleft | ⟨rfl, hC⟩
          · exact hold hleft
          · exact ⟨q, k r, by rw [Pool.set_threads_self], hC⟩
      | drift w hd => exact hold (hdrift p.sys w u x hd hx)

/-- Thread `t`, which serves `q`, makes its last call and is left with the result `a`. -/
def Finishes (m : Machine Q W E R A) (t : Nat) (q : Q) (a : A) (p p' : Pool Q W E R A) : Prop :=
  (∃ e r, Acts m t q e r p p') ∧ p'.threads t = some ⟨q, .pure a⟩

theorem Finishes.step {t : Nat} {q : Q} {a : A} (h : Finishes m t q a p p') : PoolStep m p p' := by
  obtain ⟨⟨e, r, ha⟩, -⟩ := h
  exact ha.step

/-- A thread that finishes has reached its postcondition. -/
theorem Pool.Sound.finishes (hrefl : ∀ t s, P.rely t s s) (h : p.Sound m P) {t : Nat} {q : Q} {a : A}
    (hf : Finishes m t q a p p') : P.post t q a p'.sys := by
  obtain ⟨⟨e, r, ha⟩, hrest⟩ := hf
  cases ha with
  | mk k w ht hstep =>
      have hsat := (h.act ht hstep (hrefl t p.sys)).2
      simp only [Pool.set_threads_self, Option.some.injEq, Thread.mk.injEq, true_and] at hrest
      rw [hrest] at hsat
      exact hsat

theorem PoolStep.finished {t : Nat} {q : Q} {a : A} (h : PoolStep m p p')
    (ht : p.threads t = some ⟨q, .pure a⟩) : p'.threads t = some ⟨q, .pure a⟩ := by
  cases h with
  | start u q' hnone =>
      have hne : t ≠ u := by rintro rfl; rw [hnone] at ht; cases ht
      rw [Pool.set_threads_ne _ _ hne]
      exact ht
  | act u q' e k r w hu hstep =>
      have hne : t ≠ u := by rintro rfl; rw [hu] at ht; cases ht
      rw [Pool.set_threads_ne _ _ hne]
      exact ht
  | drift w hd => exact ht

/-- A thread that has finished makes no more calls. -/
theorem Steps.finished {t : Nat} {q : Q} {a : A} (h : Steps m p p')
    (ht : p.threads t = some ⟨q, .pure a⟩) : p'.threads t = some ⟨q, .pure a⟩ := by
  induction h with
  | refl => exact ht
  | tail _ hstep ih => exact hstep.finished ih

/-- A postcondition that lasts holds from the moment a thread has finished. -/
theorem Reachable.post {init : W → Prop} (hrefl : ∀ t s, P.rely t s s)
    (hinit : ∀ w, init w → P.inv ⟨w, []⟩)
    (hlasts : ∀ t q a s s', P.rely t s s' → P.post t q a s → P.post t q a s')
    (h : Reachable m init p) : ∀ {t q a}, p.threads t = some ⟨q, .pure a⟩ → P.post t q a p.sys := by
  induction h with
  | init hw => exact fun ht => nomatch ht
  | @step p p' hp hstep ih =>
      intro t q a ht
      have hsound := hp.sound hrefl hinit
      cases hstep with
      | start u q' hnone =>
          by_cases hut : t = u
          · subst hut
            simp only [Pool.set_threads_self, Option.some.injEq, Thread.mk.injEq] at ht
            obtain ⟨rfl, hcode⟩ := ht
            have hsat := P.sat t q' p.sys hsound.inv (hsound.fresh t hnone)
            rw [hcode] at hsat
            exact hsat
          · rw [Pool.set_threads_ne _ _ hut] at ht
            exact ih ht
      | act u q' e k r w hu hs =>
          obtain ⟨hguar, hrest⟩ := hsound.act hu hs (hrefl u p.sys)
          by_cases hut : t = u
          · subst hut
            simp only [Pool.set_threads_self, Option.some.injEq, Thread.mk.injEq] at ht
            obtain ⟨rfl, hk⟩ := ht
            rw [hk] at hrest
            exact hrest
          · rw [Pool.set_threads_ne _ _ hut] at ht
            exact hlasts _ _ _ _ _ (P.guar_rely u t q' p.sys e r w hut hsound.inv hguar) (ih ht)
      | drift w hd => exact hlasts _ _ _ _ _ (P.drift_rely t p.sys w hsound.inv hd) (ih ht)

theorem PoolStep.log_subset (h : PoolStep m p p') : p.sys.log ⊆ p'.sys.log := by
  cases h with
  | start t q hnone => exact List.Subset.refl _
  | act t q e k r w ht hstep => exact List.subset_cons_self _ _
  | drift w hd => exact List.Subset.refl _

theorem Steps.log_subset (h : Steps m p p') : p.sys.log ⊆ p'.sys.log := by
  induction h with
  | refl => exact List.Subset.refl _
  | tail _ hstep ih => exact List.Subset.trans ih hstep.log_subset

theorem Sys.mem_history {s : Sys W E R} {t : Nat} {x : Event E R} :
    x ∈ s.history t ↔ (t, x) ∈ s.log := by
  simp only [Sys.history, List.mem_map, List.mem_filter, beq_iff_eq, Prod.exists]
  constructor
  · rintro ⟨u, y, ⟨h, rfl⟩, rfl⟩
    exact h
  · exact fun h => ⟨t, x, ⟨h, rfl⟩, rfl⟩

/-- A run that leaves a set of pools does so in some step. -/
theorem Steps.exists_leaving {I : Pool Q W E R A → Prop} (h : Steps m p p') (hp : I p) (hp' : ¬ I p') :
    ∃ a b, Steps m p a ∧ PoolStep m a b ∧ Steps m b p' ∧ I a ∧ ¬ I b := by
  induction h with
  | refl => exact absurd hp hp'
  | @tail b c hb hstep ih =>
      by_cases hI : I b
      · exact ⟨b, c, hb, hstep, .refl, hI, hp'⟩
      · obtain ⟨x, y, hx, hxy, hy, hIx, hIy⟩ := ih hI
        exact ⟨x, y, hx, hxy, hy.tail hstep, hIx, hIy⟩

/-! ### One request at a time -/

/-- Some calls of a program, made by thread `t`. -/
inductive Exec (m : Machine Q W E R A) (t : Nat) (q : Q) :
    Prog E R A → Sys W E R → Prog E R A → Sys W E R → Prop where
  | refl (p : Prog E R A) (s : Sys W E R) : Exec m t q p s p s
  | act {p : Prog E R A} {s s' : Sys W E R} {e : E} {k : R e → Prog E R A} {r : R e} {w : W}
      (h : Exec m t q p s (.call e k) s') (hstep : m.step q t s' e r w) :
      Exec m t q p s (k r) (s'.next t e r w)
  | drift {p p' : Prog E R A} {s s' : Sys W E R} {w : W} (h : Exec m t q p s p' s')
      (hd : m.drift s'.world w) : Exec m t q p s p' (s'.withWorld w)

/-- The states in which requests served one at a time leave the world.  Request number `n`
is made by thread `n`; it may be cut off after any call, and then, as after its last call,
the next process starts from what `reset` leaves of the world. -/
inductive SeqReach (m : Machine Q W E R A) (init : W → Prop) (reset : W → W) :
    Nat → Sys W E R → Prop where
  | init {w : W} (h : init w) : SeqReach m init reset 0 ⟨w, []⟩
  | request {n : Nat} {s s' : Sys W E R} {rest : Prog E R A} (q : Q)
      (h : SeqReach m init reset n s) (hexec : Exec m n q (m.code q) s rest s') :
      SeqReach m init reset (n + 1) (s'.withWorld (reset s'.world))

/-- An invariant that every call of a program keeps holds wherever the program is cut off. -/
theorem Exec.sat {t : Nat} {q : Q} {rely : Sys W E R → Sys W E R → Prop} {guar : Guarantee W E R}
    {post : A → Sys W E R → Prop} {inv : Sys W E R → Prop} {prog rest : Prog E R A}
    {s s' : Sys W E R} (hrefl : ∀ s, rely s s) (htrans : ∀ {a b c}, rely a b → rely b c → rely a c)
    (hdrift : ∀ s w, inv s → m.drift s.world w → rely s (s.withWorld w) ∧ inv (s.withWorld w))
    (hguar : ∀ s e r w, inv s → guar s e r (s.next t e r w) → inv (s.next t e r w))
    (hinv : inv s) (h : Sat (m.step q) rely guar t prog post s) (hexec : Exec m t q prog s rest s') :
    inv s' ∧ ∀ e k, rest = .call e k → Sat (m.step q) rely guar t rest post s' := by
  induction hexec with
  | refl => exact ⟨hinv, fun _ _ _ => h⟩
  | act _ hstep ih =>
      obtain ⟨hinv', hsat⟩ := ih hinv h
      obtain ⟨hg, hrest⟩ := hsat _ _ rfl _ (hrefl _) _ _ hstep
      exact ⟨hguar _ _ _ _ hinv' hg, fun _ _ _ => hrest⟩
  | drift _ hd ih =>
      obtain ⟨hinv', hsat⟩ := ih hinv h
      obtain ⟨hr, hi⟩ := hdrift _ _ hinv' hd
      refine ⟨hi, fun e k hk => ?_⟩
      have hs := hsat e k hk
      rw [hk] at hs ⊢
      exact hs.stable htrans hr

end Lib
