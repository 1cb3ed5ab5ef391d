/-
Playing a run.

A property of all runs is proved; that it is not empty is shown by one run, and so is the
falsity of a statement about all of them.  `play` carries out a script: it starts threads,
lets them run up to a call, or lets them make one call, with answers that a function
gives.  When every answer the function gives is one the machine allows, what has been
played is a run of the machine.

The function works on a scene, which may hold more than the world of the machine: the
readings that are still to come, for one.
-/
import DataEngLab.Lib.Pool

namespace Lib

/-- A line of a script. -/
inductive Move (Q E : Type) where
  | start (t : Nat) (q : Q)
  /-- calls of a thread, up to one that satisfies `stop` or to the thread's end -/
  | upTo (t : Nat) (stop : E → Bool)
  | one (t : Nat)

/-- What gives the answers, and the world in a scene. -/
structure Cast (m : Machine Q W E R A) (S : Type) where
  world : S → W
  answer : Nat → Q → Sys W E R → S → (e : E) → Option (R e × S)
  allowed : ∀ t q x s e r s', x.world = world s → answer t q x s e = some (r, s') →
    m.step q t x e r (world s')

variable {Q W E A S : Type} {R : E → Type} {m : Machine Q W E R A}

/-- A scene and the pool that belongs to it. -/
structure Stage (Q W E : Type) (R : E → Type) (A S : Type) where
  scene : S
  pool : Pool Q W E R A

namespace Cast

variable (c : Cast m S)

/-- One call of thread `t`. -/
def call (t : Nat) (q : Q) (e : E) (k : R e → Prog E R A) (x : Stage Q W E R A S) :
    Option (R e × Stage Q W E R A S) :=
  (c.answer t q x.pool.sys x.scene e).map fun a =>
    (a.1, ⟨a.2, x.pool.set (x.pool.sys.next t e a.1 (c.world a.2)) t ⟨q, k a.1⟩⟩)

/-- The calls of what is left of thread `t`. -/
def calls (stop : E → Bool) (t : Nat) (q : Q) : Prog E R A → Stage Q W E R A S →
    Option (Stage Q W E R A S)
  | .pure _, x => some x
  | .call e k, x =>
      if stop e then some x
      else (c.call t q e k x).bind fun a => calls stop t q (k a.1) a.2

def move (x : Stage Q W E R A S) : Move Q E → Option (Stage Q W E R A S)
  | .start t q =>
      match x.pool.threads t with
      | none => some ⟨x.scene, x.pool.set x.pool.sys t ⟨q, m.code q⟩⟩
      | some _ => none
  | .upTo t stop =>
      match x.pool.threads t with
      | some ⟨q, rest⟩ => c.calls stop t q rest x
      | none => none
  | .one t =>
      match x.pool.threads t with
      | some ⟨q, .call e k⟩ => (c.call t q e k x).map Prod.snd
      | _ => none

def play : List (Move Q E) → Stage Q W E R A S → Option (Stage Q W E R A S)
  | [], x => some x
  | l :: ls, x => (c.move x l).bind (play ls)

/-- The stage before anything has happened. -/
def opening (s : S) : Stage Q W E R A S := ⟨s, ⟨⟨c.world s, []⟩, fun _ => none⟩⟩

/-- The scene is a scene of the pool. -/
def Fits (x : Stage Q W E R A S) : Prop := x.pool.sys.world = c.world x.scene

theorem opening_fits (s : S) : c.Fits (c.opening s) := rfl

variable {c} {x y : Stage Q W E R A S}

theorem call_acts {t : Nat} {q : Q} {e : E} {k : R e → Prog E R A} {r : R e} (hx : c.Fits x)
    (ht : x.pool.threads t = some ⟨q, .call e k⟩) (h : c.call t q e k x = some (r, y)) :
    Acts m t q e r x.pool y.pool ∧ c.Fits y ∧ y.pool.threads t = some ⟨q, k r⟩ := by
  simp only [call, Option.map_eq_some_iff, Prod.mk.injEq] at h
  obtain ⟨⟨r', s'⟩, ha, rfl, rfl⟩ := h
  exact ⟨.mk k _ ht (c.allowed t q _ x.scene e r' s' hx ha), rfl, by simp⟩

theorem calls_steps {stop : E → Bool} {t : Nat} {q : Q} {rest : Prog E R A} :
    ∀ {x : Stage Q W E R A S}, c.Fits x → x.pool.threads t = some ⟨q, rest⟩ →
      c.calls stop t q rest x = some y → Steps m x.pool y.pool ∧ c.Fits y := by
  induction rest with
  | pure a =>
      intro x hx _ h
      simp only [calls, Option.some.injEq] at h
      subst h
      exact ⟨.refl, hx⟩
  | call e k ih =>
      intro x hx ht h
      simp only [calls] at h
      split at h
      · simp only [Option.some.injEq] at h
        subst h
        exact ⟨.refl, hx⟩
      · obtain ⟨⟨r, z⟩, hz, hrest⟩ := Option.bind_eq_some_iff.mp h
        obtain ⟨hacts, hfits, htz⟩ := call_acts hx ht hz
        obtain ⟨hsteps, hy⟩ := ih r hfits htz hrest
        exact ⟨.head hacts.step hsteps, hy⟩

theorem move_steps {l : Move Q E} (hx : c.Fits x) (h : c.move x l = some y) :
    Steps m x.pool y.pool ∧ c.Fits y := by
  cases l with
  | start t q =>
      simp only [move] at h
      split at h
      · rename_i hnone
        simp only [Option.some.injEq] at h
        subst h
        exact ⟨.single (.start t q hnone), hx⟩
      · cases h
  | upTo t stop =>
      simp only [move] at h
      split at h
      · rename_i q rest ht
        exact calls_steps hx ht h
      · cases h
  | one t =>
      simp only [move] at h
      split at h
      · rename_i q e k ht
        obtain ⟨⟨r, z⟩, hz, rfl⟩ := Option.map_eq_some_iff.mp h
        obtain ⟨hacts, hfits, -⟩ := call_acts hx ht hz
        exact ⟨.single hacts.step, hfits⟩
      · cases h

theorem play_steps {ls : List (Move Q E)} : ∀ {x : Stage Q W E R A S}, c.Fits x →
    c.play ls x = some y → Steps m x.pool y.pool ∧ c.Fits y := by
  induction ls with
  | nil =>
      intro x hx h
      simp only [play, Option.some.injEq] at h
      subst h
      exact ⟨.refl, hx⟩
  | cons l ls ih =>
      intro x hx h
      obtain ⟨z, hz, hrest⟩ := Option.bind_eq_some_iff.mp h
      obtain ⟨hsteps, hfits⟩ := move_steps hx hz
      obtain ⟨hsteps', hy⟩ := ih hfits hrest
      exact ⟨hsteps.trans hsteps', hy⟩

/-- **What has been played is a run.** -/
theorem play_reachable {init : W → Prop} {s : S} {ls : List (Move Q E)} (hs : init (c.world s))
    (h : c.play ls (c.opening s) = some y) : Reachable m init y.pool :=
  Reachable.steps (.init hs) (play_steps (c.opening_fits s) h).1

/-! ### Who takes part -/

/-- Every thread serves a request of this kind. -/
def Serving (P : Nat → Q → Prop) (x : Stage Q W E R A S) : Prop :=
  ∀ t q rest, x.pool.threads t = some ⟨q, rest⟩ → P t q

theorem Serving.set {P : Nat → Q → Prop} (h : Serving P x) {t : Nat} {q : Q} (hq : P t q) (s : S)
    (s' : Sys W E R) (rest : Prog E R A) : Serving P ⟨s, x.pool.set s' t ⟨q, rest⟩⟩ := by
  intro u q' rest' hu
  by_cases hut : u = t
  · subst hut
    simp only [Pool.set_threads_self, Option.some.injEq, Thread.mk.injEq] at hu
    rw [← hu.1]
    exact hq
  · have hold : (x.pool.set s' t ⟨q, rest⟩).threads u = some ⟨q', rest'⟩ := hu
    rw [Pool.set_threads_ne _ _ hut] at hold
    exact h u q' rest' hold

theorem call_serving {P : Nat → Q → Prop} {t : Nat} {q : Q} {e : E} {k : R e → Prog E R A} {r : R e}
    (hx : Serving P x) (hq : P t q) (h : c.call t q e k x = some (r, y)) : Serving P y := by
  simp only [call, Option.map_eq_some_iff, Prod.mk.injEq] at h
  obtain ⟨⟨r', s'⟩, -, -, rfl⟩ := h
  exact hx.set hq _ _ _

theorem calls_serving {P : Nat → Q → Prop} {stop : E → Bool} {t : Nat} {q : Q} (hq : P t q)
    {rest : Prog E R A} : ∀ {x : Stage Q W E R A S}, Serving P x → c.calls stop t q rest x = some y →
      Serving P y := by
  induction rest with
  | pure a =>
      intro x hx h
      cases h
      exact hx
  | call e k ih =>
      intro x hx h
      simp only [calls] at h
      split at h
      · cases h
        exact hx
      · obtain ⟨⟨r, z⟩, hz, hrest⟩ := Option.bind_eq_some_iff.mp h
        exact ih r (call_serving hx hq hz) hrest

/-- A script brings nobody in but those it starts. -/
theorem play_serving {P : Nat → Q → Prop} {ls : List (Move Q E)} (hls : ∀ t q, .start t q ∈ ls → P t q) :
    ∀ {x : Stage Q W E R A S}, Serving P x → c.play ls x = some y → Serving P y := by
  induction ls with
  | nil =>
      intro x hx h
      cases h
      exact hx
  | cons l ls ih =>
      intro x hx h
      obtain ⟨z, hz, hrest⟩ := Option.bind_eq_some_iff.mp h
      refine ih (fun t q hm => hls t q (List.mem_cons_of_mem l hm)) ?_ hrest
      cases l with
      | start t q =>
          simp only [move] at hz
          split at hz
          · cases hz
            exact hx.set (hls t q List.mem_cons_self) _ _ _
          · cases hz
      | upTo t stop =>
          simp only [move] at hz
          split at hz
          · rename_i q rest ht
            exact calls_serving (hx t q rest ht) hx hz
          · cases hz
      | one t =>
          simp only [move] at hz
          split at hz
          · rename_i q e k ht
            obtain ⟨⟨r, v⟩, hv, rfl⟩ := Option.map_eq_some_iff.mp hz
            exact call_serving hx (hx t q _ ht) hv
          · cases hz

theorem opening_serving {P : Nat → Q → Prop} (s : S) : Serving P (c.opening s) :=
  fun _ _ _ h => nomatch h

/-! ### Results -/

/-- The request and the result of a thread that has finished. -/
def resultOf (x : Stage Q W E R A S) (t : Nat) : Option (Q × A) :=
  match x.pool.threads t with
  | some ⟨q, .pure a⟩ => some (q, a)
  | _ => none

theorem resultOf_eq_some {t : Nat} {q : Q} {a : A} (h : resultOf x t = some (q, a)) :
    x.pool.threads t = some ⟨q, .pure a⟩ := by
  unfold resultOf at h
  split at h
  · rename_i hth
    simp only [Option.some.injEq, Prod.mk.injEq] at h
    rw [hth, h.1, h.2]
  · cases h

/-- A thread that ends with the one call it makes. -/
theorem one_finishes {t : Nat} {q : Q} {a : A} (hx : c.Fits x) (h : c.move x (.one t) = some y)
    (hr : resultOf y t = some (q, a)) : Finishes m t q a x.pool y.pool := by
  simp only [move] at h
  split at h
  · rename_i q' e k ht
    obtain ⟨⟨r, z⟩, hz, rfl⟩ := Option.map_eq_some_iff.mp h
    obtain ⟨hacts, -, htz⟩ := call_acts hx ht hz
    have hrest := resultOf_eq_some hr
    have hq : q' = q := by
      rw [htz] at hrest
      simp only [Option.some.injEq, Thread.mk.injEq] at hrest
      exact hrest.1
    subst hq
    exact ⟨⟨e, r, hacts⟩, hrest⟩
  · cases h

/-- The cast of a machine that answers under a condition. -/
def when (c : Cast m S) (C : Nat → Q → Sys W E R → (e : E) → R e → Prop)
    [∀ t q x e r, Decidable (C t q x e r)] : Cast (m.when C) S where
  world := c.world
  answer t q x s e := (c.answer t q x s e).filter fun a => C t q x e a.1
  allowed t q x s e r s' hx h := by
    obtain ⟨ha, hC⟩ := Option.filter_eq_some_iff.mp h
    exact ⟨c.allowed t q x s e r s' hx ha, by simpa using hC⟩

end Cast

end Lib
