/-
What the log of a run tells.

The calls that a thread has made are a play of its program (`Reachable.plays`), and they
stand in the log of the run in the same order (`split_history`).  Where the world is a
function of the log, every call of the log was answered in the world of the calls before it
(`Reachable.answered`): so a moment of a run is a part of its log, from the beginning.
-/
import DataEngLab.Lib.Pool
import DataEngLab.Lib.Trace

namespace Lib

variable {Q W E A : Type} {R : E → Type} {m : Machine Q W E R A} {p p' : Pool Q W E R A}

/-! ### Histories -/

/-- A thread that has not been started has called nothing; what another has called, and then
what it goes on with, is a play of its program. -/
theorem Reachable.histories {init : W → Prop} (h : Reachable m init p) :
    (∀ t, p.threads t = none → p.sys.history t = []) ∧
      ∀ {t q rest}, p.threads t = some ⟨q, rest⟩ → ∀ {l a}, Plays rest l a →
        Plays (m.code q) ((p.sys.history t).reverse ++ l) a := by
  induction h with
  | init hw => exact ⟨fun _ _ => rfl, fun ht => nomatch ht⟩
  | @step p p' hp hs ih =>
      obtain ⟨hfresh, hplays⟩ := ih
      cases hs with
      | start u q' hnone =>
          refine ⟨fun t ht => ?_, fun {t q rest} ht {l a} hl => ?_⟩
          · by_cases hut : t = u
            · subst hut; simp at ht
            · rw [Pool.set_threads_ne _ _ hut] at ht
              exact hfresh t ht
          · by_cases hut : t = u
            · subst hut
              simp only [Pool.set_threads_self, Option.some.injEq, Thread.mk.injEq] at ht
              obtain ⟨rfl, rfl⟩ := ht
              simpa [hfresh t hnone] using hl
            · rw [Pool.set_threads_ne _ _ hut] at ht
              exact hplays ht hl
      | act u q' e k r w hu hstep =>
          refine ⟨fun t ht => ?_, fun {t q rest} ht {l a} hl => ?_⟩
          · by_cases hut : t = u
            · subst hut; simp at ht
            · rw [Pool.set_threads_ne _ _ hut] at ht
              rw [Pool.set_sys, Sys.next_history_ne _ hut]
              exact hfresh t ht
          · by_cases hut : t = u
            · subst hut
              simp only [Pool.set_threads_self, Option.some.injEq, Thread.mk.injEq] at ht
              obtain ⟨rfl, rfl⟩ := ht
              have hplay := hplays hu (plays_call.mpr ⟨r, l, rfl, hl⟩)
              simpa using hplay
            · rw [Pool.set_threads_ne _ _ hut] at ht
              rw [Pool.set_sys, Sys.next_history_ne _ hut]
              exact hplays ht hl
      | drift w hd => exact ⟨hfresh, hplays⟩

/-- **What a finished thread has called is a play of its program.** -/
theorem Reachable.plays {init : W → Prop} (h : Reachable m init p) {t : Nat} {q : Q} {a : A}
    (ht : p.threads t = some ⟨q, .pure a⟩) : Plays (m.code q) (p.sys.history t).reverse a := by
  simpa using h.histories.2 ht (plays_ret.mpr ⟨rfl, rfl⟩)

/-- What thread `t` has called in a part of a log, newest first. -/
def historyOf (log : List (Nat × Event E R)) (t : Nat) : List (Event E R) :=
  (log.filter fun x => x.1 == t).map Prod.snd

/-- A call of a history stands in the log between those before it and those after it. -/
theorem split_history {log : List (Nat × Event E R)} {t : Nat} {x : Event E R} {newer older : List (Event E R)}
    (h : historyOf log t = newer ++ x :: older) :
    ∃ l₂ l₁, log = l₂ ++ (t, x) :: l₁ ∧ historyOf l₂ t = newer ∧ historyOf l₁ t = older := by
  obtain ⟨f₂, f₁, hf, rfl, hf₁⟩ := List.map_eq_append_iff.mp h
  obtain ⟨y, f₁, rfl, rfl, rfl⟩ := List.map_eq_cons_iff.mp hf₁
  obtain ⟨l₂, l', rfl, rfl, hl'⟩ := List.filter_eq_append_iff.mp hf
  obtain ⟨l₂', l₁, rfl, hnone, hy, rfl⟩ := List.filter_eq_cons_iff.mp hl'
  have ht : y.1 = t := by simpa using hy
  subst ht
  refine ⟨l₂ ++ l₂', l₁, by simp, ?_, rfl⟩
  rw [historyOf, List.filter_append, List.filter_eq_nil_iff.mpr hnone, List.append_nil]

/-! ### Worlds -/

/-- The world is a function of the log. -/
structure Logged (m : Machine Q W E R A) (init : W) (worldOf : List (Nat × Event E R) → W) : Prop where
  nil : worldOf [] = init
  cons : ∀ {q t l e r w}, m.step q t ⟨worldOf l, l⟩ e r w → w = worldOf ((t, ⟨e, r⟩) :: l)
  still : ∀ {w w'}, m.drift w w' → w' = w

section
variable {init : W} {worldOf : List (Nat × Event E R) → W}

theorem Reachable.world_eq (hm : Logged m init worldOf) (h : Reachable m (fun w => w = init) p) :
    p.sys.world = worldOf p.sys.log := by
  induction h with
  | init hw => rw [hw, ← hm.nil]
  | @step p p' hp hs ih =>
      cases hs with
      | start u q hnone => exact ih
      | act u q e k r w hu hstep =>
          have hsys : p.sys = ⟨worldOf p.sys.log, p.sys.log⟩ := by rw [← ih]
          rw [hsys] at hstep
          exact hm.cons hstep
      | drift w hd => exact (hm.still hd).trans ih

/-- **Every call was answered in the world of the calls before it.** -/
theorem Reachable.answered (hm : Logged m init worldOf) (h : Reachable m (fun w => w = init) p) :
    ∀ {t e r l₂ l₁}, p.sys.log = l₂ ++ (t, ⟨e, r⟩) :: l₁ → ∃ q w, m.step q t ⟨worldOf l₁, l₁⟩ e r w := by
  induction h with
  | init hw => exact fun hlog => by simp at hlog
  | @step p p' hp hs ih =>
      intro t e r l₂ l₁ hlog
      cases hs with
      | start u q hnone => exact ih hlog
      | act u q e' k r' w hu hstep =>
          rw [Pool.set_sys, Sys.next_log] at hlog
          cases l₂ with
          | nil =>
              obtain ⟨hx, rfl⟩ := List.cons.inj hlog
              cases hx
              have hsys : p.sys = ⟨worldOf p.sys.log, p.sys.log⟩ := by rw [← hp.world_eq hm]
              rw [hsys] at hstep
              exact ⟨q, w, hstep⟩
          | cons x l₂ => exact ih (List.cons.inj hlog).2
      | drift w hd => exact ih hlog

end

end Lib
