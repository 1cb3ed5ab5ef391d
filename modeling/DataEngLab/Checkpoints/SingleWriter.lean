/-
One writer at a time.

The abstract model of a checkpoint's lease is its writer: the epoch of the lease that is
active, if there is one.  A writer comes where there is none, renews, and leaves; nothing
else ever happens, whatever fails and whatever the clocks say.  Every step of the service is
one of these, and it is a request of the right kind that makes it.
-/
import DataEngLab.Checkpoints.LeaseRuns
import DataEngLab.Checkpoints.Scene

namespace Checkpoints

open Lib

/-! ### The abstract model -/

/-- What happens to the writer of a checkpoint. -/
inductive WriterMove where
  | idle
  | come (epoch : Str)
  | renew (epoch : Str)
  | leave (epoch : Str)

/-- The writer before and after. -/
inductive WriterStep : Option Str → WriterMove → Option Str → Prop where
  | idle (w : Option Str) : WriterStep w .idle w
  | come (epoch : Str) : WriterStep none (.come epoch) (some epoch)
  | renew (epoch : Str) : WriterStep (some epoch) (.renew epoch) (some epoch)
  | leave (epoch : Str) : WriterStep (some epoch) (.leave epoch) none

/-- A writer goes on unless it leaves. -/
theorem WriterStep.stays {epoch : Str} {m : WriterMove} {w : Option Str}
    (h : WriterStep (some epoch) m w) : w = some epoch ∨ m = .leave epoch := by
  cases h with
  | idle => exact .inl rfl
  | renew => exact .inl rfl
  | leave => exact .inr rfl

/-! ### The writer of a checkpoint in the bucket -/

/-- The epoch of a stored lease that is active. -/
def writerOf (o : Option Stored) : Option Str :=
  match o.bind fun v => rawLease v.body with
  | some l => if l.isActive then some l.epoch else none
  | none => none

def World.writer (w : World) (c : Str) : Option Str := writerOf (w.store.get (.lease c))

theorem ReadsLease.writerOf {policy : CheckpointPolicy} {o : Option Stored} {l : Lease}
    (h : ReadsLease policy o l) : writerOf o = if l.isActive then some l.epoch else none := by
  obtain ⟨v, rfl, hv⟩ := h
  simp only [Checkpoints.writerOf, Option.bind_some, rawLease_of_decode hv]

theorem IsLease.writerOf {body : Bytes} {epoch state : Str} (h : IsLease body epoch state)
    (etag : Str) : writerOf (some ⟨body, etag⟩) = if state == lit "active" then some epoch else none := by
  obtain ⟨l, hl, rfl, rfl⟩ := h
  simp only [Checkpoints.writerOf, Option.bind_some, hl]
  rfl

/-- The move that a write of a lease is. -/
theorem LeaseWrite.writer {policy : CheckpointPolicy} {step : Answers World Call Answer} {t : Nat}
    {q : Request} {c : Str} {o : Option Stored} {body : Bytes}
    (h : LeaseWrite policy step t q c o body) (etag : Str) :
    (∃ r epoch, q = .acquire r ∧ r.checkpointId = c ∧ writerOf o = none ∧
        writerOf (some ⟨body, etag⟩) = some epoch) ∨
      (∃ r, q = .heartbeat r ∧ r.checkpointId = c ∧ writerOf o = some r.epoch ∧
        writerOf (some ⟨body, etag⟩) = some r.epoch) ∨
      ∃ r, q = .terminal r ∧ r.checkpointId = c ∧ writerOf o = some r.epoch ∧
        writerOf (some ⟨body, etag⟩) = none ∧ IsLease body r.epoch r.state := by
  cases h with
  | @acquire request _ now expires matched epoch _ hrequest hold hepoch hexpires hbody =>
      refine .inl ⟨request, epoch, rfl, rfl, ?_, ?_⟩
      · rcases hold with rfl | ⟨l, hl, hactive⟩
        · rfl
        · rw [hl.writerOf, hactive]
          rfl
      · have hlease : IsLease body epoch (lit "active") :=
          ⟨_, rawLease_written (newLease_decoded hrequest hepoch now expires) hbody, rfl, rfl⟩
        rw [hlease.writerOf]
        rfl
  | move hq hold hclock hepoch hactive hexpires hbody =>
      have hbefore := hold.writerOf
      rw [hactive, hepoch] at hbefore
      have hlease := isLease_moved hq hold hepoch hbody
      have hafter := hlease.writerOf etag
      cases hq with
      | heartbeat r => exact .inr (.inl ⟨r, rfl, rfl, hbefore, hafter⟩)
      | terminal r hended =>
          refine .inr (.inr ⟨r, rfl, rfl, hbefore, ?_, hlease⟩)
          rw [hafter]
          simp only [List.mem_cons, List.not_mem_nil, or_false] at hended
          rcases hended with h | h | h
          · rw [h]; rfl
          · rw [h]; rfl
          · rw [h]; rfl

/-! ### Runs -/

section
variable (rt : Runtime)

/-- A pool of the service. -/
abbrev ServicePool := Pool Served World Call Answer (Except Exn Response)

/-- Thread `t` ends an acquisition of `c` under this epoch. -/
def Acquired (t : Nat) (c epoch : Str) (p p' : ServicePool) : Prop :=
  ∃ q r x, Finishes (machine rt) t q (.ok (.lease x)) p p' ∧ q.request = .acquire r ∧
    r.checkpointId = c ∧ x.epoch = epoch

/-- A terminal request of this epoch stores its transition: the lease was active, and is now the
ended lease of the same epoch. -/
def Terminated (c epoch : Str) (p p' : ServicePool) : Prop :=
  ∃ t q r body condition a etag, Acts (machine rt) t q (.putObject (.lease c) body condition) a p p' ∧
    q.request = .terminal r ∧ r.checkpointId = c ∧ r.epoch = epoch ∧
    p.sys.world.writer c = some epoch ∧ p'.sys.world.store.get (.lease c) = some ⟨body, etag⟩ ∧
    IsLease body epoch r.state ∧ p'.sys.world.writer c = none

/-- The request that makes a move. -/
def MadeBy (c : Str) (p p' : ServicePool) : WriterMove → Prop
  | .idle => True
  | .come _ => ∃ t q r e a, Acts (machine rt) t q e a p p' ∧ q.request = .acquire r ∧ r.checkpointId = c
  | .renew epoch => ∃ t q r e a, Acts (machine rt) t q e a p p' ∧ q.request = .heartbeat r ∧
      r.checkpointId = c ∧ r.epoch = epoch
  | .leave epoch => Terminated rt c epoch p p'

/-- **Every step of the service is a move of the abstract model.** -/
theorem step_writer {p p' : ServicePool} (h : Reached rt p) (hs : PoolStep (machine rt) p p') (c : Str) :
    ∃ m, WriterStep (p.sys.world.writer c) m (p'.sys.world.writer c) ∧ MadeBy rt c p p' m := by
  rcases step_lease (serves_machine rt) h hs c with hsame | ⟨t, q, body, condition, a, etag, ha, hw, hnew⟩
  · refine ⟨.idle, ?_, trivial⟩
    rw [World.writer, World.writer, hsame]
    exact .idle _
  · have hafter : p'.sys.world.writer c = writerOf (some ⟨body, etag⟩) := by rw [World.writer, hnew]
    rcases hw.writer etag with ⟨r, epoch, hq, hc, hb, he⟩ | ⟨r, hq, hc, hb, he⟩ | ⟨r, hq, hc, hb, he, hl⟩
    · refine ⟨.come epoch, ?_, ⟨t, q, r, _, a, ha, hq, hc⟩⟩
      rw [World.writer, hb, hafter, he]
      exact .come epoch
    · refine ⟨.renew r.epoch, ?_, ⟨t, q, r, _, a, ha, hq, hc, rfl⟩⟩
      rw [World.writer, hb, hafter, he]
      exact .renew _
    · refine ⟨.leave r.epoch, ?_, ⟨t, q, r, body, condition, a, etag, ha, hq, hc, rfl, hb, hnew, hl,
        hafter.trans he⟩⟩
      rw [World.writer, hb, hafter, he]
      exact .leave _

/-- A writer that is gone left in some step. -/
theorem exists_terminated {p p' : ServicePool} {c epoch : Str} (h : Reached rt p)
    (hs : Steps (machine rt) p p') (hp : p.sys.world.writer c = some epoch)
    (hp' : p'.sys.world.writer c ≠ some epoch) :
    ∃ a b, Steps (machine rt) p a ∧ Terminated rt c epoch a b ∧ Steps (machine rt) b p' := by
  obtain ⟨a, b, ha, hab, hb, hIa, hIb⟩ := hs.exists_leaving
    (I := fun p => p.sys.world.writer c = some epoch) hp hp'
  refine ⟨a, b, ha, ?_, hb⟩
  obtain ⟨m, hm, hby⟩ := step_writer rt (h.steps ha) hab c
  rw [hIa] at hm
  rcases hm.stays with hstay | rfl
  · exact absurd hstay hIb
  · exact hby

/-! ### Epochs that do not repeat -/

/-- The identifiers that the source has given. -/
def issued (log : List (Nat × Event Call Answer)) : List Str :=
  log.filterMap fun x => match x.2 with
    | ⟨.uuid, .ok (some u)⟩ => some u
    | _ => none

theorem eq_of_nodup_filterMap {α β : Type} {f : α → Option β} {l : List α} {a b : α} {u : β}
    (h : (l.filterMap f).Nodup) (ha : a ∈ l) (hb : b ∈ l) (hfa : f a = some u) (hfb : f b = some u) :
    a = b := by
  induction l with
  | nil => cases ha
  | cons x l ih =>
      have hmem : ∀ y ∈ l, f y = some u → u ∈ l.filterMap f := fun y hy hfy =>
        List.mem_filterMap.mpr ⟨y, hy, hfy⟩
      by_cases hx : f x = some u
      · rw [List.filterMap_cons_some hx, List.nodup_cons] at h
        rcases List.mem_cons.mp ha with rfl | ha'
        · rcases List.mem_cons.mp hb with rfl | hb'
          · rfl
          · exact absurd (hmem b hb' hfb) h.1
        · exact absurd (hmem a ha' hfa) h.1
      · rcases List.mem_cons.mp ha with rfl | ha'
        · exact absurd hfa hx
        · rcases List.mem_cons.mp hb with rfl | hb'
          · exact absurd hfb hx
          · refine ih ?_ ha' hb'
            exact (h.sublist ((List.sublist_cons_self x l).filterMap f))

/-- Two threads that acquired did so under different epochs. -/
theorem acquired_distinct {p₀ p₁ p₂ p₃ : ServicePool} {t₁ t₂ : Nat} {c c' e₁ e₂ : Str}
    (h : Reached rt p₀) (h₁ : Acquired rt t₁ c e₁ p₀ p₁) (hs : Steps (machine rt) p₁ p₂)
    (h₂ : Acquired rt t₂ c' e₂ p₂ p₃) (hd : (issued p₃.sys.log).Nodup) : e₁ ≠ e₂ := by
  obtain ⟨q₁, r₁, x₁, hf₁, hq₁, -, rfl⟩ := h₁
  obtain ⟨q₂, r₂, x₂, hf₂, hq₂, -, rfl⟩ := h₂
  have hr₁ : Reached rt p₁ := .step h hf₁.step
  have hr₂ : Reached rt p₂ := hr₁.steps hs
  have hcalled₁ := run_leasePost (serves_machine rt) h hf₁ x₁ rfl
  have hcalled₂ := run_leasePost (serves_machine rt) hr₂ hf₂ x₂ rfl
  rw [hq₁] at hcalled₁
  rw [hq₂] at hcalled₂
  have hsteps : Steps (machine rt) p₁ p₃ := hs.tail hf₂.step
  have hlog₁ := hsteps.log_subset (Sys.mem_history.mp hcalled₁.2)
  have hlog₂ := Sys.mem_history.mp hcalled₂.2
  have hthreads : t₁ ≠ t₂ := by
    rintro rfl
    obtain ⟨⟨e, a, ha⟩, -⟩ := hf₂
    have hdone := hs.finished hf₁.2
    cases ha with
    | mk k w hrun hstep => rw [hdone] at hrun; cases hrun
  intro heq
  rw [heq] at hlog₁
  have hpair := eq_of_nodup_filterMap hd hlog₁ hlog₂ rfl rfl
  exact hthreads (congrArg Prod.fst hpair)

/-! ### The result -/

/-- One writer at a time, on checkpoint `c`. -/
structure SingleWriter (c : Str) : Prop where
  /-- Whatever is answered, a writer comes where there is none, renews or leaves. -/
  moves : ∀ p p', Reached rt p → PoolStep (machine rt) p p' →
    ∃ m, WriterStep (p.sys.world.writer c) m (p'.sys.world.writer c) ∧ MadeBy rt c p p' m
  /-- Between two acquisitions the first epoch's terminal transition was stored. -/
  between : ∀ p₀ p₁ p₂ p₃ t₁ t₂ e₁ e₂, Reached rt p₀ → Acquired rt t₁ c e₁ p₀ p₁ →
    Steps (machine rt) p₁ p₂ → Acquired rt t₂ c e₂ p₂ p₃ → (issued p₃.sys.log).Nodup →
    ∃ a b, Steps (machine rt) p₁ a ∧ Terminated rt c e₁ a b ∧ Steps (machine rt) b p₃
  /-- A heartbeat succeeds only for the epoch that is stored and active. -/
  heartbeat : ∀ p p' t q x r, Reached rt p → Finishes (machine rt) t q (.ok (.lease x)) p p' →
    q.request = .heartbeat r → r.checkpointId = c → p'.sys.world.writer c = some r.epoch
  /-- A terminal request succeeds only for the epoch that is stored. -/
  terminal : ∀ p p' t q x r, Reached rt p → Finishes (machine rt) t q (.ok (.lease x)) p p' →
    q.request = .terminal r → r.checkpointId = c →
    ∃ v, p'.sys.world.store.get (.lease c) = some v ∧ IsLease v.body r.epoch r.state
  /-- An active lease is never written over by an acquisition, however long ago it expired. -/
  expiry : ∀ p p' t q r body condition a, Reached rt p →
    Acts (machine rt) t q (.putObject (.lease c) body condition) a p p' → q.request = .acquire r →
    p.sys.world.writer c = none

/-- **Single writer.** -/
theorem leases_singleWriter (c : Str) : SingleWriter rt c where
  moves p p' h hs := step_writer rt h hs c
  between p₀ p₁ p₂ p₃ t₁ t₂ e₁ e₂ h h₁ hs h₂ hd := by
    have hne := acquired_distinct rt h h₁ hs h₂ hd
    have hr₁ : Reached rt p₁ := by
      obtain ⟨q, r, x, hf, -⟩ := h₁
      exact .step h hf.step
    have hw : ∀ {p p' : ServicePool} {t : Nat} {e : Str}, Reached rt p → Acquired rt t c e p p' →
        p'.sys.world.writer c = some e := by
      rintro p p' t e hp ⟨q, r, x, hf, hq, hc, rfl⟩
      have hpost := run_leasePost (serves_machine rt) hp hf x rfl
      rw [hq] at hpost
      have htold := hpost.1
      rw [hc] at htold
      rw [World.writer, htold.stored, htold.lease.writerOf]
      rfl
    have hsteps : Steps (machine rt) p₁ p₃ := by
      obtain ⟨q, r, x, hf, -⟩ := h₂
      exact hs.tail hf.step
    refine exists_terminated rt hr₁ hsteps (hw h h₁) ?_
    rw [hw (hr₁.steps hs) h₂]
    exact fun heq => hne (Option.some.inj heq).symm
  heartbeat p p' t q x r h hf hq hc := by
    have htold := run_leasePost (serves_machine rt) h hf x rfl
    rw [hq] at htold
    dsimp only at htold
    rw [hc] at htold
    rw [World.writer, htold.stored, htold.lease.writerOf]
    rfl
  terminal p p' t q x r h hf hq hc := by
    have htold := run_leasePost (serves_machine rt) h hf x rfl
    rw [hq] at htold
    dsimp only at htold
    rw [hc] at htold
    exact ⟨_, htold.stored, htold.lease⟩
  expiry p p' t q r body condition a h ha hq := by
    obtain ⟨-, hwrite⟩ := run_leaseGuar (serves_machine rt) h ha
    have hw := hwrite c body condition rfl
    rcases hw.writer [] with ⟨_, _, _, _, hb, _⟩ | ⟨r', hr', _⟩ | ⟨r', hr', _⟩
    · exact hb
    · rw [hq] at hr'; cases hr'
    · rw [hq] at hr'; cases hr'

end

/-! ### A run with two writers, one after the other -/

def isRelease : Call → Bool
  | .release _ => true
  | _ => false

abbrev ServiceStage := Stage Served World Call Answer (Except Exn Response) Scene

/-- The stages around the last call of the first acquisition and around that of the second. -/
def rotation : Option (ServiceStage × ServiceStage × ServiceStage × ServiceStage) := do
  let cast := cast registryRuntime
  let s := Scene.empty [second 0, second 60, second 120] [sampleEpoch, nextEpoch]
  let x₀ ← cast.play [.start 0 (served (.acquire sampleAcquire)), .upTo 0 isRelease] (cast.opening s)
  let x₁ ← cast.move x₀ (.one 0)
  let x₂ ← cast.play [.start 1 (served (.terminal sampleTerminal)), .upTo 1 fun _ => false,
    .start 2 (served (.acquire sampleAcquire)), .upTo 2 isRelease] x₁
  let x₃ ← cast.move x₂ (.one 2)
  return (x₀, x₁, x₂, x₃)

/-- The thread has acquired the sample checkpoint under this epoch. -/
def acquiredIn (x : ServiceStage) (t : Nat) (epoch : Str) : Bool :=
  match Cast.resultOf x t with
  | some (⟨.acquire r, _⟩, .ok (.lease l)) => r.checkpointId == sampleCheckpoint && l.epoch == epoch
  | _ => false

theorem acquired_of_stages {x y : ServiceStage} {t : Nat} {epoch : Str}
    (hx : (cast registryRuntime).Fits x) (h : (cast registryRuntime).move x (.one t) = some y)
    (ha : acquiredIn y t epoch = true) :
    Acquired registryRuntime t sampleCheckpoint epoch x.pool y.pool := by
  unfold acquiredIn at ha
  split at ha
  · rename_i r d l hr
    simp only [Bool.and_eq_true, beq_iff_eq] at ha
    exact ⟨_, r, l, Cast.one_finishes hx h hr, rfl, ha.1, ha.2⟩
  · cases ha

theorem leases_singleWriter_rotation : ∃ p₀ p₁ p₂ p₃,
    Reached registryRuntime p₀ ∧
    Acquired registryRuntime 0 sampleCheckpoint sampleEpoch p₀ p₁ ∧
    Steps (machine registryRuntime) p₁ p₂ ∧
    Acquired registryRuntime 2 sampleCheckpoint nextEpoch p₂ p₃ ∧ (issued p₃.sys.log).Nodup ∧
    ∃ a b, Steps (machine registryRuntime) p₁ a ∧
      Terminated registryRuntime sampleCheckpoint sampleEpoch a b ∧
      Steps (machine registryRuntime) b p₃ := by
  have hrun : (rotation.any fun x => acquiredIn x.2.1 0 sampleEpoch && acquiredIn x.2.2.2 2 nextEpoch &&
      decide (issued x.2.2.2.pool.sys.log).Nodup) = true := by decide +kernel
  simp only [Option.any_eq_true, Bool.and_eq_true, decide_eq_true_eq] at hrun
  obtain ⟨⟨x₀, x₁, x₂, x₃⟩, hx, ⟨h₁, h₃⟩, hd⟩ := hrun
  simp only [rotation, Option.bind_eq_bind, Option.bind_eq_some_iff, Option.pure_def,
    Option.some.injEq, Prod.mk.injEq] at hx
  obtain ⟨y₀, hx₀, y₁, hx₁, y₂, hx₂, y₃, hx₃, rfl, rfl, rfl, rfl⟩ := hx
  have hreach : Reached registryRuntime y₀.pool := Cast.play_reachable (fun _ => rfl) hx₀
  have hfits₀ := (Cast.play_steps (Cast.opening_fits _ _) hx₀).2
  have hfits₁ := (Cast.move_steps hfits₀ hx₁).2
  obtain ⟨hsteps, hfits₂⟩ := Cast.play_steps hfits₁ hx₂
  have hfirst := acquired_of_stages hfits₀ hx₁ h₁
  have hsecond := acquired_of_stages hfits₂ hx₃ h₃
  exact ⟨_, _, _, _, hreach, hfirst, hsteps, hsecond, hd,
    (leases_singleWriter registryRuntime sampleCheckpoint).between _ _ _ _ _ _ _ _ hreach hfirst hsteps
      hsecond hd⟩

end Checkpoints
