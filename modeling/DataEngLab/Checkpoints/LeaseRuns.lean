/-
Leases in a run of the service.

Every request keeps the promise of `LeaseWrites`: the lease manager's requests because their
programs were followed, all others because they write no lease at all.  So the promise holds
in every run, of the service itself and of the service under any further condition on what
it is answered.
-/
import DataEngLab.Checkpoints.LeaseWrites

namespace Checkpoints

open Lib

/-- The result of a lease request: the lease that is stored, of this epoch and state. -/
structure Told (s : State) (c epoch state : Str) (x : LeaseResult) : Prop where
  stored : s.world.store.get (.lease c) = some ⟨x.body, x.etag⟩
  lease : IsLease x.body epoch state
  same : x.epoch = epoch

/-- What a lease request that succeeds has done. -/
def leasePost (t : Nat) (q : Request) (a : Except Exn Response) (s : State) : Prop :=
  ∀ x, a = .ok (.lease x) → match q with
    | .acquire r => Told s r.checkpointId x.epoch (lit "active") x ∧
        ⟨.uuid, .ok (some x.epoch)⟩ ∈ s.history t
    | .heartbeat r => Told s r.checkpointId r.epoch (lit "active") x
    | .terminal r => Told s r.checkpointId r.epoch r.state x
    | _ => True

section
variable {policy : CheckpointPolicy} {step : Answers World Call Answer}
  {hstep : ∀ {t s e r w}, step t s e r w → answers t s e r w} {t : Nat} {q : Request}
  (d : Deadline) {c : Str} {s : State}

/-- Under the lock a program of the lease manager knows what is stored. -/
theorem does_withLease {body : M LeaseResult} {G : LeaseResult → State → Prop}
    (hG : ∀ x, (leaseSetting policy step hstep t q).Kept (G x))
    (hrelease : ∀ x s a w, G x s → G x (s.next t (.release c) a w))
    (hbody : ∀ o s, Owns t c o s → (leaseSetting policy step hstep t q).Does body
      (fun r s => s.world.owner c = some t ∧ ∀ x, r = .ok x → Tells t c x s ∧ G x s) s) :
    (leaseSetting policy step hstep t q).Does (withLock c body) (fun r s => ∀ x, r = .ok x →
      s.world.store.get (.lease c) = some ⟨x.body, x.etag⟩ ∧ G x s) s := by
  refine Setting.withLock (I := fun _ => True) (.const _) trivial
    (B := fun r s => s.world.owner c = some t ∧ ∀ x, r = .ok x → Tells t c x s ∧ G x s) ?_ ?_ ?_ ?_
  · exact fun r => (Setting.Kept.owns (X := leaseSetting policy step hstep t q) c).and
      (.all fun x => .imp _ (Owns.kept.and (hG x)))
  · intro s a w _ h
    refine ⟨leaseGuar_of_keeps (.inr (.inl ⟨c, rfl⟩)) (hstep h), ?_⟩
    obtain ⟨-, n, hw⟩ := answers_hold (hstep h)
    refine hbody (s.world.store.get (.lease c)) _ ⟨?_, ?_⟩
    · rw [Sys.next_world, hw]
      simp [leaseSetting]
    · rw [Sys.next_world, hw]
      rfl
  · rintro r s a w ⟨-, hok⟩ h
    refine ⟨leaseGuar_of_keeps (.inr (.inr ⟨c, rfl⟩)) (hstep h), fun x hx => ?_⟩
    obtain ⟨htells, hg⟩ := hok x hx
    refine ⟨?_, hrelease x s a w hg⟩
    obtain ⟨-, hw | ⟨n, hw⟩⟩ := answers_release (hstep h)
    · rw [Sys.next_world, hw]
      exact htells.2
    · rw [Sys.next_world, hw]
      exact htells.2
  · exact fun e s _ x hx => nomatch hx

theorem does_acquire (request : AcquireRequest) :
    (leaseSetting policy step hstep t (.acquire request)).Does (acquire policy d request)
      (fun r s => ∀ x, r = .ok x → leasePost t (.acquire request) (.ok (.lease x)) s) s := by
  refine Sat.lift_bind (fun matched hrequest => ?_) fun e _ x hx => nomatch hx
  refine Sat.mono ?_ (does_withLease (q := .acquire request) (c := request.checkpointId)
    (G := fun x s => IsLease x.body x.epoch (lit "active") ∧
      (⟨.uuid, .ok (some x.epoch)⟩ : Event Call Answer) ∈ s.history t) ?_ ?_ fun o s hs => ?_)
  · intro r s h x hx y hy
    cases hy
    obtain ⟨hstored, hlease, hcalled⟩ := h x hx
    exact ⟨⟨hstored, hlease, rfl⟩, hcalled⟩
  · exact fun x => (Setting.Kept.const _).and (Setting.Kept.called
      (X := leaseSetting policy step hstep t (.acquire request)) _)
  · rintro x s a w ⟨hlease, hcalled⟩
    refine ⟨hlease, ?_⟩
    rw [Sys.next_history]
    exact List.mem_cons_of_mem _ hcalled
  · refine Sat.mono ?_ (does_acquireLocked d hrequest hs)
    rintro r s ⟨howner, hok⟩
    refine ⟨howner, fun x hx => ?_⟩
    obtain ⟨htells, hcalled, huuid, now, expires, hbody⟩ := hok x hx
    have hlease := rawLease_written (newLease_decoded hrequest huuid now expires) hbody
    exact ⟨htells, ⟨_, hlease, rfl, rfl⟩, hcalled⟩

theorem does_heartbeat (request : HeartbeatRequest) :
    (leaseSetting policy step hstep t (.heartbeat request)).Does (heartbeat policy d request)
      (fun r s => ∀ x, r = .ok x → leasePost t (.heartbeat request) (.ok (.lease x)) s) s := by
  refine Sat.lift_bind (fun matched hrequest => ?_) fun e _ x hx => nomatch hx
  refine Sat.mono ?_ (does_withLease (q := .heartbeat request) (c := request.checkpointId)
    (G := fun x _ => x.epoch = request.epoch ∧ IsLease x.body request.epoch (lit "active"))
    (fun x => .const _) (fun x s a w h => h) fun o s hs => ?_)
  · intro r s h x hx y hy
    cases hy
    obtain ⟨hstored, hepoch, hlease⟩ := h x hx
    exact ⟨hstored, hlease, hepoch⟩
  · refine Sat.mono ?_ (does_transitionLocked d (.heartbeat request) hs)
    rintro r s ⟨howner, hok⟩
    refine ⟨howner, fun x hx => ?_⟩
    obtain ⟨htells, hepoch, l, now, expires, hl, hlepoch, hbody⟩ := hok x hx
    exact ⟨htells, hepoch, isLease_moved (.heartbeat request) hl hlepoch hbody⟩

theorem does_terminal (request : TerminalRequest) :
    (leaseSetting policy step hstep t (.terminal request)).Does (terminal policy d request)
      (fun r s => ∀ x, r = .ok x → leasePost t (.terminal request) (.ok (.lease x)) s) s := by
  refine Sat.lift_bind (fun _ hrequest => ?_) fun e _ x hx => nomatch hx
  refine Sat.mono ?_ (does_withLease (q := .terminal request) (c := request.checkpointId)
    (G := fun x _ => x.epoch = request.epoch ∧ IsLease x.body request.epoch request.state)
    (fun x => .const _) (fun x s a w h => h) fun o s hs =>
      does_terminalLocked d (validateTerminal_ended hrequest) hs)
  intro r s h x hx y hy
  cases hy
  obtain ⟨hstored, hepoch, hlease⟩ := h x hx
  exact ⟨hstored, hlease, hepoch⟩

end

/-! ### Runs -/

/-- A machine that serves requests as the service does and is answered as the service may be. -/
structure Serves (rt : Runtime) (m : Machine Served World Call Answer (Except Exn Response)) : Prop where
  code : ∀ q, m.code q = invoke rt q.deadline q.request
  step : ∀ {q t s e r w}, m.step q t s e r w → answers t s e r w
  drift : ∀ {w w'}, ¬ m.drift w w'

theorem serves_machine (rt : Runtime) : Serves rt (machine rt) := ⟨fun _ => rfl, id, id⟩

theorem serves_when (rt : Runtime) (C : Nat → Served → State → (e : Call) → Answer e → Prop) :
    Serves rt ((machine rt).when C) := ⟨fun _ => rfl, fun h => h.1, id⟩

/-- A request keeps the promise when it makes only calls that are not the lease manager's. -/
theorem does_keeps {policy : CheckpointPolicy} {step : Answers World Call Answer}
    {hstep : ∀ {t s e r w}, step t s e r w → answers t s e r w} {t : Nat} {q : Request} {s : State}
    {x : M Response} (hx : Only Call.keeps x) :
    (leaseSetting policy step hstep t q).Does x (fun _ _ => True) s :=
  Only.sat (I := fun _ => True) (fun _ _ _ _ => trivial)
    (fun _ _ _ _ he _ h => ⟨leaseGuar_of_keeps he (hstep h), trivial⟩) hx trivial

/-- The result of a lease request, as the service returns it. -/
theorem does_leaseResponse {policy : CheckpointPolicy} {step : Answers World Call Answer}
    {hstep : ∀ {t s e r w}, step t s e r w → answers t s e r w} {t : Nat} {q : Request} {s : State}
    {x : M LeaseResult} (hx : (leaseSetting policy step hstep t q).Does x
      (fun r s => ∀ x, r = .ok x → leasePost t q (.ok (.lease x)) s) s) :
    (leaseSetting policy step hstep t q).Does (Response.lease <$> x : M Response) (leasePost t q) s := by
  refine Sat.bind (Sat.mono ?_ hx)
  rintro (e | a) s h
  · exact fun x hx => nomatch hx
  · exact h a rfl

theorem keeps_partialStatus (rt : Runtime) (d : Deadline) (op : Str) (e : Exn) :
    Only Call.keeps (partialStatus rt d op e) := by
  refine Only.bind (Only.mono (fun _ => Call.keeps_of_reads) (Only.attempt (reading_status ..))) fun o => ?_
  split
  · exact Only.throw
  · split
    · exact Only.pure
    · exact Only.throw
  · exact Only.throw

theorem keeps_apply (policy : CheckpointPolicy) (request : ApplyRequest) :
    Only Call.keeps (apply policy request) := by
  have hcheck : ∀ a b : Rat, Only Call.keeps (checkDeadline a b) := fun a b =>
    Only.mono (fun _ => Call.keeps_of_reads) (reading_checkDeadline a b)
  exact Only.bind (Only.mono (fun _ => Call.keeps_of_reads) reading_startDeadline) fun _ =>
    Only.bind (hcheck _ _) fun _ => Only.bind (keeps_applyRequest ..) fun _ =>
    Only.bind (hcheck _ _) fun _ => Only.pure

theorem keeps_applyAction (rt : Runtime) (d : Deadline) (request : ApplyRequest) :
    Only Call.keeps (applyAction rt d request) := by
  unfold applyAction
  split
  · exact Only.pure
  · refine Only.bind Only.lift fun _ => Only.bind (Only.attempt (keeps_apply ..)) fun o => ?_
    split
    · exact Only.pure
    · exact keeps_partialStatus ..
    · exact Only.throw

theorem keeps_planAction (rt : Runtime) (d : Deadline) (checkpointId keyPrefix actor : Str) :
    Only Call.keeps (planAction rt d checkpointId keyPrefix actor) :=
  Only.mono (fun _ => Call.keeps_of_reads) (Only.bind (Only.perform rfl) fun _ => Only.bind Only.lift fun _ =>
    reading_plan ..)

/-- Every request keeps the promise. -/
theorem does_invoke {policy : CheckpointPolicy} {step : Answers World Call Answer}
    {hstep : ∀ {t s e r w}, step t s e r w → answers t s e r w} {t : Nat} {s : State} (rt : Runtime)
    (hrt : rt.policy = policy) (d : Deadline) (q : Request) :
    (leaseSetting policy step hstep t q).Does (invoke rt d q) (leasePost t q) s := by
  subst hrt
  have hother : ∀ {x : M Response}, (match q with
      | .acquire _ => False
      | .heartbeat _ => False
      | .terminal _ => False
      | _ => True) → Only Call.keeps x →
      (leaseSetting rt.policy step hstep t q).Does x (leasePost t q) s := by
    intro x hq hx
    refine Sat.mono (fun a s _ => ?_) (does_keeps hx)
    cases q with
    | acquire r => exact hq.elim
    | heartbeat r => exact hq.elim
    | terminal r => exact hq.elim
    | _ => exact fun _ _ => trivial
  cases q with
  | acquire request => exact does_leaseResponse (does_acquire d request)
  | heartbeat request => exact does_leaseResponse (does_heartbeat d request)
  | terminal request =>
      refine does_leaseResponse (Sat.lift_bind (fun _ _ => does_terminal d request) fun e _ x hx => ?_)
      cases hx
  | plan checkpointId keyPrefix actor =>
      exact hother trivial (Only.bind (keeps_planAction ..) fun _ => Only.pure)
  | prepare request => exact hother trivial (Only.bind (keeps_prepare ..) fun _ => Only.pure)
  | apply request => exact hother trivial (keeps_applyAction ..)
  | status op =>
      exact hother trivial (Only.bind (Only.mono (fun _ => Call.keeps_of_reads) (reading_status ..))
        fun _ => Only.pure)

/-- The promise of `LeaseWrites`, in every run. -/
def leaseProtocol {rt : Runtime} {m : Machine Served World Call Answer (Except Exn Response)}
    (hm : Serves rt m) : Protocol m where
  inv _ := True
  rely := Undisturbed
  guar t q := leaseGuar rt.policy (m.step q) t q.request
  post t q := leasePost t q.request
  trans h h' := h.trans h'
  drift_rely _ _ _ _ h := (hm.drift h).elim
  drift_inv _ _ _ _ := trivial
  guar_rely _ _ _ _ _ _ _ hut _ h := h.1.undisturbed hut
  guar_inv _ _ _ _ _ _ _ _ := trivial
  sat t q s _ _ := by
    rw [hm.code q]
    exact @does_invoke _ _ hm.step _ _ rt rfl q.deadline q.request

section
variable {rt : Runtime} {m : Machine Served World Call Answer (Except Exn Response)}
  {init : World → Prop} {p p' : Pool Served World Call Answer (Except Exn Response)}

/-- Every call of a run keeps the promise. -/
theorem run_leaseGuar (hm : Serves rt m) (h : Reachable m init p) {t : Nat} {q : Served} {e : Call}
    {r : Answer e} (ha : Acts m t q e r p p') :
    leaseGuar rt.policy (m.step q) t q.request p.sys e r p'.sys :=
  (h.sound (P := leaseProtocol hm) Undisturbed.refl fun _ _ => trivial).acts Undisturbed.refl ha

/-- A lease request that succeeds has done what it says. -/
theorem run_leasePost (hm : Serves rt m) (h : Reachable m init p) {t : Nat} {q : Served}
    {a : Except Exn Response} (hf : Finishes m t q a p p') : leasePost t q.request a p'.sys :=
  (h.sound (P := leaseProtocol hm) Undisturbed.refl fun _ _ => trivial).finishes Undisturbed.refl hf

/-- A step changes the lease of a checkpoint only by a write that is listed. -/
theorem step_lease (hm : Serves rt m) (h : Reachable m init p) (hs : PoolStep m p p') (c : Str) :
    p'.sys.world.store.get (.lease c) = p.sys.world.store.get (.lease c) ∨
      ∃ t q body condition r etag, Acts m t q (.putObject (.lease c) body condition) r p p' ∧
        LeaseWrite rt.policy (m.step q) t q.request c (p.sys.world.store.get (.lease c)) body ∧
        p'.sys.world.store.get (.lease c) = some ⟨body, etag⟩ := by
  rcases hs.cases_acts with ⟨t, q, e, r, ha⟩ | hsame | ⟨w, hd, -⟩
  · obtain ⟨hord, hwrite⟩ := run_leaseGuar hm h ha
    rcases answers_cases hord.answered with hw | ⟨c', v, -, -, -, hw⟩ |
      ⟨key, body, condition, etag, he, -, hw⟩
    · exact .inl (by rw [hw])
    · exact .inl (by rw [hw]; rfl)
    · subst he
      by_cases hkey : key = .lease c
      · subst hkey
        exact .inr ⟨t, q, body, condition, r, etag, ha, hwrite c body condition rfl, by simp [hw]⟩
      · exact .inl (by simp [hw, hkey])
  · exact .inl (by rw [hsame])
  · exact (hm.drift hd).elim

end

end Checkpoints
