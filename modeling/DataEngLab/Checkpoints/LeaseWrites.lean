/-
What the service writes under a lease key.

`LeaseWrite` lists every lease that is ever written: one that an acquisition writes where
there is no lease or an ended one, and one that a heartbeat or a terminal transition makes of
the lease it read.  The programs of the lease manager are followed once, here; what is known
of leases in a run is then read off the two cases.
-/
import DataEngLab.Checkpoints.Rules
import DataEngLab.Checkpoints.LeaseRecord

namespace Checkpoints

open Lib

/-! ### Requests -/

theorem matchPrefix_ascii {policy : CheckpointPolicy} {keyPrefix : Str} {matched : MatchedCheckpoint}
    (h : policy.matchPrefix keyPrefix = .ok matched) : isAscii keyPrefix = true := by
  unfold CheckpointPolicy.matchPrefix at h
  split at h
  · cases h
  · rename_i u hu
    unfold validateConcretePrefix at hu
    split at hu
    · cases hu
    · rename_i hn
      simp only [Bool.or_eq_true, not_or, Bool.not_eq_true', Bool.not_eq_false] at hn
      exact hn.2

/-- The leases a request makes of the lease of its epoch: their state and evidence. -/
inductive Request.Moves : Request → Str → Str → Str → Option (List (Str × Json)) → Prop where
  | heartbeat (r : HeartbeatRequest) : Moves (.heartbeat r) r.checkpointId r.epoch (lit "active") none
  | terminal (r : TerminalRequest) (h : r.state ∈ [lit "stopped", lit "completed", lit "retired"]) :
      Moves (.terminal r) r.checkpointId r.epoch r.state (some r.evidence)

theorem leaseStates_ended (durability : Durability) : ∀ s ∈ durability.leaseStates,
    lit s ∈ [lit "stopped", lit "completed", lit "retired"] := by
  cases durability with
  | durableStream => decide
  | generationReproducibility => decide
  | disposableAcceptance => decide

section
variable {policy : CheckpointPolicy}

theorem validateIdentityRequest_eq_ok {checkpointId keyPrefix : Str} {epoch : Option Str}
    {matched : MatchedCheckpoint}
    (h : validateIdentityRequest policy checkpointId keyPrefix epoch = .ok matched) :
    policy.matchPrefix keyPrefix = .ok matched ∧ checkpointId = lit matched.checkpointId ∧
      ∀ e, epoch = some e → uuid.fullmatch e = true := by
  unfold validateIdentityRequest at h
  split at h
  · cases h
  · rename_i m hm
    simp only [bind_eq_ok, require_eq_ok, pure_eq_ok, beq_iff_eq] at h
    obtain ⟨_, hid, _, hepoch, rfl⟩ := h
    refine ⟨hm, hid, fun e he => ?_⟩
    subst he
    exact hepoch

theorem validateTerminal_ended {request : TerminalRequest} {u : Unit}
    (h : validateTerminal policy request = .ok u) :
    request.state ∈ [lit "stopped", lit "completed", lit "retired"] := by
  simp only [validateTerminal, bind_eq_ok, require_eq_ok, List.any_eq_true, beq_iff_eq] at h
  obtain ⟨matched, -, entry, -, _, ⟨s, hs, hstate⟩, -⟩ := h
  rw [← hstate]
  exact leaseStates_ended entry.durability s hs

theorem newLease_decoded {request : AcquireRequest} {matched : MatchedCheckpoint} {epoch : Str}
    (h : validateAcquire policy request = .ok matched) (hepoch : uuid.fullmatch epoch = true)
    (now expires : Instant) : (newLease now expires matched request epoch).Decoded := by
  simp only [validateAcquire, bind_eq_ok, require_eq_ok, pure_eq_ok, beq_iff_eq, Bool.and_eq_true] at h
  obtain ⟨m, hm, entry, -, _, hwork, _, ⟨howner, hsession⟩, rfl⟩ := h
  obtain ⟨hpfx, -, -⟩ := validateIdentityRequest_eq_ok hm
  refine ⟨joined_formatUtc now, joined_lit _, joined_uuid hepoch, joined_formatUtc expires,
    joined_formatUtc now, joined_isIdentity howner, joined_isAscii (matchPrefix_ascii hpfx),
    joined_isIdentity hsession, joined_lit _, trivial, ?_⟩
  show Str.Joined request.workload
  rw [← hwork]
  exact joined_lit _

/-- An existing lease lets a new one in only when it has ended. -/
theorem admitAcquire_eq_ok {now : Instant} {matched : MatchedCheckpoint} {request : AcquireRequest}
    {existing : Option (Lease × Str)} {replaceEtag : Option Str}
    (h : admitAcquire policy now matched request existing = .ok replaceEtag) :
    replaceEtag = existing.map Prod.snd ∧ ∀ x, existing = some x → x.1.isActive = false := by
  unfold admitAcquire at h
  split at h
  · simp only [Except.ok.injEq] at h
    subst h
    exact ⟨rfl, fun x hx => nomatch hx⟩
  · rename_i current etag
    split at h
    · simp only [bind_eq_ok] at h
      obtain ⟨_, _, _, _, h⟩ := h
      split at h
      · simp only [bind_eq_ok, reduceCtorEq, and_false, exists_false] at h
      · rename_i hactive
        split at h
        · cases h
        · simp only [bind_eq_ok, pure_eq_ok] at h
          obtain ⟨_, _, rfl⟩ := h
          refine ⟨rfl, fun x hx => ?_⟩
          cases hx
          simpa using hactive
    · cases h

end

/-! ### The leases that are written -/

/-- The lease stored under a checkpoint's key, as a reader accepts it. -/
def ReadsLease (policy : CheckpointPolicy) (o : Option Stored) (l : Lease) : Prop :=
  ∃ v, o = some v ∧ decodeLease policy v.body = .ok l

/-- A reading of the clock by thread `t`, while the bucket holds `o` under the lease key of `c`. -/
def ReadsClock (step : Answers World Call Answer) (t : Nat) (c : Str) (o : Option Stored)
    (now : Instant) : Prop :=
  ∃ s a w, step t s .now a w ∧ s.world.store.get (.lease c) = o ∧ exactReading .lease a = .ok now

/-- Thread `t`, serving a request, writes `body` as the lease of a checkpoint, where `o` is
stored. -/
inductive LeaseWrite (policy : CheckpointPolicy) (step : Answers World Call Answer) (t : Nat) :
    Request → Str → Option Stored → Bytes → Prop where
  | acquire {request : AcquireRequest} {o : Option Stored} {now expires : Instant}
      {matched : MatchedCheckpoint} {epoch : Str} {body : Bytes}
      (hrequest : validateAcquire policy request = .ok matched)
      (hold : o = none ∨ ∃ l, ReadsLease policy o l ∧ l.isActive = false)
      (hepoch : uuid.fullmatch epoch = true)
      (hexpires : plusSeconds now policy.lease.ttlSeconds = .ok expires)
      (hbody : canonicalSummary policy (newLease now expires matched request epoch).json = .ok body) :
      LeaseWrite policy step t (.acquire request) request.checkpointId o body
  | move {q : Request} {c epoch state : Str} {evidence : Option (List (Str × Json))}
      {o : Option Stored} {l : Lease} {now expires : Instant} {body : Bytes}
      (hq : q.Moves c epoch state evidence) (hold : ReadsLease policy o l)
      (hclock : ReadsClock step t c o now) (hepoch : l.epoch = epoch) (hactive : l.isActive = true)
      (hexpires : plusSeconds now policy.lease.ttlSeconds = .ok expires)
      (hbody : canonicalSummary policy (l.moved now expires state evidence).json = .ok body) :
      LeaseWrite policy step t q c o body

/-- Every call is orderly, and every lease that is written is listed. -/
def leaseGuar (policy : CheckpointPolicy) (step : Answers World Call Answer) (t : Nat) (q : Request) :
    Guarantee World Call Answer := fun s e r s' =>
  Orderly t s e r s' ∧ ∀ c body condition, e = .putObject (.lease c) body condition →
    LeaseWrite policy step t q c (s.world.store.get (.lease c)) body

theorem Call.keeps_of_reads {e : Call} (h : e.reads = true) : e.keeps := .inl ⟨[], .inl (.inl h)⟩

theorem leaseGuar_of_keeps {policy : CheckpointPolicy} {step : Answers World Call Answer} {t : Nat}
    {q : Request} {s : State} {e : Call} {r : Answer e} {w : World} (he : e.keeps)
    (h : answers t s e r w) : leaseGuar policy step t q s e r (s.next t e r w) := by
  refine ⟨Orderly.of_keeps he h, fun c body condition hput => ?_⟩
  subst hput
  cases (Call.keeps_put he).2

/-- A thread that serves a request and lists the leases it writes. -/
def leaseSetting (policy : CheckpointPolicy) (step : Answers World Call Answer)
    (hstep : ∀ {t s e r w}, step t s e r w → answers t s e r w) (t : Nat) (q : Request) : Setting where
  thread := t
  step := step
  guar := leaseGuar policy step t q
  answered h := hstep h
  read he h := leaseGuar_of_keeps (Call.keeps_of_reads he) (hstep h)

theorem ReadsLease.decoded {policy : CheckpointPolicy} {o : Option Stored} {l : Lease}
    (h : ReadsLease policy o l) : l.Decoded := by
  obtain ⟨v, -, hv⟩ := h
  exact rawLease_decoded (rawLease_of_decode hv)

theorem Request.Moves.joined {q : Request} {c epoch state : Str}
    {evidence : Option (List (Str × Json))} (h : q.Moves c epoch state evidence) :
    Str.Joined state ∧ (evidenceJson evidence).Decoded ∧ state ∈ leaseStates := by
  cases h with
  | heartbeat r => exact ⟨joined_lit _, trivial, by decide⟩
  | terminal r h =>
      refine ⟨?_, r.decoded, List.mem_cons_of_mem _ h⟩
      simp only [List.mem_cons, List.not_mem_nil, or_false] at h
      rcases h with h | h | h
      · rw [h]; exact joined_lit _
      · rw [h]; exact joined_lit _
      · rw [h]; exact joined_lit _

/-- The lease that a write stores, before its evidence is sorted. -/
theorem LeaseWrite.lease {policy : CheckpointPolicy} {step : Answers World Call Answer} {t : Nat}
    {q : Request} {c : Str} {o : Option Stored} {body : Bytes} (h : LeaseWrite policy step t q c o body) :
    ∃ l : Lease, l.Decoded ∧ canonicalSummary policy l.json = .ok body := by
  cases h with
  | acquire hrequest _ hepoch _ hbody => exact ⟨_, newLease_decoded hrequest hepoch _ _, hbody⟩
  | move hq hold _ _ _ _ hbody =>
      obtain ⟨hstate, hevidence, -⟩ := hq.joined
      exact ⟨_, hold.decoded.moved _ _ hstate hevidence, hbody⟩

/-! ### The programs -/

section
variable {policy : CheckpointPolicy} {step : Answers World Call Answer}
  {hstep : ∀ {t s e r w}, step t s e r w → answers t s e r w} {t : Nat} {q : Request}
  (d : Deadline) {c : Str} {o : Option Stored} {s : State}

/-- Thread `t` holds the lock of `c`, and `o` is stored as its lease. -/
def Owns (t : Nat) (c : Str) (o : Option Stored) (s : State) : Prop :=
  s.world.owner c = some t ∧ s.world.store.get (.lease c) = o

theorem Owns.kept : (leaseSetting policy step hstep t q).Kept (Owns t c o) :=
  Setting.Kept.held (X := leaseSetting policy step hstep t q) rfl o

theorem does_leaseNow (hs : Owns t c o s) :
    (leaseSetting policy step hstep t q).Does leaseNow
      (fun r s => Owns t c o s ∧ ∀ now, r = .ok now → ReadsClock step t c o now) s := by
  refine Sat.bind (Setting.perform rfl Owns.kept hs fun s a w hs ha hs' => ?_)
  exact And.intro hs' fun now hnow => ⟨s, a, w, ha, hs.2, hnow⟩

/-- What is stored, as `optionalLease` returns it. -/
def ReadsOptional (policy : CheckpointPolicy) (o : Option Stored) : Option (Lease × Str) → Prop
  | none => o = none
  | some x => ∃ body, o = some ⟨body, x.2⟩ ∧ decodeLease policy body = .ok x.1

theorem does_readSummary (hs : Owns t c o s) :
    (leaseSetting policy step hstep t q).Does (readSummary policy d (.lease c))
      (fun r s => Owns t c o s ∧ (∀ x, r = .ok x → o = some ⟨x.1, x.2⟩) ∧
        ∀ e, r = .error e → e.isMissing = true → o = none) s := by
  refine Sat.mono ?_ (Setting.readControl policy d Owns.kept hs
    (J := fun x _ => o = some ⟨x.1, x.2⟩) (N := fun _ => o = none)
    (fun x => .const _) (fun s x hs h => hs.2.symm.trans h) fun s hs h => hs.2.symm.trans h)
  rintro (e | x) s ⟨hs, hfound⟩
  · refine ⟨hs, fun x hx => (nomatch hx), fun e' he' => ?_⟩
    cases he'
    exact hfound
  · refine ⟨hs, fun x' hx' => ?_, fun e he => nomatch he⟩
    cases hx'
    exact hfound

theorem does_optionalLease (hs : Owns t c o s) :
    (leaseSetting policy step hstep t q).Does (optionalLease policy d (.lease c))
      (fun r s => Owns t c o s ∧ ∀ x, r = .ok x → ReadsOptional policy o x) s := by
  refine Sat.bind (Sat.attempt (Sat.mono ?_ (does_readSummary d hs)))
  rintro (e | ⟨body, etag⟩) s ⟨hs, hok, hmissing⟩
  · simp only [onOk]
    split
    · rename_i he
      refine Sat.pure ⟨hs, fun x hx => ?_⟩
      cases hx
      exact hmissing e rfl (by simp [Exn.isMissing, he.1, he.2])
    · exact Sat.throw ⟨hs, fun _ hx => ok_of_error hx⟩
  · refine Sat.lift_bind (fun l hl => Sat.pure ⟨hs, fun x hx => ?_⟩) fun _ _ => ⟨hs, fun _ hx => ok_of_error hx⟩
    cases hx
    exact ⟨body, hok _ rfl, hl⟩

theorem does_requiredLease (hs : Owns t c o s) :
    (leaseSetting policy step hstep t q).Does (requiredLease policy d (.lease c))
      (fun r s => Owns t c o s ∧ ∀ x, r = .ok x →
        o = some ⟨x.2.1, x.2.2⟩ ∧ decodeLease policy x.2.1 = .ok x.1) s := by
  refine Sat.bind (Sat.handle (Sat.mono ?_ (does_readSummary d hs)))
  rintro (e | ⟨body, etag⟩) s ⟨hs, hok, -⟩
  · exact Sat.throw ⟨hs, fun x hx => nomatch hx⟩
  · refine Sat.lift_bind (fun l hl => Sat.pure ⟨hs, fun x hx => ?_⟩) fun _ _ => ⟨hs, fun x hx => nomatch hx⟩
    cases hx
    exact ⟨hok _ rfl, hl⟩

/-- The lease under the key of `c` is the one a result tells of. -/
def Tells (t : Nat) (c : Str) (x : LeaseResult) (s : State) : Prop :=
  Owns t c (some ⟨x.body, x.etag⟩) s

/-- A write of the lease that the promise lists. -/
theorem leaseGuar_put {body : Bytes} {condition : PutCondition}
    {r : Answer (.putObject (.lease c) body condition)} {w : World} (hs : Owns t c o s)
    (h : answers t s (.putObject (.lease c) body condition) r w)
    (hw : LeaseWrite policy step t q c o body) :
    leaseGuar policy step t q s (.putObject (.lease c) body condition) r (s.next t _ r w) ∧
      (s.next t _ r w).world.owner c = some t := by
  refine ⟨⟨⟨h, ?_, ?_⟩, ?_⟩, ?_⟩
  · intro key body' condition' c' he hc'
    cases he
    cases hc'
    exact hs.1
  · intro key body' condition' he hmutable
    cases he
    cases hmutable
  · intro c' body' condition' he
    cases he
    rw [hs.2]
    exact hw
  · rw [Sys.next_world]
    rcases answers_put h with rfl | ⟨etag, -, rfl⟩
    · exact hs.1
    · exact hs.1

theorem does_replaceLease {body : Bytes} {etag : Str} (hs : Owns t c o s)
    (hw : LeaseWrite policy step t q c o body) :
    (leaseSetting policy step hstep t q).Does (replaceLease policy d (.lease c) etag body)
      (fun r s => s.world.owner c = some t ∧ ∀ etag, r = .ok etag → Owns t c (some ⟨body, etag⟩) s) s := by
  refine Sat.mono ?_ (Setting.replaceLease policy d Owns.kept hs
    (K := fun s => s.world.owner c = some t) (J := fun etag => Owns t c (some ⟨body, etag⟩))
    (Setting.Kept.owns (X := leaseSetting policy step hstep t q) c)
    (fun s r w hs h => leaseGuar_put hs (hstep h) hw) (fun _ => Owns.kept)
    fun s etag hs hstored => ⟨hs, hstored⟩)
  rintro (e | etag) s h
  · exact ⟨h.elim (fun hs => hs.1) id, fun _ he => nomatch he⟩
  · refine ⟨h.1, fun etag' he => ?_⟩
    cases he
    exact h.2

theorem does_createLease {body : Bytes} (hs : Owns t c o s) (hw : LeaseWrite policy step t q c o body) :
    (leaseSetting policy step hstep t q).Does (createControl policy d (.lease c) body)
      (fun r s => s.world.owner c = some t ∧ ∀ etag, r = .ok etag → Owns t c (some ⟨body, etag⟩) s) s := by
  refine Sat.mono ?_ (Setting.writeControl policy d Owns.kept hs
    (K := fun s => s.world.owner c = some t) (J := fun etag => Owns t c (some ⟨body, etag⟩))
    (Setting.Kept.owns (X := leaseSetting policy step hstep t q) c)
    (fun s r w hs h => leaseGuar_put hs (hstep h) hw) (fun _ => Owns.kept)
    fun s etag hs hstored => ⟨hs, hstored⟩)
  rintro (e | etag) s h
  · exact ⟨h.elim (fun hs => hs.1) id, fun _ he => nomatch he⟩
  · refine ⟨h.1, fun etag' he => ?_⟩
    cases he
    exact h.2

theorem does_writeLease {body : Bytes} {replaceEtag : Option Str} (hs : Owns t c o s)
    (hw : LeaseWrite policy step t q c o body) :
    (leaseSetting policy step hstep t q).Does (writeLease policy d (.lease c) body replaceEtag)
      (fun r s => s.world.owner c = some t ∧ ∀ etag, r = .ok etag → Owns t c (some ⟨body, etag⟩) s) s := by
  cases replaceEtag with
  | none =>
      refine Sat.handle (Sat.mono ?_ (does_createLease d hs hw))
      rintro (e | etag) s h
      · exact Sat.throw ⟨h.1, fun _ he => nomatch he⟩
      · exact h
  | some etag =>
      refine Sat.handle (Sat.mono ?_ (does_replaceLease d hs hw))
      rintro (e | etag) s h
      · exact Sat.throw ⟨h.1, fun _ he => nomatch he⟩
      · exact h

/-- **What an acquisition does**, holding the lock. -/
theorem does_acquireLocked {request : AcquireRequest} {matched : MatchedCheckpoint}
    (hrequest : validateAcquire policy request = .ok matched) (hs : Owns t request.checkpointId o s) :
    (leaseSetting policy step hstep t (.acquire request)).Does (acquireLocked policy d matched request)
      (fun r s => s.world.owner request.checkpointId = some t ∧ ∀ x, r = .ok x →
        Tells t request.checkpointId x s ∧ ⟨.uuid, .ok (some x.epoch)⟩ ∈ s.history t ∧
        uuid.fullmatch x.epoch = true ∧
        ∃ now expires, canonicalSummary policy (newLease now expires matched request x.epoch).json =
          .ok x.body) s := by
  have hfail : ∀ (e : Exn) (s : State), Owns t request.checkpointId o s →
      s.world.owner request.checkpointId = some t ∧ ∀ x, (.error e : Except Exn LeaseResult) = .ok x →
        Tells t request.checkpointId x s ∧ ⟨.uuid, .ok (some x.epoch)⟩ ∈ s.history t ∧
        uuid.fullmatch x.epoch = true ∧
        ∃ now expires, canonicalSummary policy (newLease now expires matched request x.epoch).json =
          .ok x.body := fun e s hs => ⟨hs.1, fun _ h => nomatch h⟩
  refine Sat.bind (Sat.mono ?_ (does_leaseNow hs))
  rintro (e | now) s ⟨hs, -⟩
  · exact hfail e s hs
  refine Sat.bind (Sat.mono ?_ (does_optionalLease d hs))
  rintro (e | existing) s ⟨hs, hexisting⟩
  · exact hfail e s hs
  refine Sat.lift_bind (fun replaceEtag hadm => ?_) fun e _ => hfail e s hs
  have hold : o = none ∨ ∃ l, ReadsLease policy o l ∧ l.isActive = false := by
    have hread := hexisting existing rfl
    cases existing with
    | none => exact .inl hread
    | some x =>
        obtain ⟨body, hbody, hl⟩ := hread
        exact .inr ⟨x.1, ⟨_, hbody, hl⟩, (admitAcquire_eq_ok hadm).2 x rfl⟩
  refine Sat.bind (Setting.perform rfl Owns.kept hs fun s reply w _ _ hs => ?_)
  refine Sat.lift_bind (fun epoch hepoch => ?_) fun e _ => hfail e _ hs
  have hcalled : (⟨.uuid, reply⟩ : Event Call Answer) ∈ (s.next t .uuid reply w).history t := by simp
  refine Sat.lift_bind (fun expires hexpires => ?_) fun e _ => hfail e _ hs
  refine Sat.lift_bind (fun body hbody => ?_) fun e _ => hfail e _ hs
  have huuid : reply = .ok (some epoch) ∧ uuid.fullmatch epoch = true := by
    unfold epochOf at hepoch
    split at hepoch
    · simp only [bind_eq_ok, require_eq_ok, pure_eq_ok] at hepoch
      obtain ⟨_, huuid, rfl⟩ := hepoch
      exact ⟨rfl, huuid⟩
    all_goals cases hepoch
  refine Sat.bind (Sat.mono ?_ (Sat.remembers (fun _ _ h => Undisturbed.history h)
    (does_writeLease d hs (.acquire hrequest hold huuid.2 hexpires hbody)) hcalled))
  rintro (e | etag) s ⟨⟨howner, hok⟩, hcalled⟩
  · exact And.intro howner fun _ h => nomatch h
  · refine And.intro howner fun x hx => ?_
    cases hx
    exact ⟨hok etag rfl, huuid.1 ▸ hcalled, huuid.2, now, expires, hbody⟩

/-- **What a transition does**, holding the lock. -/
theorem does_transitionLocked {keyPrefix epoch state : Str} {evidence : Option (List (Str × Json))}
    (hq : q.Moves c epoch state evidence) (hs : Owns t c o s) :
    (leaseSetting policy step hstep t q).Does (transitionLocked policy d c keyPrefix epoch state evidence)
      (fun r s => s.world.owner c = some t ∧ ∀ x, r = .ok x → Tells t c x s ∧ x.epoch = epoch ∧
        ∃ l now expires, ReadsLease policy o l ∧ l.epoch = epoch ∧
          canonicalSummary policy (l.moved now expires state evidence).json = .ok x.body) s := by
  have hfail : ∀ (e : Exn) (s : State), Owns t c o s → s.world.owner c = some t ∧
      ∀ x, (.error e : Except Exn LeaseResult) = .ok x → Tells t c x s ∧ x.epoch = epoch ∧
        ∃ l now expires, ReadsLease policy o l ∧ l.epoch = epoch ∧
          canonicalSummary policy (l.moved now expires state evidence).json = .ok x.body :=
    fun e s hs => ⟨hs.1, fun _ h => ok_of_error h⟩
  refine Sat.bind (Sat.mono ?_ (does_leaseNow hs))
  rintro (e | now) s ⟨hs, hclock⟩
  · exact hfail e s hs
  refine Sat.bind (Sat.mono ?_ (does_requiredLease d hs))
  rintro (e | ⟨current, leaseBody, etag⟩) s ⟨hs, hread⟩
  · exact hfail e s hs
  obtain ⟨hstored, hcurrent⟩ := hread _ rfl
  refine Sat.lift_bind (fun _ _ => ?_) fun e _ => hfail e s hs
  refine Sat.lift_bind (fun _ hepoch => ?_) fun e _ => hfail e s hs
  refine Sat.lift_bind (fun _ hactive => ?_) fun e _ => hfail e s hs
  refine Sat.lift_bind (fun expires hexpires => ?_) fun e _ => hfail e s hs
  refine Sat.lift_bind (fun body hbody => ?_) fun e _ => hfail e s hs
  simp only [require_eq_ok, beq_iff_eq] at hepoch hactive
  have hold : ReadsLease policy o current := ⟨_, hstored, hcurrent⟩
  have hwrite : LeaseWrite policy step t q c o body :=
    .move hq hold (hclock now rfl) hepoch hactive hexpires hbody
  refine Sat.bind (Sat.handle (Sat.mono ?_ (does_replaceLease d hs hwrite)))
  rintro (e | nextEtag) s ⟨howner, hok⟩
  · exact And.intro howner fun _ h => ok_of_error h
  · refine And.intro howner fun x hx => ?_
    cases hx
    exact ⟨hok nextEtag rfl, rfl, current, now, expires, hold, hepoch, hbody⟩

/-- A body stands for a lease of this epoch and state. -/
def IsLease (body : Bytes) (epoch state : Str) : Prop :=
  ∃ l, rawLease body = some l ∧ l.epoch = epoch ∧ l.state = state

theorem isLease_moved {l : Lease} {epoch state : Str} {evidence : Option (List (Str × Json))}
    {now expires : Instant} {body : Bytes} (hq : q.Moves c epoch state evidence)
    (hl : ReadsLease policy o l) (hepoch : l.epoch = epoch)
    (hbody : canonicalSummary policy (l.moved now expires state evidence).json = .ok body) :
    IsLease body epoch state := by
  obtain ⟨hstate, hevidence, -⟩ := hq.joined
  exact ⟨_, rawLease_written (hl.decoded.moved _ _ hstate hevidence) hbody, hepoch, rfl⟩

theorem does_endLease {request : TerminalRequest}
    (hended : request.state ∈ [lit "stopped", lit "completed", lit "retired"])
    (hs : Owns t request.checkpointId o s) :
    (leaseSetting policy step hstep t (.terminal request)).Does (endLease policy d request)
      (fun r s => s.world.owner request.checkpointId = some t ∧ ∀ x, r = .ok x →
        Tells t request.checkpointId x s ∧ x.epoch = request.epoch ∧
        IsLease x.body request.epoch request.state) s := by
  refine Sat.bind (Sat.mono ?_ (does_requiredLease d hs))
  rintro (e | ⟨current, body, etag⟩) s ⟨hs, hread⟩
  · exact And.intro hs.1 fun _ h => ok_of_error h
  obtain ⟨hstored, hcurrent⟩ := hread _ rfl
  refine Sat.lift_bind (fun _ _ => ?_) fun e _ => And.intro hs.1 fun _ h => ok_of_error h
  refine Sat.lift_bind (fun _ hepoch => ?_) fun e _ => And.intro hs.1 fun _ h => ok_of_error h
  simp only [require_eq_ok, beq_iff_eq] at hepoch
  split
  · refine Sat.mono ?_ (does_transitionLocked d (.terminal request hended) hs)
    rintro r s ⟨howner, hok⟩
    refine ⟨howner, fun x hx => ?_⟩
    obtain ⟨htells, hx, l, now, expires, hl, hlepoch, hbody⟩ := hok x hx
    exact ⟨htells, hx, isLease_moved (.terminal request hended) hl hlepoch hbody⟩
  · split
    · -- the lease had been ended by the same request before
      rename_i hsame
      refine And.intro hs.1 fun x hx => ?_
      cases hx
      exact ⟨⟨hs.1, hs.2.trans hstored⟩, rfl, current, rawLease_of_decode hcurrent, hepoch, hsame.1⟩
    · exact And.intro hs.1 fun _ h => ok_of_error h

/-- A write of the terminal record leaves the lease as it is. -/
theorem terminalGuar_put {body : Bytes} {condition : PutCondition}
    {r : Answer (.putObject (.terminal c) body condition)} {w : World} (hs : Owns t c o s)
    (h : answers t s (.putObject (.terminal c) body condition) r w) :
    leaseGuar policy step t q s (.putObject (.terminal c) body condition) r (s.next t _ r w) ∧
      Owns t c o (s.next t _ r w) := by
  refine ⟨⟨⟨h, ?_, ?_⟩, ?_⟩, ?_⟩
  · intro key body' condition' c' he hc'
    cases he
    cases hc'
    exact hs.1
  · intro key body' condition' he hmutable
    cases he
    cases hmutable
  · intro c' body' condition' he
    cases he
  · rcases answers_put h with rfl | ⟨etag, -, rfl⟩
    · exact hs
    · exact ⟨hs.1, by simpa using hs.2⟩

theorem does_storeTerminal {body : Bytes} (hs : Owns t c o s) :
    (leaseSetting policy step hstep t q).Does (storeTerminal policy d (.terminal c) body)
      (fun _ s => Owns t c o s) s := by
  have hput : ∀ {condition : PutCondition} (s : State) r w, Owns t c o s →
      step t s (.putObject (.terminal c) body condition) r w →
      leaseGuar policy step t q s (.putObject (.terminal c) body condition) r (s.next t _ r w) ∧
        Owns t c o (s.next t _ r w) := fun s r w hs h => terminalGuar_put hs (hstep h)
  refine Sat.bind (Sat.attempt (Sat.mono ?_ (Setting.reading (reading_readSummary policy d _) Owns.kept hs)))
  rintro (e | ⟨existing, etag⟩) s hs
  · simp only [onOk]
    split
    · refine Sat.bind (Sat.mono ?_ (Setting.writeControl policy d Owns.kept hs (J := fun _ _ => True)
        Owns.kept hput (fun _ => .const _) fun _ _ _ _ => trivial))
      rintro (e | etag) s h
      · exact h.elim id id
      · exact h.1
    · exact hs
  · simp only [onOk]
    split
    · exact hs
    · refine Sat.bind (Sat.mono ?_ (Setting.replaceLease policy d Owns.kept hs (J := fun _ _ => True)
        Owns.kept hput (fun _ => .const _) fun _ _ _ _ => trivial))
      rintro (e | etag) s h
      · exact h.elim id id
      · exact h.1

theorem does_persistTerminal {request : TerminalRequest} {leaseBody : Bytes}
    (hs : Owns t request.checkpointId o s) :
    (leaseSetting policy step hstep t q).Does (persistTerminal policy d request leaseBody)
      (fun _ s => Owns t request.checkpointId o s) s := by
  refine Sat.lift_bind (fun _ _ => ?_) fun _ _ => hs
  refine Sat.lift_bind (fun _ _ => ?_) fun _ _ => hs
  refine Sat.lift_bind (fun _ _ => ?_) fun _ _ => hs
  refine Sat.handle (Sat.mono ?_ (does_storeTerminal d hs))
  rintro (e | a) s hs
  · exact hs
  · exact hs

theorem does_terminalLocked {request : TerminalRequest}
    (hended : request.state ∈ [lit "stopped", lit "completed", lit "retired"])
    (hs : Owns t request.checkpointId o s) :
    (leaseSetting policy step hstep t (.terminal request)).Does (terminalLocked policy d request)
      (fun r s => s.world.owner request.checkpointId = some t ∧ ∀ x, r = .ok x →
        Tells t request.checkpointId x s ∧ x.epoch = request.epoch ∧
        IsLease x.body request.epoch request.state) s := by
  refine Sat.bind (Sat.mono ?_ (does_endLease d hended hs))
  rintro (e | result) s ⟨howner, hok⟩
  · exact And.intro howner fun _ h => nomatch h
  obtain ⟨htells, hepoch, hlease⟩ := hok result rfl
  refine Sat.bind (Sat.mono ?_ (does_persistTerminal d htells))
  rintro (e | a) s hs
  · exact And.intro hs.1 fun _ h => nomatch h
  · refine And.intro hs.1 fun x hx => ?_
    cases hx
    exact ⟨hs, hepoch, hlease⟩

end

end Checkpoints
