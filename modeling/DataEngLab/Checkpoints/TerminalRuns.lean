/-
One terminal request on its own.

`sequential` answers the calls of one thread while nothing else runs; anything may still
fail, but a clock that is read shows the time of the call.  The programs that end a lease
are followed through such a run once: whether the lease was written, from what, and which
failures can follow which write.
-/
import DataEngLab.Checkpoints.LeaseRecord
import DataEngLab.Checkpoints.Rules
import DataEngLab.Lib.Runs

namespace Checkpoints

open Lib

/-- A clock that is read shows `now`. -/
def ClockReads (now : Instant) : (e : Call) → Answer e → Prop
  | .now, r => ∀ t, exactReading .lease r = .ok t → t = now
  | _, _ => True

/-- The calls of one thread at the time `now`, with nothing else running. -/
def sequential (now : Instant) : Step World Call Answer := fun w e r w' =>
  answers 0 ⟨w, []⟩ e r w' ∧ ClockReads now e r

/-- Nothing is held. -/
def idle (s : Store) : World := ⟨s, fun _ => none⟩

/-! ### The gateway -/

section
variable {policy : CheckpointPolicy} {d : Deadline} {now : Instant} {w w' : World} {key : ControlKey}

theorem Reading.runs {α : Type} {p : M α} (hp : Reading p) {r : Except Exn α}
    (h : Runs (sequential now) p w r w') : w' = w :=
  h.keeps (I := fun m => m = w) (fun _ _ _ _ he ha hm => (answers_read he ha.1).trans hm) hp rfl

/-- A read that succeeds returned what is stored. -/
theorem readControl_runs {maxBytes : Nat} {x : Bytes × Str}
    (h : Runs (sequential now) (readControl policy d key maxBytes) w (.ok x) w') :
    w' = w ∧ w.store.get key = some ⟨x.1, x.2⟩ ∧ isEtag x.2 = true ∧ key.valid = true := by
  have hw := Reading.runs (reading_readControl policy d key maxBytes) h
  simp only [readControl, runs_bind_ok, lift, perform, runs_lift, runs_perform, runs_pure,
    require_eq_ok] at h
  obtain ⟨_, _, ⟨hvalid, rfl⟩, _, _, ⟨-, rfl⟩, _, m, hcheck, reply, _, ⟨a, hreply, hget⟩, response, _,
    ⟨hresponse, rfl⟩, _, _, -, y, _, ⟨hbody, rfl⟩, -, -, -, -, -, -, hxy, -⟩ := h
  have hm := Reading.runs (reading_checkOperationDeadline d) hcheck
  obtain rfl : reply = a := Except.ok.inj hreply
  obtain rfl : x = y := Except.ok.inj hxy
  cases reply with
  | ok r =>
      cases hresponse
      obtain ⟨hstored, -, hetag, -⟩ := readBody_eq_ok hbody
      refine ⟨hw, ?_, parseEtag_isEtag hetag, hvalid⟩
      rw [← hm]
      exact hget.1.2 (readBody_complete hbody) _ _ hstored hetag
  | _ => cases hresponse

/-- A write that succeeds is stored under the ETag it returns; one that fails may be stored. -/
theorem writeControl_runs {body : Bytes} {condition : PutCondition} {r : Except Exn Str}
    (h : Runs (sequential now) (writeControl policy d key body condition) w r w') :
    (w' = w ∧ ∀ etag, r ≠ .ok etag) ∨ ∃ etag, isEtag etag = true ∧ w' = w.put key ⟨body, etag⟩ ∧
      ∀ etag', r = .ok etag' → etag' = etag := by
  have hrest : ∀ {m : World} {etag : Str}, Runs (sequential now) (do
      checkOperationDeadline d
      let found ← readControl policy d key body.length
      lift (require (found.1 == body && found.2 == etag) (gatewayFailure "control_readback_mismatch"))
      return etag : M Str) m r w' → w' = m ∧ ∀ etag', r = .ok etag' → etag' = etag := by
    intro m etag h
    refine ⟨Reading.runs (Only.bind (reading_checkOperationDeadline d) fun _ =>
      Only.bind (reading_readControl ..) fun _ => Only.bind Only.lift fun _ => Only.pure) h, ?_⟩
    rintro etag' rfl
    simp only [runs_bind_ok, lift, runs_lift, runs_pure, Except.ok.injEq] at h
    obtain ⟨_, _, -, _, _, -, _, _, -, he, -⟩ := h
    exact he
  rcases runs_lift_bind.mp h with ⟨e, -, rfl, rfl⟩ | ⟨_, -, hbounded⟩
  · exact .inl ⟨rfl, fun _ he => ok_of_error he⟩
  rcases runs_lift_bind.mp hbounded with ⟨e, -, rfl, rfl⟩ | ⟨_, -, hintime⟩
  · exact .inl ⟨rfl, fun _ he => ok_of_error he⟩
  rcases runs_bind.mp hintime with ⟨e, hcheck, rfl⟩ | ⟨_, m, hcheck, hcall⟩
  · exact .inl ⟨Reading.runs (reading_checkOperationDeadline d) hcheck, fun _ he => ok_of_error he⟩
  obtain rfl := Reading.runs (reading_checkOperationDeadline d) hcheck
  obtain ⟨reply, n, hput, hreply⟩ := runs_perform_bind.mp hcall
  rcases runs_lift_bind.mp hreply with ⟨e, -, rfl, rfl⟩ | ⟨etag, hetag, hback⟩
  · -- the write may have taken effect all the same
    rcases answers_put_etag hput.1 with hn | ⟨etag, hetag, -, hn⟩
    · exact .inl ⟨hn, fun _ he => ok_of_error he⟩
    · exact .inr ⟨etag, hetag, hn, fun _ he => ok_of_error he⟩
  · obtain ⟨rfl, hr⟩ := hrest hback
    exact .inr ⟨etag, putReply_isEtag hetag, (answers_put_ok hput.1 hetag).2, hr⟩

theorem replaceLease_runs {body : Bytes} {etag₀ : Str} {r : Except Exn Str}
    (h : Runs (sequential now) (replaceLease policy d key etag₀ body) w r w') :
    (w' = w ∧ ∀ etag, r ≠ .ok etag) ∨ ∃ etag, isEtag etag = true ∧ w' = w.put key ⟨body, etag⟩ ∧
      ∀ etag', r = .ok etag' → etag' = etag := by
  rcases runs_lift_bind.mp h with ⟨e, -, rfl, rfl⟩ | ⟨_, -, hwrite⟩
  · exact .inl ⟨rfl, fun _ he => ok_of_error he⟩
  · exact writeControl_runs hwrite

/-! ### Failures of the gateway -/

/-- A failure that is not a lease failure. -/
def NotLease {α : Type} (r : Except Exn α) : Prop := ∀ e, r = .error e → ∀ code, e ≠ .lease code

theorem notLease_ok {α : Type} {a : α} : NotLease (.ok a : Except Exn α) := fun _ h => by cases h

theorem notLease_error {α : Type} {e : Exn} (he : ∀ code, e ≠ .lease code) :
    NotLease (.error e : Except Exn α) := fun e' h => by cases h; exact he

theorem notLease_require {c : Bool} {e : Exn} (he : ∀ code, e ≠ .lease code) : NotLease (require c e) := by
  intro e' h
  obtain ⟨-, rfl⟩ := require_eq_error.mp h
  exact he

theorem notLease_orElse {α : Type} {o : Option α} {e : Exn} (he : ∀ code, e ≠ .lease code) :
    NotLease (orElse o e) := by
  intro e' h
  obtain ⟨-, rfl⟩ := orElse_eq_error.mp h
  exact he

theorem notLease_bind {α β : Type} {x : Except Exn α} {f : α → Except Exn β} (hx : NotLease x)
    (hf : ∀ a, NotLease (f a)) : NotLease (x >>= f) := by
  intro e h
  rcases bind_eq_error.mp h with h | ⟨a, -, h⟩
  · exact hx e h
  · exact hf a e h

theorem gatewayFailure_ne_lease {code : String} : ∀ code', gatewayFailure code ≠ .lease code' :=
  fun _ h => by cases h

theorem notLease_readBody (maxBytes : Nat) (r : GetResponse) : NotLease (readBody maxBytes r) :=
  notLease_bind (notLease_orElse gatewayFailure_ne_lease) fun _ =>
    notLease_bind (notLease_orElse gatewayFailure_ne_lease) fun _ =>
    notLease_bind (notLease_require gatewayFailure_ne_lease) fun _ =>
    notLease_bind (notLease_require gatewayFailure_ne_lease) fun _ =>
    notLease_bind (notLease_require gatewayFailure_ne_lease) fun _ =>
    notLease_bind (notLease_orElse gatewayFailure_ne_lease) fun _ => notLease_ok

theorem notLease_getReply (r : GetReply) : NotLease (getReply r) := by
  cases r with
  | ok r => exact notLease_ok
  | malformed => exact notLease_error gatewayFailure_ne_lease
  | clientError code => exact notLease_error gatewayFailure_ne_lease
  | raised => exact notLease_error gatewayFailure_ne_lease
  | interrupt => exact notLease_error fun _ h => by cases h

theorem notLease_putReply (r : Reply Json) : NotLease (putReply r) := by
  cases r with
  | ok v => exact notLease_orElse gatewayFailure_ne_lease
  | raised => exact notLease_error gatewayFailure_ne_lease
  | interrupt => exact notLease_error fun _ h => by cases h

theorem notLease_serviceReading (started maxSeconds : Rat) (r : Reply (Option Rat)) :
    NotLease (serviceReading started maxSeconds r) := by
  unfold serviceReading
  split
  · exact notLease_error fun _ h => by cases h
  · exact notLease_require gatewayFailure_ne_lease
  · exact notLease_error gatewayFailure_ne_lease

theorem notLease_operationReading (started maxSeconds : Rat) (r : Reply (Option Rat)) :
    NotLease (operationReading started maxSeconds r) := by
  unfold operationReading
  split
  · exact notLease_error fun _ h => by cases h
  · exact notLease_require fun _ h => by cases h
  · exact notLease_error fun _ h => by cases h

theorem notLease_checkOperationDeadline (d : Deadline) : Ends NotLease (checkOperationDeadline d) := by
  cases d with
  | none => exact Ends.pure notLease_ok
  | service started maxSeconds =>
      refine Ends.bind (Ends.perform fun _ _ h => by cases h) fun r => Ends.lift ?_
      exact notLease_serviceReading started maxSeconds r
  | operation started maxSeconds =>
      refine Ends.bind (Ends.perform fun _ _ h => by cases h) fun r => Ends.lift ?_
      exact notLease_operationReading started maxSeconds r

theorem notLease_bodyDeadline (d : Deadline) : Ends NotLease (bodyDeadline d) := by
  refine Ends.prog_bind (notLease_checkOperationDeadline d) fun r hr => ?_
  cases r with
  | ok a => exact notLease_ok
  | error e =>
      dsimp only
      split
      · exact notLease_error (hr e rfl)
      · exact notLease_error gatewayFailure_ne_lease

/-- The parts of a sequence raise no lease failure. -/
theorem ends_notLease {α β : Type} {x : M α} {f : α → M β} (hx : Ends NotLease x)
    (hf : ∀ a, Ends NotLease (f a)) : Ends NotLease (x >>= f : M β) :=
  Ends.bind (hx.mono fun _ hr e he => notLease_error (hr e he)) hf

theorem notLease_readControl (key : ControlKey) (maxBytes : Nat) :
    Ends NotLease (readControl policy d key maxBytes) :=
  ends_notLease (Ends.lift (notLease_require gatewayFailure_ne_lease)) fun _ =>
    ends_notLease (Ends.lift (notLease_require gatewayFailure_ne_lease)) fun _ =>
    ends_notLease (notLease_checkOperationDeadline d) fun _ =>
    ends_notLease (Ends.perform fun _ => notLease_ok) fun reply =>
    ends_notLease (Ends.lift (notLease_getReply reply)) fun _ =>
    ends_notLease (notLease_bodyDeadline d) fun _ =>
    ends_notLease (Ends.lift (notLease_readBody _ _)) fun _ =>
    ends_notLease (Ends.lift (notLease_require gatewayFailure_ne_lease)) fun _ =>
    ends_notLease (notLease_checkOperationDeadline d) fun _ => Ends.pure notLease_ok

theorem notLease_replaceLease (key : ControlKey) (etag : Str) (body : Bytes) :
    Ends NotLease (replaceLease policy d key etag body) :=
  ends_notLease (Ends.lift (notLease_require gatewayFailure_ne_lease)) fun _ =>
    ends_notLease (Ends.lift (notLease_require gatewayFailure_ne_lease)) fun _ =>
    ends_notLease (Ends.lift (notLease_require gatewayFailure_ne_lease)) fun _ =>
    ends_notLease (notLease_checkOperationDeadline d) fun _ =>
    ends_notLease (Ends.perform fun _ => notLease_ok) fun reply =>
    ends_notLease (Ends.lift (notLease_putReply reply)) fun _ =>
    ends_notLease (notLease_checkOperationDeadline d) fun _ =>
    ends_notLease (notLease_readControl key body.length) fun _ =>
    ends_notLease (Ends.lift (notLease_require gatewayFailure_ne_lease)) fun _ => Ends.pure notLease_ok

end

/-! ### Ending a lease -/

/-- What is stored, `v`, is the active lease `l` that the request names, and at the time `now` the
lease that replaces it can be written, as `body`. -/
structure Ending (policy : CheckpointPolicy) (request : TerminalRequest) (v : Stored) (l : Lease)
    (now : Instant) (body : Bytes) : Prop where
  valid : (ControlKey.lease request.checkpointId).valid = true
  etag : isEtag v.etag = true
  decodes : decodeLease policy v.body = .ok l
  active : l.isActive = true
  checkpointId : l.checkpointId = request.checkpointId
  keyPrefix : l.keyPrefix = request.keyPrefix
  epoch : l.epoch = request.epoch
  written : ∃ expires, plusSeconds now policy.lease.ttlSeconds = .ok expires ∧
    canonicalSummary policy (l.moved now expires request.state (some request.evidence)).json = .ok body

/-- What is stored, `v`, is the lease `l`, ended before by a request with the same state and evidence. -/
structure Resumed (policy : CheckpointPolicy) (request : TerminalRequest) (v : Stored) (l : Lease) : Prop where
  decodes : decodeLease policy v.body = .ok l
  ended : l.isActive = false
  checkpointId : l.checkpointId = request.checkpointId
  keyPrefix : l.keyPrefix = request.keyPrefix
  epoch : l.epoch = request.epoch
  state : l.state = request.state
  evidence : (l.terminalEvidence.any fun stored => frozenEq (.obj stored) (.obj request.evidence)) = true

section
variable {policy : CheckpointPolicy} {d : Deadline} {now : Instant} {w w' : World} {request : TerminalRequest}

theorem reading_requiredLease (key : ControlKey) : Reading (requiredLease policy d key) :=
  Only.bind (Only.handle (reading_readSummary policy d key) fun _ => Only.throw) fun _ =>
    Only.bind Only.lift fun _ => Only.pure

theorem reading_leaseNow : Reading leaseNow := Only.bind (Only.perform rfl) fun _ => Only.lift

theorem requiredLease_runs {key : ControlKey} {x : Lease × Bytes × Str}
    (h : Runs (sequential now) (requiredLease policy d key) w (.ok x) w') :
    w' = w ∧ w.store.get key = some ⟨x.2.1, x.2.2⟩ ∧ decodeLease policy x.2.1 = .ok x.1 ∧
      isEtag x.2.2 = true ∧ key.valid = true := by
  simp only [requiredLease, runs_bind_ok, lift, runs_lift, runs_pure, runs_handle, runs_throw, reduceCtorEq,
    false_and, and_false, exists_false, or_false, Except.ok.injEq] at h
  obtain ⟨y, _, ⟨_, hread, rfl⟩, l, _, ⟨hl, rfl⟩, rfl, rfl⟩ := h
  obtain ⟨rfl, hstored, hetag, hvalid⟩ := readControl_runs hread
  exact ⟨rfl, hstored, hl, hetag, hvalid⟩

theorem leaseNow_runs {t : Instant} (h : Runs (sequential now) leaseNow w (.ok t) w') : w' = w ∧ t = now := by
  have hw := Reading.runs reading_leaseNow h
  obtain ⟨reply, m, hreply, hread⟩ := runs_perform_bind.mp h
  obtain ⟨ht, -⟩ := runs_lift.mp hread
  exact ⟨hw, hreply.2 t ht⟩

theorem leaseError_eq_lease {e : Exn} {code code' : String} (he : ∀ c, e ≠ .lease c)
    (h : leaseError code e = .lease code') : code' = code := by
  cases e with
  | gateway c ks =>
      simp only [leaseError] at h
      split at h
      · cases h
      · cases h; rfl
  | lease c => exact (he c rfl).elim
  | _ => cases h

/-- What a terminal transition does: nothing, or one write of the lease. -/
theorem transitionLocked_runs {r : Except Exn LeaseResult}
    (h : Runs (sequential now) (transitionLocked policy d request.checkpointId request.keyPrefix
      request.epoch request.state (some request.evidence)) w r w') :
    (w' = w ∧ ∀ x, r ≠ .ok x) ∨ ∃ v l body etag, w.store.get (.lease request.checkpointId) = some v ∧
      Ending policy request v l now body ∧ isEtag etag = true ∧
      w' = w.put (.lease request.checkpointId) ⟨body, etag⟩ ∧
      (∀ x, r = .ok x → x = ⟨request.epoch, etag, body⟩) ∧
      ∀ code, r = .error (.lease code) → code = "lease_ownership_lost" := by
  rcases runs_bind.mp h with ⟨e, hnow, rfl⟩ | ⟨t, m, hnow, hread⟩
  · exact .inl ⟨Reading.runs reading_leaseNow hnow, fun _ he => ok_of_error he⟩
  obtain ⟨rfl, rfl⟩ := leaseNow_runs hnow
  rcases runs_bind.mp hread with ⟨e, hlease, rfl⟩ | ⟨⟨l, body, etag⟩, m, hlease, hrest⟩
  · exact .inl ⟨Reading.runs (reading_requiredLease _) hlease, fun _ he => ok_of_error he⟩
  obtain ⟨rfl, hstored, hdecodes, hetag, hvalid⟩ := requiredLease_runs hlease
  rcases runs_lift_bind.mp hrest with ⟨e, -, rfl, rfl⟩ | ⟨_, hidentity, hepochs⟩
  · exact .inl ⟨rfl, fun _ he => ok_of_error he⟩
  rcases runs_lift_bind.mp hepochs with ⟨e, -, rfl, rfl⟩ | ⟨_, hepoch, hactives⟩
  · exact .inl ⟨rfl, fun _ he => ok_of_error he⟩
  rcases runs_lift_bind.mp hactives with ⟨e, -, rfl, rfl⟩ | ⟨_, hactive, hplus⟩
  · exact .inl ⟨rfl, fun _ he => ok_of_error he⟩
  rcases runs_lift_bind.mp hplus with ⟨e, -, rfl, rfl⟩ | ⟨expires, hexpires, hcanonical⟩
  · exact .inl ⟨rfl, fun _ he => ok_of_error he⟩
  rcases runs_lift_bind.mp hcanonical with ⟨e, -, rfl, rfl⟩ | ⟨next, hnext, hwrite⟩
  · exact .inl ⟨rfl, fun _ he => ok_of_error he⟩
  simp only [requireIdentity, require_eq_ok, Bool.and_eq_true, beq_iff_eq] at hidentity hepoch hactive
  have hending : Ending policy request ⟨body, etag⟩ l t next :=
    ⟨hvalid, hetag, hdecodes, hactive, hidentity.1, hidentity.2, hepoch, expires, hexpires, hnext⟩
  rcases runs_bind.mp hwrite with ⟨e, hput, rfl⟩ | ⟨nextEtag, n, hput, hreturn⟩
  · rcases runs_handle.mp hput with ⟨_, -, he⟩ | ⟨e', n, hput', hraise⟩
    · cases he
    obtain ⟨he, rfl⟩ := runs_throw.mp hraise
    rcases replaceLease_runs hput' with ⟨rfl, -⟩ | ⟨etag', hetag', rfl, -⟩
    · exact .inl ⟨rfl, fun _ hx => by cases hx⟩
    · refine .inr ⟨_, l, next, etag', hstored, hending, hetag', rfl, fun _ hx => ok_of_error hx, ?_⟩
      intro code hcode
      refine leaseError_eq_lease (Runs.ends (notLease_replaceLease _ _ _) hput' e' rfl) ?_
      rw [← Except.error.inj hcode]
      exact Except.error.inj he.symm
  · rcases runs_handle.mp hput with ⟨etag', hput', he⟩ | ⟨e', n', -, hraise⟩
    · obtain ⟨rfl, rfl⟩ := runs_pure.mp hreturn
      cases he
      rcases replaceLease_runs hput' with ⟨-, hno⟩ | ⟨etag₂, hetag₂, rfl, hsame⟩
      · exact (hno _ rfl).elim
      · obtain rfl := hsame _ rfl
        exact .inr ⟨_, l, next, _, hstored, hending, hetag₂, rfl, fun x hx => (Except.ok.inj hx).symm,
          fun _ hx => error_of_ok hx⟩
    · obtain ⟨he, -⟩ := runs_throw.mp hraise
      cases he

/-- What ending a lease does: nothing, when it was ended before or the request is refused, or one
write of the lease. -/
theorem endLease_runs {r : Except Exn LeaseResult} (h : Runs (sequential now) (endLease policy d request) w r w') :
    (w' = w ∧ ∀ x, r = .ok x → ∃ l, w.store.get (.lease request.checkpointId) = some ⟨x.body, x.etag⟩ ∧
      Resumed policy request ⟨x.body, x.etag⟩ l) ∨
    ∃ v l body etag, w.store.get (.lease request.checkpointId) = some v ∧
      Ending policy request v l now body ∧ isEtag etag = true ∧
      w' = w.put (.lease request.checkpointId) ⟨body, etag⟩ ∧
      (∀ x, r = .ok x → x = ⟨request.epoch, etag, body⟩) ∧
      ∀ code, r = .error (.lease code) → code = "lease_ownership_lost" := by
  rcases runs_bind.mp h with ⟨e, hlease, rfl⟩ | ⟨⟨l, body, etag⟩, m, hlease, hrest⟩
  · exact .inl ⟨Reading.runs (reading_requiredLease _) hlease, fun _ he => ok_of_error he⟩
  obtain ⟨rfl, hstored, hdecodes, -, -⟩ := requiredLease_runs hlease
  rcases runs_lift_bind.mp hrest with ⟨e, -, rfl, rfl⟩ | ⟨_, hidentity, hepochs⟩
  · exact .inl ⟨rfl, fun _ he => ok_of_error he⟩
  rcases runs_lift_bind.mp hepochs with ⟨e, -, rfl, rfl⟩ | ⟨_, hepoch, hend⟩
  · exact .inl ⟨rfl, fun _ he => ok_of_error he⟩
  simp only [requireIdentity, require_eq_ok, Bool.and_eq_true, beq_iff_eq] at hidentity hepoch
  split at hend
  · rcases transitionLocked_runs hend with ⟨hw, hno⟩ | hmoved
    · exact .inl ⟨hw, fun x hx => (hno x hx).elim⟩
    · exact .inr hmoved
  · rename_i hactive
    split at hend
    · rename_i hsame
      obtain ⟨hr, rfl⟩ := runs_pure.mp hend
      refine .inl ⟨rfl, fun x hx => ?_⟩
      obtain rfl : x = ⟨request.epoch, etag, body⟩ := Except.ok.inj (hx.symm.trans hr)
      exact ⟨l, hstored, hdecodes, by simpa using hactive, hidentity.1, hidentity.2, hepoch, hsame.1, hsame.2⟩
    · obtain ⟨rfl, rfl⟩ := runs_throw.mp hend
      exact .inl ⟨rfl, fun _ he => ok_of_error he⟩

/-! ### The terminal record -/

/-- The bytes of the terminal record, or the failure that keeps it from being written. -/
def terminalBody (policy : CheckpointPolicy) (request : TerminalRequest) (leaseBody : Bytes) : Except Exn Bytes := do
  let lease ← decodeLease policy leaseBody
  require (terminalFlags.all fun f => Json.isBool (flagOf f request.evidence)) (.lease "terminal_evidence_invalid")
  canonicalSummary policy (terminalRecord request lease)

theorem persistTerminal_eq (leaseBody : Bytes) : persistTerminal policy d request leaseBody = (do
    let body ← lift (terminalBody policy request leaseBody)
    tryCatch (storeTerminal policy d (.terminal request.checkpointId) body) fun e => throw (terminalError e)) := by
  unfold persistTerminal terminalBody
  rcases decodeLease policy leaseBody with e | lease
  · rfl
  by_cases hf : (terminalFlags.all fun f => Json.isBool (flagOf f request.evidence)) = true
  · rw [hf]; rfl
  · rw [Bool.not_eq_true] at hf
    rw [hf]; rfl

theorem storeTerminal_runs {key : ControlKey} {body : Bytes} {r : Except Exn Unit}
    (h : Runs (sequential now) (storeTerminal policy d key body) w r w') :
    w' = w ∨ ∃ etag, isEtag etag = true ∧ w' = w.put key ⟨body, etag⟩ := by
  obtain ⟨outcome, m, hread, hrest⟩ := runs_attempt_bind.mp h
  obtain rfl := Reading.runs (reading_readSummary ..) hread
  have hput : ∀ {x : M Str} {n : World}, (∀ r n, Runs (sequential now) x m r n → n = m ∨
      ∃ etag, isEtag etag = true ∧ n = m.put key ⟨body, etag⟩) →
      Runs (sequential now) (do let _ ← x : M Unit) m r n → n = m ∨
        ∃ etag, isEtag etag = true ∧ n = m.put key ⟨body, etag⟩ := by
    intro x n hx hrun
    rcases runs_bind.mp hrun with ⟨e, he, -⟩ | ⟨_, n', he, hend⟩
    · exact hx _ _ he
    · obtain ⟨-, rfl⟩ := runs_pure.mp hend
      exact hx _ _ he
  cases outcome with
  | ok y =>
      obtain ⟨existing, etag₀⟩ := y
      dsimp only at hrest
      split at hrest
      · exact .inl (runs_pure.mp hrest).2.symm
      · refine hput (fun r n hrun => ?_) hrest
        rcases replaceLease_runs hrun with ⟨hn, -⟩ | ⟨etag, hetag, hn, -⟩
        · exact .inl hn
        · exact .inr ⟨etag, hetag, hn⟩
  | error e =>
      dsimp only at hrest
      split at hrest
      · refine hput (fun r n hrun => ?_) hrest
        rcases writeControl_runs hrun with ⟨hn, -⟩ | ⟨etag, hetag, hn, -⟩
        · exact .inl hn
        · exact .inr ⟨etag, hetag, hn⟩
      · exact .inl (runs_throw.mp hrest).2.symm

/-- What persisting the evidence does: nothing, when the record cannot be made, or at most one write
of it. -/
theorem persistTerminal_runs {leaseBody : Bytes} {r : Except Exn Unit}
    (h : Runs (sequential now) (persistTerminal policy d request leaseBody) w r w') :
    (w' = w ∧ ∃ e, terminalBody policy request leaseBody = .error e ∧ r = .error e) ∨
    ∃ body, terminalBody policy request leaseBody = .ok body ∧ (r = .ok () ∨ ∃ e, r = .error (terminalError e)) ∧
      (w' = w ∨ ∃ etag, isEtag etag = true ∧ w' = w.put (.terminal request.checkpointId) ⟨body, etag⟩) := by
  rw [persistTerminal_eq] at h
  rcases runs_lift_bind.mp h with ⟨e, he, rfl, rfl⟩ | ⟨body, hbody, hstore⟩
  · exact .inl ⟨rfl, e, he, rfl⟩
  refine .inr ⟨body, hbody, ?_⟩
  rcases runs_handle.mp hstore with ⟨_, hrun, rfl⟩ | ⟨e, m, hrun, hraise⟩
  · exact ⟨.inl rfl, storeTerminal_runs hrun⟩
  · obtain ⟨rfl, rfl⟩ := runs_throw.mp hraise
    exact ⟨.inr ⟨e, rfl⟩, storeTerminal_runs hrun⟩

theorem terminalError_eq_lease {e : Exn} {code : String} (h : terminalError e = .lease code) :
    code = "terminal_record_failed" := by
  cases e with
  | interrupt => cases h
  | gateway c ks =>
      simp only [terminalError] at h
      split at h
      · cases h
      · cases h; rfl
  | _ => cases h; rfl

/-! ### The lock -/

/-- A body run under the lock of a checkpoint that nobody holds. -/
theorem withLock_runs {step : Step World Call Answer} (hstep : ∀ w e r w', step w e r w' → answers 0 ⟨w, []⟩ e r w')
    {α : Type} {c : Str} {body : M α} {s : Store} {r : Except Exn α}
    (h : Runs step (withLock c body) (idle s) r w') :
    (isIdentity c = false ∧ w' = idle s) ∨
      ∃ m, Runs step body ((idle s).setLock c (some (0, 1))) r m ∧ w'.store = m.store := by
  rcases runs_lift_bind.mp h with ⟨e, he, rfl, rfl⟩ | ⟨_, -, hhold⟩
  · exact .inl ⟨(require_eq_error.mp he).1, rfl⟩
  obtain ⟨_, m, hm, hbody⟩ := runs_perform_bind.mp hhold
  obtain ⟨outcome, n, hrun, hrelease⟩ := runs_attempt_bind.mp hbody
  obtain ⟨_, w₁, hw₁, hend⟩ := runs_perform_bind.mp hrelease
  obtain ⟨rfl, rfl⟩ := runs_lift.mp hend
  obtain rfl : m = (idle s).setLock c (some (0, 1)) := hstep _ _ _ _ hm
  refine .inr ⟨n, hrun, ?_⟩
  rcases (answers_release (hstep _ _ _ _ hw₁)).2 with rfl | ⟨_, rfl⟩
  · rfl
  · rfl

end

end Checkpoints
