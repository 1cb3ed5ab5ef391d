/-
Rules for the methods of the gateway.

`readControl` succeeds only with what is stored, and reports a record as missing only when
there is none; `writeControl` succeeds only when what it wrote is stored under the ETag it
returns.  Both say so at the moment of the call, so the rules carry what then held, as an
assertion that is kept, to the moment the method returns.
-/
import DataEngLab.Checkpoints.Protocol

namespace Checkpoints

open Lib

/-! ### Responses -/

theorem readBody_eq_ok {maxBytes : Nat} {r : GetResponse} {x : Bytes × Str}
    (h : readBody maxBytes r = .ok x) : r.body = some x.1 ∧ r.contentLength = some x.1.length ∧
      parseEtag r.etag = some x.2 ∧ r.readRaises = false := by
  simp only [readBody, bind_eq_ok, orElse_eq_ok, require_eq_ok, pure_eq_ok, Bool.and_eq_true,
    beq_iff_eq, decide_eq_true_eq, Bool.not_eq_true'] at h
  obtain ⟨stream, hbody, n, hn, _, _, _, hraises, _, ⟨hlen, hmax⟩, etag, hetag, rfl⟩ := h
  have hstream : stream.take (maxBytes + 1) = stream := by
    rw [List.length_take] at hmax
    exact List.take_of_length_le (by omega)
  rw [hstream] at hlen ⊢
  exact ⟨hbody, by rw [hn, hlen], hetag, hraises⟩

theorem readBody_complete {maxBytes : Nat} {r : GetResponse} {x : Bytes × Str}
    (h : readBody maxBytes r = .ok x) : r.complete := by
  obtain ⟨hbody, hlen, hetag, hraises⟩ := readBody_eq_ok h
  exact ⟨hraises, x.1, x.2, hbody, hlen, hetag⟩

/-! ### Failures that are not a missing record -/

/-- The result is not the failure that says a record is missing. -/
def NotMissing {α : Type} (r : Except Exn α) : Prop := ∀ e, r = .error e → e.isMissing = false

theorem notMissing_require {c : Bool} {e : Exn} (he : e.isMissing = false) :
    NotMissing (require c e) := by
  intro e' h
  obtain ⟨-, rfl⟩ := require_eq_error.mp h
  exact he

theorem notMissing_readBody (maxBytes : Nat) (r : GetResponse) : NotMissing (readBody maxBytes r) := by
  intro e h
  simp only [readBody, bind_eq_error, orElse_eq_error, require_eq_error, pure_ne_error] at h
  rcases h with ⟨-, rfl⟩ | ⟨_, -, ⟨-, rfl⟩ | ⟨_, -, ⟨-, rfl⟩ | ⟨_, -, ⟨-, rfl⟩ | ⟨_, -, ⟨-, rfl⟩ |
    ⟨_, -, ⟨-, rfl⟩ | ⟨_, -, h⟩⟩⟩⟩⟩⟩
  · rfl
  · rfl
  · rfl
  · rfl
  · rfl
  · rfl
  · cases h

theorem notMissing_serviceReading (started maxSeconds : Rat) (r : Reply (Option Rat)) :
    NotMissing (serviceReading started maxSeconds r) := by
  intro e h
  unfold serviceReading at h
  split at h
  · cases h; rfl
  · obtain ⟨-, rfl⟩ := require_eq_error.mp h; rfl
  · cases h; rfl

theorem notMissing_operationReading (started maxSeconds : Rat) (r : Reply (Option Rat)) :
    NotMissing (operationReading started maxSeconds r) := by
  intro e h
  unfold operationReading at h
  split at h
  · cases h; rfl
  · obtain ⟨-, rfl⟩ := require_eq_error.mp h; rfl
  · cases h; rfl

theorem ends_checkOperationDeadline (d : Deadline) : Ends NotMissing (checkOperationDeadline d) := by
  cases d with
  | none => exact Ends.pure fun e h => nomatch h
  | service started maxSeconds =>
      refine Ends.bind (Ends.perform fun r e h => nomatch h) fun r => Ends.lift ?_
      exact notMissing_serviceReading started maxSeconds r
  | operation started maxSeconds =>
      refine Ends.bind (Ends.perform fun r e h => nomatch h) fun r => Ends.lift ?_
      exact notMissing_operationReading started maxSeconds r

theorem ends_bodyDeadline (d : Deadline) : Ends NotMissing (bodyDeadline d) := by
  refine Ends.prog_bind (ends_checkOperationDeadline d) fun r hr => ?_
  cases r with
  | ok a => exact fun e h => nomatch h
  | error e =>
      dsimp only
      split
      · exact Ends.throw fun e' h => by cases h; exact hr e rfl
      · exact Ends.throw fun e' h => by cases h; rfl

/-! ### Reading a record -/

namespace Setting

variable {X : Setting} {I : State → Prop} (policy : CheckpointPolicy) (d : Deadline)

theorem checkOperationDeadline (hI : X.Kept I) {s : State} (hs : I s) :
    X.Does (checkOperationDeadline d) (fun r s => I s ∧ NotMissing r) s :=
  Sat.ends (X.reading (reading_checkOperationDeadline d) hI hs) (ends_checkOperationDeadline d)

/-- What a read found: `J` of the record, or `N` of its absence. -/
def Found (J : Bytes × Str → State → Prop) (N : State → Prop) (r : Except Exn (Bytes × Str))
    (s : State) : Prop :=
  match r with
  | .ok x => J x s
  | .error e => e.isMissing = true → N s

variable {J : Bytes × Str → State → Prop} {N : State → Prop}

theorem Found.of_error {e : Exn} (h : e.isMissing = false) (s : State) : Found J N (.error e) s := by
  intro hm
  rw [h] at hm
  cases hm

/-- A part that only checks: it keeps what is kept, and does not say that a record is missing. -/
theorem check {α β : Type} {x : M α} {f : α → M β} (hx : X.Does x (fun r s => I s ∧ NotMissing r) s)
    {Q : Except Exn β → State → Prop} (hf : ∀ a s, I s → X.Does (f a) Q s)
    (he : ∀ e s, I s → e.isMissing = false → Q (.error e) s) : X.Does (x >>= f : M β) Q s := by
  refine Sat.bind (Sat.mono ?_ hx)
  rintro (e | a) s ⟨hs, hno⟩
  · exact he e s hs (hno e rfl)
  · exact hf a s hs

theorem liftCheck {α β : Type} {x : Except Exn α} {f : α → M β} (hx : NotMissing x)
    {Q : Except Exn β → State → Prop} {s : State} (hf : ∀ a, x = .ok a → X.Does (f a) Q s)
    (he : ∀ e, e.isMissing = false → Q (.error e) s) : X.Does (lift x >>= f : M β) Q s :=
  Sat.lift_bind hf fun e h => he e (hx e h)

/-- The part of `readControl` that follows the answer. -/
theorem readResponse (hI : X.Kept I) {s : State} (hs : I s) {maxBytes : Nat} {response : GetResponse}
    (hJ : ∀ x, X.Kept (J x))
    (hok : ∀ x, response.complete → response.body = some x.1 → parseEtag response.etag = some x.2 → J x s) :
    X.Does (do
      bodyDeadline d
      let result ← lift (readBody maxBytes response)
      lift (require (!response.closeRaises) (gatewayFailure "control_close_failed"))
      Checkpoints.checkOperationDeadline d
      return result : M (Bytes × Str)) (fun r s => I s ∧ Found J N r s) s := by
  let G : State → Prop := fun s => I s ∧ ∀ x, response.complete → response.body = some x.1 →
    parseEtag response.etag = some x.2 → J x s
  have hG : X.Kept G := hI.and (.all fun x => .imp _ (.imp _ (.imp _ (hJ x))))
  have hfail : ∀ e s, G s → e.isMissing = false →
      I s ∧ Found J N (.error e : Except Exn (Bytes × Str)) s := fun e s hs he =>
    ⟨hs.1, Found.of_error he s⟩
  refine check (I := G) (Sat.ends (X.reading (reading_bodyDeadline d) hG ⟨hs, hok⟩) (ends_bodyDeadline d))
    (fun _ s hs => ?_) hfail
  refine liftCheck (notMissing_readBody _ _) (fun x hx => ?_) fun e => hfail e s hs
  refine liftCheck (notMissing_require rfl) (fun _ _ => ?_) fun e => hfail e s hs
  refine check (I := G) (checkOperationDeadline d hG hs) (fun _ s hs => ?_) hfail
  obtain ⟨hbody, -, hetag, -⟩ := readBody_eq_ok hx
  exact Sat.pure ⟨hs.1, hs.2 x (readBody_complete hx) hbody hetag⟩

/-- A record is reported missing only when there is none. -/
theorem missing_reply {t : Nat} {s : State} {key : ControlKey} {reply : GetReply} {w : World} {e : Exn}
    (h : answers t s (.getObject key) reply w) (he : getReply reply = .error e)
    (hm : e.isMissing = true) : s.world.store.get key = none := by
  cases reply with
  | clientError code =>
      simp only [getReply, Except.error.injEq] at he
      subst he
      cases code with
      | none => simp [Exn.isMissing, gatewayFailure, Exn.code?] at hm
      | some code =>
          by_cases hc : code ∈ missingCodes
          · exact h.2 hc
          · simp [hc, Exn.isMissing, gatewayFailure, Exn.code?] at hm
  | ok r => cases he
  | malformed => cases he; cases hm
  | raised => cases he; cases hm
  | interrupt => cases he; cases hm

/-- **Reading a record.**  What is kept while others run, and follows from what the bucket holds
under the key, follows from what the method returns. -/
theorem readControl (hI : X.Kept I) {s : State} (hs : I s) {key : ControlKey} {maxBytes : Nat}
    (hJ : ∀ x, X.Kept (J x)) (hok : ∀ s x, I s → s.world.store.get key = some ⟨x.1, x.2⟩ → J x s)
    (hnone : ∀ s, I s → s.world.store.get key = none → N s) :
    X.Does (readControl policy d key maxBytes) (fun r s => I s ∧ Found J N r s) s := by
  have hfail : ∀ e s, I s → e.isMissing = false →
      I s ∧ Found J N (.error e : Except Exn (Bytes × Str)) s := fun e s hs he =>
    ⟨hs, Found.of_error he s⟩
  unfold Checkpoints.readControl
  refine liftCheck (notMissing_require rfl) (fun _ _ => ?_) fun e => hfail e s hs
  refine liftCheck (notMissing_require rfl) (fun _ _ => ?_) fun e => hfail e s hs
  refine check (checkOperationDeadline d hI hs) (fun _ s hs => ?_) hfail
  refine Sat.bind (X.perform rfl hI hs fun s reply w hs hstep hs' => ?_)
  have hanswer := X.answered hstep
  have hworld : (s.next X.thread (.getObject key) reply w).world = s.world := answers_read rfl hanswer
  refine Sat.lift_bind (fun response hr => ?_) fun e he => ?_
  · refine readResponse d hI hs' hJ fun x hc hbody hetag => hok _ x hs' ?_
    cases reply with
    | ok r =>
        cases hr
        rw [hworld]
        exact hanswer.2 hc _ _ hbody hetag
    | _ => cases hr
  · refine ⟨hs', fun hm => hnone _ hs' ?_⟩
    rw [hworld]
    exact missing_reply hanswer he hm

/-! ### Writing a record -/

/-- **Writing a record.**  `K` is what the write, whether or not it takes effect, makes of `I`; a
write that succeeds is stored under the ETag it returns. -/
theorem writeControl (hI : X.Kept I) {s : State} (hs : I s) {key : ControlKey} {body : Bytes}
    {condition : PutCondition} {K : State → Prop} {J : Str → State → Prop} (hK : X.Kept K)
    (hput : ∀ s r w, I s → X.step X.thread s (.putObject key body condition) r w →
      X.guar s (.putObject key body condition) r (s.next X.thread _ r w) ∧ K (s.next X.thread _ r w))
    (hJ : ∀ etag, X.Kept (J etag))
    (hok : ∀ s etag, K s → s.world.store.get key = some ⟨body, etag⟩ → J etag s) :
    X.Does (writeControl policy d key body condition) (fun r s => match r with
      | .ok etag => K s ∧ J etag s
      | .error _ => I s ∨ K s) s := by
  unfold Checkpoints.writeControl
  refine Sat.lift_bind (fun _ _ => ?_) fun _ _ => .inl hs
  refine Sat.lift_bind (fun _ _ => ?_) fun _ _ => .inl hs
  refine check (checkOperationDeadline d hI hs) (fun _ s hs => ?_) fun _ _ hs _ => .inl hs
  refine Sat.bind (Sat.perform fun s' hu r w hstep => ?_)
  obtain ⟨hguar, hs'⟩ := hput s' r w (hI.rely hs hu) hstep
  refine ⟨hguar, Sat.lift_bind (fun etag _ => ?_) fun _ _ => .inr hs'⟩
  refine check (checkOperationDeadline d hK hs') (fun _ s hs => ?_) fun _ _ hs _ => .inr hs
  refine Sat.bind (Sat.mono ?_ (readControl (J := fun x s => x.1 = body → J x.2 s)
    (N := fun _ => True) policy d hK hs (fun x => .imp _ (hJ x.2)) ?_ fun _ _ _ => trivial))
  · rintro (e | x) s ⟨hs, hfound⟩
    · exact .inr hs
    · refine Sat.lift_bind (fun _ h => ?_) fun _ _ => .inr hs
      simp only [require_eq_ok, Bool.and_eq_true, beq_iff_eq] at h
      obtain ⟨hbody, rfl⟩ := h
      exact Sat.pure ⟨hs, hfound hbody⟩
  · rintro s ⟨x, etag⟩ hs hstored rfl
    exact hok s etag hs hstored

theorem replaceLease (hI : X.Kept I) {s : State} (hs : I s) {key : ControlKey} {body : Bytes}
    {etag : Str} {K : State → Prop} {J : Str → State → Prop} (hK : X.Kept K)
    (hput : ∀ s r w, I s → X.step X.thread s (.putObject key body (.ifMatch etag)) r w →
      X.guar s (.putObject key body (.ifMatch etag)) r (s.next X.thread _ r w) ∧
        K (s.next X.thread _ r w))
    (hJ : ∀ etag, X.Kept (J etag))
    (hok : ∀ s etag, K s → s.world.store.get key = some ⟨body, etag⟩ → J etag s) :
    X.Does (replaceLease policy d key etag body) (fun r s => match r with
      | .ok etag => K s ∧ J etag s
      | .error _ => I s ∨ K s) s := by
  refine Sat.lift_bind (fun _ _ => ?_) fun _ _ => .inl hs
  exact writeControl policy d hI hs hK hput hJ hok

/-! ### Locks -/

/-- **Holding a lock.**  The body runs with the lock, and what holds after it, kept while others
run, holds when the lock is released. -/
theorem withLock {α : Type} {c : Str} {body : M α} (hI : X.Kept I) {s : State} (hs : I s)
    {B Q : Except Exn α → State → Prop} (hB : ∀ r, X.Kept (B r))
    (hhold : ∀ s a w, I s → X.step X.thread s (.hold c) a w →
      X.guar s (.hold c) a (s.next X.thread _ a w) ∧ X.Does body B (s.next X.thread _ a w))
    (hrelease : ∀ r s a w, B r s → X.step X.thread s (.release c) a w →
      X.guar s (.release c) a (s.next X.thread _ a w) ∧ Q r (s.next X.thread _ a w))
    (hfail : ∀ e s, I s → Q (.error e) s) : X.Does (Checkpoints.withLock c body) Q s := by
  refine Sat.lift_bind (fun _ _ => ?_) fun e _ => hfail e s hs
  refine Sat.bind (Sat.perform fun s hu a w hstep => ?_)
  obtain ⟨hguar, hbody⟩ := hhold s a w (hI.rely hs hu) hstep
  refine ⟨hguar, Sat.bind (Sat.attempt (Sat.mono (fun r s hr => ?_) hbody))⟩
  refine Sat.bind (Sat.perform fun s hu a w hstep => ?_)
  obtain ⟨hguar, hq⟩ := hrelease r s a w ((hB r).rely hr hu) hstep
  exact ⟨hguar, hq⟩

end Setting

end Checkpoints
