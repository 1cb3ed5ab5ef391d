/-
A terminal request during which nothing fails.

`healthy` narrows the answers of a sequential run: the store returns what it holds and
takes every write whose condition holds, the clocks can be read, and the deadline is not
reached.  What a method does there is determined but for the ETags, which the store makes
up.
-/
import DataEngLab.Checkpoints.TerminalRuns
import DataEngLab.Checkpoints.LeaseClocks

namespace Checkpoints

open Lib

/-- The ETag as the store reports it. -/
def quoted (etag : Str) : Json := .str (34 :: etag ++ [34])

theorem parseEtag_quoted (etag : Str) : parseEtag (quoted etag) = if isEtag etag then some etag else none := by
  have hlast : (34 :: (etag ++ [34])).getLast? = some 34 := by
    rw [← List.cons_append]
    exact List.getLast?_concat
  have hlen : 2 ≤ (34 :: (etag ++ [34])).length := by simp
  have hdrop : ((34 :: (etag ++ [34])).drop 1).dropLast = etag := by simp
  simp only [parseEtag, quoted, List.cons_append, hlast, hlen, hdrop, List.head?_cons, and_self, if_true]

/-- A reading that is within the deadline. -/
def Deadline.InTime : Deadline → Rat → Prop
  | .none, _ => True
  | .service started maxSeconds, now => outside now started maxSeconds = false
  | .operation started maxSeconds, now => outside now started maxSeconds = false

/-- The answer to a call that does not fail, at the time `now`. -/
def Healthy (now : Instant) (d : Deadline) (w : World) : (e : Call) → Answer e → Prop
  | .now, r => r = .ok (some now.datetime)
  | .monotonic, r => ∃ reading, r = .ok (some reading) ∧ d.InTime reading
  | .getObject key, r => r = match w.store.get key with
      | some v => .ok ⟨some v.body, some v.body.length, quoted v.etag, false, false⟩
      | none => .clientError (some "NoSuchKey")
  | .putObject key _ condition, r => condition.Holds (w.store.get key) →
      ∃ etag, isEtag etag = true ∧ r = .ok (quoted etag)
  | _, _ => True

/-- The calls of one thread at the time `now`, with nothing else running and nothing failing. -/
def healthy (now : Instant) (d : Deadline) : Step World Call Answer := fun w e r w' =>
  answers 0 ⟨w, []⟩ e r w' ∧ Healthy now d w e r

theorem healthy_sequential {now : Instant} {d : Deadline} {w w' : World} {e : Call} {r : Answer e}
    (h : healthy now d w e r w') : sequential now w e r w' := by
  refine ⟨h.1, ?_⟩
  cases e with
  | now =>
      intro t ht
      rw [show r = .ok (some now.datetime) from h.2] at ht
      exact (Except.ok.inj ht).symm
  | _ => trivial

section
variable {policy : CheckpointPolicy} {d : Deadline} {now : Instant} {w w' : World} {key : ControlKey}

theorem runs_sequential {α : Type} {p : M α} {r : Except Exn α} (h : Runs (healthy now d) p w r w') :
    Runs (sequential now) p w r w' := h.mono fun _ _ _ _ ha => healthy_sequential ha

/-! ### The gateway -/

theorem checkOperationDeadline_healthy {r : Except Exn Unit}
    (h : Runs (healthy now d) (checkOperationDeadline d) w r w') : r = .ok () ∧ w' = w := by
  refine ⟨?_, Reading.runs (reading_checkOperationDeadline d) (runs_sequential h)⟩
  cases d with
  | none => exact (runs_pure.mp h).1
  | service started maxSeconds =>
      obtain ⟨reply, m, hreply, hrest⟩ := runs_perform_bind.mp h
      obtain ⟨reading, rfl, hin⟩ := hreply.2
      obtain ⟨rfl, -⟩ := runs_lift.mp hrest
      simp only [serviceReading, show outside reading started maxSeconds = false from hin, Bool.not_false,
        require_true]
  | operation started maxSeconds =>
      obtain ⟨reply, m, hreply, hrest⟩ := runs_perform_bind.mp h
      obtain ⟨reading, rfl, hin⟩ := hreply.2
      obtain ⟨rfl, -⟩ := runs_lift.mp hrest
      simp only [operationReading, show outside reading started maxSeconds = false from hin, Bool.not_false,
        require_true]

theorem bodyDeadline_healthy {r : Except Exn Unit}
    (h : Runs (healthy now d) (bodyDeadline d) w r w') : r = .ok () ∧ w' = w := by
  rcases runs_handle.mp h with ⟨_, hrun, rfl⟩ | ⟨e, m, hrun, -⟩
  · exact ⟨rfl, (checkOperationDeadline_healthy hrun).2⟩
  · cases (checkOperationDeadline_healthy hrun).1

/-- A record that is there is read. -/
theorem readControl_healthy {maxBytes : Nat} {v : Stored} {r : Except Exn (Bytes × Str)}
    (h : Runs (healthy now d) (readControl policy d key maxBytes) w r w') (hvalid : key.valid = true)
    (hpos : 1 ≤ maxBytes) (hbound : maxBytes ≤ controlBound policy key) (hstored : w.store.get key = some v)
    (hetag : isEtag v.etag = true) (hlen : v.body.length ≤ maxBytes) : r = .ok (v.body, v.etag) ∧ w' = w := by
  refine ⟨?_, Reading.runs (reading_readControl ..) (runs_sequential h)⟩
  have hbounded := (h.lift_bind_of (a := ()) (require_eq_ok.mpr hvalid)).lift_bind_of
    (a := ()) (by simp only [hpos, hbound, decide_true, Bool.and_self, require_true])
  obtain ⟨_, m, hm, hcall⟩ := hbounded.bind_of (Q := fun _ m => m = w) fun r' m hrun =>
    ⟨(), checkOperationDeadline_healthy hrun⟩
  subst hm
  obtain ⟨reply, n, hget, hreply⟩ := runs_perform_bind.mp hcall
  obtain rfl : reply = .ok ⟨some v.body, some v.body.length, quoted v.etag, false, false⟩ := by
    have hg := hget.2
    simp only [Healthy, hstored] at hg
    exact hg
  have hread := hreply.lift_bind_of rfl
  obtain ⟨_, n', -, hbody⟩ := hread.bind_of (Q := fun _ _ => True) fun r' m hrun =>
    ⟨(), (bodyDeadline_healthy hrun).1, trivial⟩
  have hok : readBody maxBytes ⟨some v.body, some v.body.length, quoted v.etag, false, false⟩ =
      .ok (v.body, v.etag) := by
    have htake : v.body.take (maxBytes + 1) = v.body := List.take_of_length_le (by omega)
    simp only [readBody, bind_eq_ok, orElse_eq_ok, require_eq_ok, pure_eq_ok]
    exact ⟨v.body, rfl, v.body.length, rfl, (), by simpa using hlen, (), rfl, (), by simpa [htake] using hlen,
      v.etag, by rw [parseEtag_quoted, if_pos hetag], by rw [htake]⟩
  obtain ⟨_, n'', -, hend⟩ := ((hbody.lift_bind_of hok).lift_bind_of (a := ()) rfl).bind_of (Q := fun _ _ => True)
    fun r' m hrun => ⟨(), (checkOperationDeadline_healthy hrun).1, trivial⟩
  exact (runs_pure.mp hend).1

/-- A record that is not there is reported missing. -/
theorem readControl_missing {maxBytes : Nat} {r : Except Exn (Bytes × Str)}
    (h : Runs (healthy now d) (readControl policy d key maxBytes) w r w') (hvalid : key.valid = true)
    (hpos : 1 ≤ maxBytes) (hbound : maxBytes ≤ controlBound policy key) (hstored : w.store.get key = none) :
    r = .error (gatewayFailure "control_missing") ∧ w' = w := by
  refine ⟨?_, Reading.runs (reading_readControl ..) (runs_sequential h)⟩
  have hbounded := (h.lift_bind_of (a := ()) (require_eq_ok.mpr hvalid)).lift_bind_of
    (a := ()) (by simp only [hpos, hbound, decide_true, Bool.and_self, require_true])
  obtain ⟨_, m, hm, hcall⟩ := hbounded.bind_of (Q := fun _ m => m = w) fun r' m hrun =>
    ⟨(), checkOperationDeadline_healthy hrun⟩
  subst hm
  obtain ⟨reply, n, hget, hreply⟩ := runs_perform_bind.mp hcall
  obtain rfl : reply = .clientError (some "NoSuchKey") := by
    have hg := hget.2
    simp only [Healthy, hstored] at hg
    exact hg
  rcases runs_lift_bind.mp hreply with ⟨e, he, rfl, -⟩ | ⟨_, he, -⟩
  · cases he; rfl
  · cases he

/-- A write whose condition holds is stored under the ETag it returns. -/
theorem writeControl_healthy {body : Bytes} {condition : PutCondition} {r : Except Exn Str}
    (h : Runs (healthy now d) (writeControl policy d key body condition) w r w') (hvalid : key.valid = true)
    (hpos : 1 ≤ body.length) (hbound : body.length ≤ controlBound policy key)
    (hcondition : condition.Holds (w.store.get key)) :
    ∃ etag, r = .ok etag ∧ isEtag etag = true ∧ w' = w.put key ⟨body, etag⟩ := by
  have hne : body.isEmpty = false := by
    cases body with
    | nil => simp at hpos
    | cons b bs => rfl
  have hbounded := (h.lift_bind_of (a := ()) (require_eq_ok.mpr hvalid)).lift_bind_of
    (a := ()) (by simp only [hne, hbound, decide_true, Bool.not_false, Bool.and_self, require_true])
  obtain ⟨_, m, hm, hcall⟩ := hbounded.bind_of (Q := fun _ m => m = w) fun r' m hrun =>
    ⟨(), checkOperationDeadline_healthy hrun⟩
  subst hm
  obtain ⟨reply, n, hput, hreply⟩ := runs_perform_bind.mp hcall
  obtain ⟨etag, hetag, rfl⟩ := hput.2 hcondition
  have hok : putReply (.ok (quoted etag)) = .ok etag := by
    simp only [putReply, parseEtag_quoted, hetag, if_true, orElse]
  obtain ⟨-, rfl⟩ := answers_put_ok hput.1 hok
  obtain ⟨_, m', hm', hback⟩ := (hreply.lift_bind_of hok).bind_of (Q := fun _ n => n = m.put key ⟨body, etag⟩)
    fun r' m hrun => ⟨(), checkOperationDeadline_healthy hrun⟩
  subst hm'
  obtain ⟨x, m'', ⟨rfl, rfl⟩, hcompare⟩ := hback.bind_of
    (Q := fun x n => x = (body, etag) ∧ n = m.put key ⟨body, etag⟩) fun r' n hrun => by
      obtain ⟨hr, hn⟩ := readControl_healthy hrun hvalid hpos hbound (v := ⟨body, etag⟩) (by simp) hetag le_rfl
      exact ⟨_, hr, rfl, hn⟩
  have hsame : require (body == body && etag == etag) (gatewayFailure "control_readback_mismatch") = .ok () := by
    simp
  obtain ⟨rfl, rfl⟩ := runs_pure.mp (hcompare.lift_bind_of hsame)
  exact ⟨etag, rfl, hetag, rfl⟩

/-! ### Leases and terminal records -/

/-- The text of an object is not empty. -/
theorem canonicalSummary_pos {fields : List (String × Json)} {body : Bytes}
    (h : canonicalSummary policy (object fields) = .ok body) : 1 ≤ body.length := by
  obtain ⟨-, -, -, -, -, s, hs, -, rfl⟩ := canonicalJsonBytes_eq_ok.mp h
  obtain ⟨-, rfl⟩ := dumps_eq_some.mp hs
  rw [asciiBytes_length, object_eq, sortKeys_obj]
  cases sortedMembers (members fields) with
  | nil => simp [Json.print]
  | cons kv kvs => simp [Json.print]

theorem decodeLease_length {body : Bytes} {l : Lease} (h : decodeLease policy body = .ok l) :
    body.length ≤ policy.bounds.maxSummaryBytes := by
  obtain ⟨kvs, hkvs, -⟩ := decodeLease_eq_ok.mp h
  simp only [decodeExactJson, bind_eq_ok, require_eq_ok, decide_eq_true_eq] at hkvs
  obtain ⟨_, hlen, -⟩ := hkvs
  exact hlen

theorem requiredLease_healthy {c : Str} {v : Stored} {l : Lease} {r : Except Exn (Lease × Bytes × Str)}
    (h : Runs (healthy now d) (requiredLease policy d (.lease c)) w r w')
    (hvalid : (ControlKey.lease c).valid = true) (hpos : 1 ≤ policy.bounds.maxSummaryBytes)
    (hstored : w.store.get (.lease c) = some v) (hetag : isEtag v.etag = true)
    (hdecodes : decodeLease policy v.body = .ok l) : r = .ok (l, v.body, v.etag) ∧ w' = w := by
  obtain ⟨⟨body, etag⟩, m, ⟨hx, rfl⟩, hrest⟩ := h.bind_of (Q := fun x m => x = (v.body, v.etag) ∧ m = w)
    fun r' m hrun => by
      rcases runs_handle.mp hrun with ⟨x, hread, rfl⟩ | ⟨e, m', hread, -⟩
      · obtain ⟨hr, hm⟩ := readControl_healthy hread hvalid hpos le_rfl hstored hetag
          (decodeLease_length hdecodes)
        exact ⟨x, rfl, Except.ok.inj hr, hm⟩
      · cases (readControl_healthy hread hvalid hpos le_rfl hstored hetag (decodeLease_length hdecodes)).1
  cases hx
  obtain ⟨hr, rfl⟩ := runs_pure.mp (hrest.lift_bind_of hdecodes)
  exact ⟨hr, rfl⟩

/-- An active lease of the request is ended. -/
theorem endLease_healthy {request : TerminalRequest} {v : Stored} {l : Lease} {body : Bytes}
    {r : Except Exn LeaseResult} (h : Runs (healthy now d) (endLease policy d request) w r w')
    (hstored : w.store.get (.lease request.checkpointId) = some v) (hending : Ending policy request v l now body) :
    ∃ etag, r = .ok ⟨request.epoch, etag, body⟩ ∧ isEtag etag = true ∧
      w' = w.put (.lease request.checkpointId) ⟨body, etag⟩ := by
  obtain ⟨expires, hexpires, hbody⟩ := hending.written
  have hlen : body.length ≤ policy.bounds.maxSummaryBytes := canonicalJsonBytes_length hbody
  have hpos : 1 ≤ body.length := canonicalSummary_pos hbody
  have hidentity : requireIdentity l request.checkpointId request.keyPrefix = .ok () := by
    simp only [requireIdentity, hending.checkpointId, hending.keyPrefix, beq_self_eq_true, Bool.and_self,
      require_true]
  have hepoch : require (l.epoch == request.epoch) (Exn.lease "lease_identity_mismatch") = .ok () := by
    rw [hending.epoch, beq_self_eq_true, require_true]
  have hread : ∀ (r' : Except Exn (Lease × Bytes × Str)) m,
      Runs (healthy now d) (requiredLease policy d (.lease request.checkpointId)) w r' m →
      ∃ x, r' = .ok x ∧ x = (l, v.body, v.etag) ∧ m = w := fun r' m hrun =>
    ⟨_, (requiredLease_healthy hrun hending.valid (by omega) hstored hending.etag hending.decodes).1, rfl,
      (requiredLease_healthy hrun hending.valid (by omega) hstored hending.etag hending.decodes).2⟩
  obtain ⟨x, m, ⟨rfl, rfl⟩, hrest⟩ := h.bind_of (Q := fun x m => x = (l, v.body, v.etag) ∧ m = w) hread
  have hend := (hrest.lift_bind_of hidentity).lift_bind_of hepoch
  simp only [hending.active, if_true] at hend
  -- the transition reads the lease again
  obtain ⟨t, m', ⟨rfl, rfl⟩, hagain⟩ := hend.bind_of (Q := fun t n => t = now ∧ n = m) fun r' n hrun => by
    obtain ⟨reply, n', hreply, hlast⟩ := runs_perform_bind.mp hrun
    have hclock : reply = .ok (some now.datetime) := hreply.2
    subst hclock
    obtain ⟨rfl, rfl⟩ := runs_lift.mp hlast
    exact ⟨now, rfl, rfl, hreply.1⟩
  obtain ⟨x, m, ⟨rfl, rfl⟩, htransition⟩ := hagain.bind_of
    (Q := fun x m => x = (l, v.body, v.etag) ∧ m = m') hread
  have hwrite := ((((htransition.lift_bind_of hidentity).lift_bind_of hepoch).lift_bind_of
    (a := ()) (by rw [hending.active, require_true])).lift_bind_of hexpires).lift_bind_of hbody
  obtain ⟨etag, n, ⟨hetag, rfl⟩, hend⟩ := hwrite.bind_of
    (Q := fun etag n => isEtag etag = true ∧ n = m.put (.lease request.checkpointId) ⟨body, etag⟩)
    fun r' n hrun => by
      have hput : ∀ {r'' : Except Exn Str} {n}, Runs (healthy t d)
          (replaceLease policy d (.lease request.checkpointId) v.etag body) m r'' n →
          ∃ etag, r'' = .ok etag ∧ isEtag etag = true ∧ n = m.put (.lease request.checkpointId) ⟨body, etag⟩ :=
        fun hrun => writeControl_healthy (hrun.lift_bind_of (a := ()) (require_eq_ok.mpr hending.etag))
          hending.valid hpos hlen ⟨v, hstored, rfl⟩
      rcases runs_handle.mp hrun with ⟨etag, hrun', rfl⟩ | ⟨e, n', hrun', -⟩
      · obtain ⟨etag', he, hetag, hn⟩ := hput hrun'
        cases he
        exact ⟨etag, rfl, hetag, hn⟩
      · obtain ⟨_, he, -⟩ := hput hrun'
        cases he
  obtain ⟨rfl, rfl⟩ := runs_pure.mp hend
  exact ⟨etag, rfl, hetag, rfl⟩

/-- A lease that the same request ended before is left as it is. -/
theorem endLease_resumed {request : TerminalRequest} {v : Stored} {l : Lease}
    {r : Except Exn LeaseResult} (h : Runs (healthy now d) (endLease policy d request) w r w')
    (hvalid : (ControlKey.lease request.checkpointId).valid = true)
    (hpos : 1 ≤ policy.bounds.maxSummaryBytes)
    (hstored : w.store.get (.lease request.checkpointId) = some v) (hetag : isEtag v.etag = true)
    (hresumed : Resumed policy request v l) : r = .ok ⟨request.epoch, v.etag, v.body⟩ ∧ w' = w := by
  obtain ⟨x, m, ⟨rfl, rfl⟩, hrest⟩ := h.bind_of (Q := fun x m => x = (l, v.body, v.etag) ∧ m = w) fun r' m hrun =>
    ⟨_, (requiredLease_healthy hrun hvalid hpos hstored hetag hresumed.decodes).1, rfl,
      (requiredLease_healthy hrun hvalid hpos hstored hetag hresumed.decodes).2⟩
  have hidentity : requireIdentity l request.checkpointId request.keyPrefix = .ok () := by
    simp only [requireIdentity, hresumed.checkpointId, hresumed.keyPrefix, beq_self_eq_true, Bool.and_self,
      require_true]
  have hepoch : require (l.epoch == request.epoch) (Exn.lease "lease_identity_mismatch") = .ok () := by
    rw [hresumed.epoch, beq_self_eq_true, require_true]
  have hend := (hrest.lift_bind_of hidentity).lift_bind_of hepoch
  simp only [hresumed.ended, Bool.false_eq_true, if_false, hresumed.state, hresumed.evidence, and_self, if_true]
    at hend
  obtain ⟨hr, rfl⟩ := runs_pure.mp hend
  exact ⟨hr, rfl⟩

/-- What is stored under a key, if anything, is a record that `readSummary` accepts. -/
def Summarized (policy : CheckpointPolicy) (o : Option Stored) : Prop :=
  ∀ v, o = some v → isEtag v.etag = true ∧ v.body.length ≤ policy.bounds.maxSummaryBytes

theorem storeTerminal_healthy {c : Str} {body : Bytes} {r : Except Exn Unit}
    (h : Runs (healthy now d) (storeTerminal policy d (.terminal c) body) w r w')
    (hvalid : (ControlKey.terminal c).valid = true) (hpos : 1 ≤ body.length)
    (hbound : body.length ≤ policy.bounds.maxSummaryBytes)
    (hstored : Summarized policy (w.store.get (.terminal c))) :
    r = .ok () ∧ (∃ etag, w'.store.get (.terminal c) = some ⟨body, etag⟩) ∧
      ∀ key, key ≠ .terminal c → w'.store.get key = w.store.get key := by
  obtain ⟨outcome, m, hread, hrest⟩ := runs_attempt_bind.mp h
  have hput : ∀ {x : M Str}, (∀ r n, Runs (healthy now d) x w r n →
      ∃ etag, r = .ok etag ∧ isEtag etag = true ∧ n = w.put (.terminal c) ⟨body, etag⟩) →
      Runs (healthy now d) (do let _ ← x : M Unit) w r w' →
      r = .ok () ∧ (∃ etag, w'.store.get (.terminal c) = some ⟨body, etag⟩) ∧
        ∀ key, key ≠ .terminal c → w'.store.get key = w.store.get key := by
    intro x hx hrun
    obtain ⟨etag, n, rfl, hend⟩ := hrun.bind_of (Q := fun etag n => n = w.put (.terminal c) ⟨body, etag⟩)
      fun r n hn => by
        obtain ⟨etag, hr, -, hput⟩ := hx r n hn
        exact ⟨etag, hr, hput⟩
    obtain ⟨rfl, rfl⟩ := runs_pure.mp hend
    refine ⟨rfl, ⟨etag, by simp⟩, fun key hkey => ?_⟩
    simp [hkey.symm]
  rcases hw : w.store.get (.terminal c) with _ | v
  · obtain ⟨rfl, rfl⟩ := readControl_missing hread hvalid (by omega) le_rfl hw
    have hnone : PutCondition.ifNoneMatch.Holds (m.store.get (.terminal c)) := hw
    exact hput (fun r n hrun => writeControl_healthy hrun hvalid hpos hbound hnone) hrest
  · obtain ⟨hetag, hlen⟩ := hstored v hw
    obtain ⟨rfl, rfl⟩ := readControl_healthy hread hvalid (by omega) le_rfl hw hetag hlen
    dsimp only at hrest
    split at hrest
    · rename_i hsame
      obtain ⟨rfl, rfl⟩ := runs_pure.mp hrest
      exact ⟨rfl, ⟨v.etag, by rw [hw, ← hsame]⟩, fun _ _ => rfl⟩
    · have hmatch : (PutCondition.ifMatch v.etag).Holds (m.store.get (.terminal c)) := ⟨v, hw, rfl⟩
      exact hput (fun r n hrun => writeControl_healthy
        (hrun.lift_bind_of (a := ()) (require_eq_ok.mpr hetag)) hvalid hpos hbound hmatch) hrest

theorem persistTerminal_healthy {request : TerminalRequest} {leaseBody body : Bytes} {r : Except Exn Unit}
    (h : Runs (healthy now d) (persistTerminal policy d request leaseBody) w r w')
    (hvalid : (ControlKey.terminal request.checkpointId).valid = true)
    (hbody : terminalBody policy request leaseBody = .ok body)
    (hstored : Summarized policy (w.store.get (.terminal request.checkpointId))) :
    r = .ok () ∧ (∃ etag, w'.store.get (.terminal request.checkpointId) = some ⟨body, etag⟩) ∧
      ∀ key, key ≠ .terminal request.checkpointId → w'.store.get key = w.store.get key := by
  rw [persistTerminal_eq] at h
  have hwritten : ∃ lease, canonicalSummary policy (terminalRecord request lease) = .ok body := by
    simp only [terminalBody, bind_eq_ok] at hbody
    obtain ⟨lease, -, _, -, hwritten⟩ := hbody
    exact ⟨lease, hwritten⟩
  obtain ⟨lease, hwritten⟩ := hwritten
  have hpos : 1 ≤ body.length := canonicalSummary_pos hwritten
  have hlen : body.length ≤ policy.bounds.maxSummaryBytes := canonicalJsonBytes_length hwritten
  rcases runs_handle.mp (h.lift_bind_of hbody) with ⟨_, hrun, rfl⟩ | ⟨e, m, hrun, -⟩
  · exact storeTerminal_healthy hrun hvalid hpos hlen hstored
  · cases (storeTerminal_healthy hrun hvalid hpos hlen hstored).1

/-! ### There is such a run -/

/-- A call that is not of a lock. -/
def Call.unlocking : Call → Prop
  | .hold _ => False
  | .release _ => False
  | _ => True

theorem Call.unlocking_of_reads {e : Call} (h : e.reads = true) : e.unlocking := by
  cases e with
  | hold c => cases h
  | release c => cases h
  | _ => trivial

theorem healthy_get (w : World) (key : ControlKey) :
    ∃ r, healthy now .none w (.getObject key) r w := by
  rcases hw : w.store.get key with _ | v
  · exact ⟨.clientError (some "NoSuchKey"), ⟨rfl, fun _ => hw⟩, by simp only [Healthy, hw]; rfl⟩
  · refine ⟨.ok ⟨some v.body, some v.body.length, quoted v.etag, false, false⟩, ⟨rfl, fun _ => ?_⟩, by
      simp only [Healthy, hw]; rfl⟩
    rintro body etag hbody hetag
    obtain rfl : v.body = body := Option.some.inj hbody
    rw [parseEtag_quoted, Option.ite_none_right_eq_some] at hetag
    obtain rfl : v.etag = etag := Option.some.inj hetag.2
    exact hw

theorem healthy_put (w : World) (key : ControlKey) (body : Bytes) (condition : PutCondition) :
    ∃ r w', healthy now .none w (.putObject key body condition) r w' ∧ w'.locks = w.locks := by
  by_cases hc : condition.Holds (w.store.get key)
  · have hetag : isEtag (hexText 32 0) = true := by decide
    refine ⟨.ok (quoted (hexText 32 0)), w.put key ⟨body, hexText 32 0⟩, ⟨?_, fun _ => ⟨_, hetag, rfl⟩⟩, rfl⟩
    simp only [answers, parseEtag_quoted, hetag, if_true, and_true]
    exact hc
  · exact ⟨.raised, w, ⟨.inl rfl, fun h => (hc h).elim⟩, rfl⟩

theorem exists_healthy {w : World} {e : Call} (he : e.unlocking) :
    ∃ r w', healthy now .none w e r w' ∧ w'.locks = w.locks := by
  cases e with
  | now => exact ⟨.ok (some now.datetime), w, ⟨rfl, rfl⟩, rfl⟩
  | monotonic => exact ⟨.ok (some 0), w, ⟨rfl, 0, rfl, trivial⟩, rfl⟩
  | uuid => exact ⟨.raised, w, ⟨rfl, trivial⟩, rfl⟩
  | hold c => exact he.elim
  | release c => exact he.elim
  | listObjects keyPrefix token => exact ⟨.raised, w, ⟨rfl, trivial⟩, rfl⟩
  | headObject key => exact ⟨.raised, w, ⟨rfl, trivial⟩, rfl⟩
  | deleteObjects keys => exact ⟨.raised, w, ⟨rfl, trivial⟩, rfl⟩
  | listAttempts op maxKeys => exact ⟨.raised, w, ⟨rfl, trivial⟩, rfl⟩
  | getObject key =>
      obtain ⟨r, hr⟩ : ∃ r, healthy now .none w (.getObject key) r w := healthy_get w key
      exact ⟨r, w, hr, rfl⟩
  | putObject key body condition => exact healthy_put w key body condition

theorem Reading.unlocking {α : Type} {p : M α} (h : Reading p) : Only Call.unlocking p :=
  Only.mono (fun _ => Call.unlocking_of_reads) h

theorem unlocking_writeControl (body : Bytes) (condition : PutCondition) :
    Only Call.unlocking (writeControl policy d key body condition) :=
  Only.bind Only.lift fun _ => Only.bind Only.lift fun _ =>
    Only.bind (reading_checkOperationDeadline d).unlocking fun _ =>
    Only.bind (Only.perform trivial) fun _ => Only.bind Only.lift fun _ =>
    Only.bind (reading_checkOperationDeadline d).unlocking fun _ =>
    Only.bind (reading_readControl ..).unlocking fun _ => Only.bind Only.lift fun _ => Only.pure

theorem unlocking_replaceLease (etag : Str) (body : Bytes) :
    Only Call.unlocking (replaceLease policy d key etag body) :=
  Only.bind Only.lift fun _ => unlocking_writeControl ..

theorem unlocking_endLease (request : TerminalRequest) : Only Call.unlocking (endLease policy d request) := by
  refine Only.bind (reading_requiredLease _).unlocking fun x => Only.bind Only.lift fun _ =>
    Only.bind Only.lift fun _ => Only.ite (fun _ => ?_) fun _ => Only.ite (fun _ => Only.pure) fun _ => Only.throw
  exact Only.bind reading_leaseNow.unlocking fun _ => Only.bind (reading_requiredLease _).unlocking fun _ =>
    Only.bind Only.lift fun _ => Only.bind Only.lift fun _ => Only.bind Only.lift fun _ =>
    Only.bind Only.lift fun _ => Only.bind Only.lift fun _ =>
    Only.bind (Only.handle (unlocking_replaceLease ..) fun _ => Only.throw) fun _ => Only.pure

theorem unlocking_storeTerminal (body : Bytes) : Only Call.unlocking (storeTerminal policy d key body) := by
  refine Only.bind (Only.attempt (reading_readSummary ..).unlocking) fun outcome => ?_
  cases outcome with
  | ok x => exact Only.ite (fun _ => Only.pure) fun _ => Only.bind (unlocking_replaceLease ..) fun _ => Only.pure
  | error e => exact Only.ite (fun _ => Only.bind (unlocking_writeControl ..) fun _ => Only.pure) fun _ => Only.throw

theorem unlocking_terminalLocked (request : TerminalRequest) :
    Only Call.unlocking (terminalLocked policy d request) :=
  Only.bind (unlocking_endLease request) fun _ => Only.bind (Only.bind Only.lift fun _ =>
    Only.bind Only.lift fun _ => Only.bind Only.lift fun _ =>
    Only.handle (unlocking_storeTerminal _) fun _ => Only.throw) fun _ => Only.pure

/-- The lock of a checkpoint can be had, and given back. -/
theorem exists_withLock {α : Type} {c : Str} {body : M α} (s : Store) (hc : isIdentity c = true)
    (hbody : Only Call.unlocking body) :
    ∃ r w', Runs (healthy now .none) (withLock c body) (idle s) r w' := by
  obtain ⟨r, m, hrun, hlocks⟩ := exists_runs (I := fun w : World => w.locks = ((idle s).setLock c (some (0, 1))).locks)
    (fun w e he hI => by
      obtain ⟨r, w', hr, hw⟩ : ∃ r w', healthy now .none w e r w' ∧ w'.locks = w.locks := exists_healthy he
      exact ⟨r, w', hr, hw.trans hI⟩) hbody rfl
  have hheld : m.locks c = some (0, 1) := by
    rw [hlocks]
    simp [World.setLock]
  refine ⟨r, m.setLock c none, runs_lift_bind.mpr (.inr ⟨(), by rw [hc, require_true], ?_⟩)⟩
  refine runs_perform_bind.mpr ⟨(), _, ⟨rfl, trivial⟩, runs_attempt_bind.mpr ⟨r, m, hrun, ?_⟩⟩
  refine runs_perform_bind.mpr ⟨(), m.setLock c none, ⟨?_, trivial⟩, runs_lift.mpr ⟨rfl, rfl⟩⟩
  simp only [answers, hheld, le_refl, if_true, and_self]

/-- A valid request can be served without a failure. -/
theorem exists_terminal {request : TerminalRequest} (s : Store)
    (hvalid : validateTerminal policy request = .ok ()) (hc : isIdentity request.checkpointId = true) :
    ∃ r w', Runs (healthy now .none) (terminal policy .none request) (idle s) r w' := by
  have hbody : Only Call.unlocking (terminalLocked policy .none request) := unlocking_terminalLocked request
  obtain ⟨r, w', h⟩ : ∃ r w', Runs (healthy now .none) (withLock request.checkpointId (terminalLocked policy .none request))
      (idle s) r w' := exists_withLock s hc hbody
  exact ⟨r, w', runs_lift_bind.mpr (.inr ⟨(), hvalid, h⟩)⟩

end

end Checkpoints
