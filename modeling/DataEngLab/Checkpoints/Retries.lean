/-
Terminal requests that are sent again.

When the store fails between the two writes of a terminal request, the lease is ended and
the terminal record is missing or old.  The request can then be sent again: the lease is
recognized as ended by the same request, and only the record is written.

The recognition compares the evidence as it was decoded from the stored lease with the
evidence as it is held in memory.  Mappings compare as mappings, but a list that was
decoded is a list and one that is held in memory is a tuple, so a request whose evidence
holds a list is not recognized.
-/
import DataEngLab.Checkpoints.Rejections

namespace Checkpoints

open Lib

/-! ### Evidence as it is stored and as it is held -/

mutual
/-- No list, at any depth of mappings. -/
def listFree : Json → Bool
  | .arr _ => false
  | .obj kvs => membersListFree kvs
  | _ => true

def membersListFree : List (Str × Json) → Bool
  | [] => true
  | (_, v) :: kvs => listFree v && membersListFree kvs
end

theorem membersListFree_iff {kvs : List (Str × Json)} :
    membersListFree kvs = true ↔ ∀ kv ∈ kvs, listFree kv.2 = true := by
  induction kvs with
  | nil => simp [membersListFree]
  | cons kv kvs ih =>
      obtain ⟨k, v⟩ := kv
      simp only [membersListFree, Bool.and_eq_true, ih, List.forall_mem_cons]

theorem frozenEqMembers_iff {kvs kvs' : List (Str × Json)} : frozenEqMembers kvs kvs' = true ↔
    ∀ kv ∈ kvs, ∃ kv', (kvs'.find? fun x => x.1 == kv.1) = some kv' ∧ frozenEq kv.2 kv'.2 = true := by
  induction kvs with
  | nil => simp [frozenEqMembers]
  | cons kv kvs ih =>
      obtain ⟨k, v⟩ := kv
      simp only [frozenEqMembers, Bool.and_eq_true, ih, List.forall_mem_cons]
      refine and_congr_left fun _ => ?_
      cases kvs'.find? fun x => x.1 == k with
      | none => simp
      | some kv' => simp

/-- The member that is found under a key that occurs once. -/
theorem find?_of_mem {kvs : List (Str × Json)} (hnd : (kvs.map Prod.fst).Nodup) {kv : Str × Json}
    (h : kv ∈ kvs) : (kvs.find? fun x => x.1 == kv.1) = some kv := by
  induction kvs with
  | nil => cases h
  | cons x kvs ih =>
      rw [List.map_cons, List.nodup_cons] at hnd
      rcases List.mem_cons.mp h with rfl | h
      · simp
      · have hne : (x.1 == kv.1) = false := by
          rw [beq_eq_false_iff_ne]
          intro heq
          exact hnd.1 (heq ▸ List.mem_map_of_mem h)
        rw [List.find?_cons, hne]
        exact ih hnd.2 h

/-- **What is read back equals what is held** exactly when it holds no list. -/
theorem frozenEq_sortKeys (v : Json) : v.Decoded → v.noFloats = true →
    (frozenEq v.sortKeys v = true ↔ listFree v = true) := by
  induction v using Json.induction with
  | atom v hv =>
      intro _ hf
      cases v with
      | float f => cases hf
      | arr xs => simp [Json.nesting] at hv
      | obj kvs => simp [Json.nesting] at hv
      | null => simp [Json.sortKeys, frozenEq, listFree]
      | bool b => cases b <;> decide
      | int n => simp [Json.sortKeys, frozenEq, listFree, Json.isInt]
      | str s => simp [Json.sortKeys, frozenEq, listFree]
  | arr xs ih =>
      intro _ _
      simp [Json.sortKeys, frozenEq, listFree]
  | obj kvs ih =>
      intro hd hf
      simp only [Json.Decoded, decodedMembers_iff] at hd
      simp only [Json.noFloats, noFloatMembers_iff] at hf
      have hlen : (sortedMembers kvs).length = kvs.length := by
        rw [(sortedMembers_perm kvs).length_eq, List.length_map]
      have hmember : ∀ kv ∈ kvs, (frozenEq kv.2.sortKeys kv.2 = true ↔ listFree kv.2 = true) := fun kv hkv =>
        ih kv hkv (hd.2 kv hkv).2 (hf kv hkv)
      rw [sortKeys_obj, frozenEq, hlen, beq_self_eq_true, Bool.true_and, frozenEqMembers_iff, listFree,
        membersListFree_iff]
      constructor
      · intro h kv hkv
        obtain ⟨kv', hfind, heq⟩ := h (kv.1, kv.2.sortKeys) (mem_sortedMembers.mpr ⟨kv.2, hkv, rfl⟩)
        rw [find?_of_mem hd.1 hkv] at hfind
        cases hfind
        exact (hmember kv hkv).mp heq
      · rintro h kv hkv
        obtain ⟨v, hv, hs⟩ := mem_sortedMembers.mp hkv
        refine ⟨(kv.1, v), find?_of_mem hd.1 hv, ?_⟩
        rw [← hs]
        exact (hmember _ hv).mpr (h _ hv)

/-! ### The terminal records of the service -/

/-- A write of a terminal record is within the bound of its reader. -/
def Call.bounded (policy : CheckpointPolicy) (e : Call) : Prop :=
  ∀ c body condition, e = .putObject (.terminal c) body condition → body.length ≤ policy.bounds.maxSummaryBytes

theorem Call.bounded_of_keeps {policy : CheckpointPolicy} {e : Call} (h : e.keeps) : e.bounded policy := by
  rintro c body condition rfl
  rcases h with ⟨op, (hreads | ⟨key, body', he, hop⟩) | ⟨keys, he⟩⟩ | ⟨_, he⟩ | ⟨_, he⟩
  · cases hreads
  · cases he
    cases hop
  all_goals cases he

theorem Reading.bounded {policy : CheckpointPolicy} {α : Type} {p : M α} (h : Reading p) :
    Only (Call.bounded policy) p :=
  Only.mono (fun _ he => Call.bounded_of_keeps (Call.keeps_of_reads he)) h

section
variable (policy : CheckpointPolicy) (d : Deadline)

theorem bounded_writeControl (key : ControlKey) (body : Bytes) (condition : PutCondition) :
    Only (Call.bounded policy) (writeControl policy d key body condition) := by
  refine Only.bind Only.lift fun _ => Only.lift_bind fun _ hbound =>
    Only.bind (reading_checkOperationDeadline d).bounded fun _ => Only.bind (Only.perform ?_) fun _ =>
    Only.bind Only.lift fun _ => Only.bind (reading_checkOperationDeadline d).bounded fun _ =>
    Only.bind (reading_readControl ..).bounded fun _ => Only.bind Only.lift fun _ => Only.pure
  simp only [require_eq_ok, Bool.and_eq_true, decide_eq_true_eq] at hbound
  rintro c body' condition' he
  cases he
  exact hbound.2

theorem bounded_replaceLease (key : ControlKey) (etag : Str) (body : Bytes) :
    Only (Call.bounded policy) (replaceLease policy d key etag body) :=
  Only.bind Only.lift fun _ => bounded_writeControl ..

theorem bounded_withLock {α : Type} (c : Str) {body : M α} (h : Only (Call.bounded policy) body) :
    Only (Call.bounded policy) (withLock c body) :=
  Only.bind Only.lift fun _ => Only.bind (Only.perform fun _ _ _ he => by cases he) fun _ =>
    Only.bind (Only.attempt h) fun _ => Only.bind (Only.perform fun _ _ _ he => by cases he) fun _ => Only.lift

theorem reading_optionalLease (key : ControlKey) : Reading (optionalLease policy d key) := by
  refine Only.bind (Only.attempt (reading_readSummary ..)) fun outcome => ?_
  cases outcome with
  | ok x => exact Only.bind Only.lift fun _ => Only.pure
  | error e => exact Only.ite (fun _ => Only.pure) fun _ => Only.throw

theorem bounded_transitionLocked (c keyPrefix epoch state : Str) (evidence : Option (List (Str × Json))) :
    Only (Call.bounded policy) (transitionLocked policy d c keyPrefix epoch state evidence) :=
  Only.bind reading_leaseNow.bounded fun _ => Only.bind (reading_requiredLease _).bounded fun _ =>
    Only.bind Only.lift fun _ => Only.bind Only.lift fun _ => Only.bind Only.lift fun _ =>
    Only.bind Only.lift fun _ => Only.bind Only.lift fun _ =>
    Only.bind (Only.handle (bounded_replaceLease ..) fun _ => Only.throw) fun _ => Only.pure

theorem bounded_acquire (request : AcquireRequest) : Only (Call.bounded policy) (acquire policy d request) := by
  refine Only.bind Only.lift fun _ => bounded_withLock policy _ (Only.bind reading_leaseNow.bounded fun _ =>
    Only.bind (reading_optionalLease ..).bounded fun _ => Only.bind Only.lift fun replaceEtag =>
    Only.bind (Only.perform fun _ _ _ he => by cases he) fun _ => Only.bind Only.lift fun _ =>
    Only.bind Only.lift fun _ => Only.bind Only.lift fun _ => Only.bind ?_ fun _ => Only.pure)
  cases replaceEtag with
  | none => exact Only.handle (bounded_writeControl ..) fun _ => Only.throw
  | some etag => exact Only.handle (bounded_replaceLease ..) fun _ => Only.throw

theorem bounded_storeTerminal (key : ControlKey) (body : Bytes) :
    Only (Call.bounded policy) (storeTerminal policy d key body) := by
  refine Only.bind (Only.attempt (reading_readSummary ..).bounded) fun outcome => ?_
  cases outcome with
  | ok x => exact Only.ite (fun _ => Only.pure) fun _ => Only.bind (bounded_replaceLease ..) fun _ => Only.pure
  | error e => exact Only.ite (fun _ => Only.bind (bounded_writeControl ..) fun _ => Only.pure) fun _ => Only.throw

theorem bounded_terminal (request : TerminalRequest) :
    Only (Call.bounded policy) (terminal policy d request) := by
  refine Only.bind Only.lift fun _ => bounded_withLock policy _ (Only.bind ?_ fun _ => Only.bind
    (Only.bind Only.lift fun _ => Only.bind Only.lift fun _ => Only.bind Only.lift fun _ =>
      Only.handle (bounded_storeTerminal ..) fun _ => Only.throw) fun _ => Only.pure)
  exact Only.bind (reading_requiredLease _).bounded fun _ => Only.bind Only.lift fun _ =>
    Only.bind Only.lift fun _ => Only.ite (fun _ => bounded_transitionLocked ..) fun _ =>
    Only.ite (fun _ => Only.pure) fun _ => Only.throw

end

theorem bounded_invoke (rt : Runtime) (d : Deadline) (q : Request) :
    Only (Call.bounded rt.policy) (invoke rt d q) := by
  have hkeeps : ∀ {x : M Response}, Only Call.keeps x → Only (Call.bounded rt.policy) x := fun h =>
    Only.mono (fun _ he => Call.bounded_of_keeps he) h
  cases q with
  | acquire request => exact Only.bind (bounded_acquire ..) fun _ => Only.pure
  | heartbeat request =>
      exact Only.bind (Only.bind Only.lift fun _ =>
        bounded_withLock _ _ (bounded_transitionLocked ..)) fun _ => Only.pure
  | terminal request =>
      exact Only.bind (Only.bind Only.lift fun _ => bounded_terminal ..) fun _ => Only.pure
  | plan checkpointId keyPrefix actor => exact hkeeps (Only.bind (keeps_planAction ..) fun _ => Only.pure)
  | prepare request => exact hkeeps (Only.bind (keeps_prepare ..) fun _ => Only.pure)
  | apply request => exact hkeeps (keeps_applyAction ..)
  | status op =>
      exact hkeeps (Only.bind (Only.mono (fun _ => Call.keeps_of_reads) (reading_status ..)) fun _ => Only.pure)

/-- Every terminal record is one that the service reads. -/
def TerminalsSummarized (policy : CheckpointPolicy) (w : World) : Prop :=
  ∀ c, Summarized policy (w.store.get (.terminal c))

theorem TerminalsSummarized.answers {policy : CheckpointPolicy} {t : Nat} {s : State} {e : Call} {r : Answer e}
    {w : World} (hs : TerminalsSummarized policy s.world) (he : e.bounded policy) (h : answers t s e r w) :
    TerminalsSummarized policy w := by
  intro c
  cases e with
  | putObject key body condition =>
      rcases answers_put_etag h with rfl | ⟨etag, hetag, -, rfl⟩
      · exact hs c
      · rw [World.store_put, Store.get_put]
        split
        · rename_i hkey
          intro v hv
          cases hv
          exact ⟨hetag, he c body condition (by rw [hkey])⟩
        · exact hs c
  | hold c' =>
      obtain ⟨-, n, rfl⟩ := answers_hold h
      exact hs c
  | release c' =>
      rcases (answers_release h).2 with rfl | ⟨n, rfl⟩
      · exact hs c
      · exact hs c
  | deleteObjects keys =>
      obtain rfl := answers_delete h
      exact hs c
  | _ =>
      obtain rfl := answers_read rfl h
      exact hs c

/-- The terminal records of a run, whatever else the service does meanwhile. -/
def terminalProtocol (rt : Runtime) : Protocol (machine rt) where
  inv s := TerminalsSummarized rt.policy s.world
  rely _ _ _ := True
  guar t _ s e r s' := e.bounded rt.policy ∧ answers t s e r s'.world
  post _ _ _ _ := True
  trans _ _ := trivial
  drift_rely _ _ _ _ _ := trivial
  drift_inv _ _ _ h := h.elim
  guar_rely _ _ _ _ _ _ _ _ _ _ := trivial
  guar_inv _ _ _ _ _ _ hs h := hs.answers h.1 h.2
  sat _ q _ _ _ := Only.sat (I := fun _ => True) (fun _ _ _ _ => trivial)
    (fun _ _ _ _ he _ h => ⟨⟨he, h⟩, trivial⟩) (bounded_invoke rt q.deadline q.request) trivial

/-- **Every terminal record can be read**, in every state the service reaches. -/
theorem terminals_summarized (rt : Runtime) {p : Pool Served World Call Answer (Except Exn Response)}
    (h : Reachable (machine rt) (fun w => started w ∧ TerminalsSummarized rt.policy w) p) :
    TerminalsSummarized rt.policy p.sys.world :=
  (h.sound (P := terminalProtocol rt) (fun _ _ => trivial) fun _ hw => hw.2).inv

/-! ### The first call -/

/-- A request at the time `now` has ended the lease that was stored, and its terminal record can be
made; `w` is what it left and `r` what it returned or raised. -/
structure Moved (policy : CheckpointPolicy) (request : TerminalRequest) (now : Instant) (s : Store)
    (r : Except Exn LeaseResult) (w : World) (v : Stored) (l : Lease) (lease : Stored) (record : Bytes) : Prop where
  valid : validateTerminal policy request = .ok ()
  before : s.get (.lease request.checkpointId) = some v
  ending : Ending policy request v l now lease.body
  after : w.store.get (.lease request.checkpointId) = some lease
  etag : isEtag lease.etag = true
  record : terminalBody policy request lease.body = .ok record
  summarized : Summarized policy (w.store.get (.terminal request.checkpointId))
  returned : ∀ x, r = .ok x → x.body = lease.body

section
variable {policy : CheckpointPolicy} {request : TerminalRequest} {s : Store} {now : Instant}
  {r : Except Exn LeaseResult} {w : World} {v lease : Stored} {l : Lease} {record : Bytes}

theorem terminalBody_length {leaseBody : Bytes} (h : terminalBody policy request leaseBody = .ok record) :
    record.length ≤ policy.bounds.maxSummaryBytes := by
  simp only [terminalBody, bind_eq_ok] at h
  obtain ⟨_, -, _, -, hbody⟩ := h
  exact canonicalJsonBytes_length hbody

/-- **What the first call left**, when it changed the lease and returned, or raised because the
terminal record could not be stored. -/
theorem moved_of_runs {d : Deadline} (hs : Summarized policy (s.get (.terminal request.checkpointId)))
    (h : Runs (sequential now) (terminal policy d request) (idle s) r w)
    (hr : (∃ x, r = .ok x) ∨ r = .error (.lease "terminal_record_failed"))
    (hmoved : w.store.get (.lease request.checkpointId) ≠ s.get (.lease request.checkpointId)) :
    ∃ v l lease record, Moved policy request now s r w v l lease record := by
  rcases runs_lift_bind.mp h with ⟨e, -, -, rfl⟩ | ⟨_, hvalid, hlocked⟩
  · exact (hmoved rfl).elim
  rcases withLock_runs (fun _ _ _ _ ha => ha.1) hlocked with ⟨-, rfl⟩ | ⟨m, hrun, hstore⟩
  · exact (hmoved rfl).elim
  rw [hstore] at hmoved
  rcases runs_bind.mp hrun with ⟨e, hend, rfl⟩ | ⟨x, m', hend, hrest⟩
  · rcases endLease_runs hend with ⟨rfl, -⟩ | ⟨_, _, _, _, -, -, -, -, -, hcodes⟩
    · exact (hmoved rfl).elim
    · rcases hr with ⟨x, hx⟩ | hr
      · cases hx
      · exact absurd (hcodes _ hr) (by decide)
  rcases endLease_runs hend with ⟨rfl, -⟩ | ⟨v, l, body, etag, hstored, hending, hetag, rfl, hresult, -⟩
  · -- the lease had been ended before, and the record is written under another key
    rcases runs_bind.mp hrest with ⟨e, hpersist, -⟩ | ⟨_, m'', hpersist, hreturn⟩
    · rcases persistTerminal_runs hpersist with ⟨rfl, -⟩ | ⟨_, -, -, rfl | ⟨_, -, rfl⟩⟩
      · exact (hmoved rfl).elim
      · exact (hmoved rfl).elim
      · exact (hmoved (by simp [idle])).elim
    · obtain ⟨-, rfl⟩ := runs_pure.mp hreturn
      rcases persistTerminal_runs hpersist with ⟨rfl, -⟩ | ⟨_, -, -, rfl | ⟨_, -, rfl⟩⟩
      · exact (hmoved rfl).elim
      · exact (hmoved rfl).elim
      · exact (hmoved (by simp [idle])).elim
  obtain rfl := hresult x rfl
  have hpersisted : ∃ r' record, terminalBody policy request body = .ok record ∧
      (∀ x, r = .ok x → x.body = body) ∧ Runs (sequential now) (persistTerminal policy d request body)
        (((idle s).setLock request.checkpointId (some (0, 1))).put (.lease request.checkpointId) ⟨body, etag⟩) r' m := by
    rcases runs_bind.mp hrest with ⟨e, hpersist, rfl⟩ | ⟨_, m'', hpersist, hreturn⟩
    · rcases hr with ⟨x, hx⟩ | hr
      · cases hx
      cases hr
      rcases persistTerminal_runs hpersist with ⟨-, e, hbody, he⟩ | ⟨record, hbody, -⟩
      · cases he
        rcases terminalBody_error hbody with hc | ⟨hc, -⟩
        · exact absurd hc (by decide)
        · exact absurd hc (by decide)
      · exact ⟨_, record, hbody, fun _ hx => ok_of_error hx, hpersist⟩
    · obtain ⟨rfl, rfl⟩ := runs_pure.mp hreturn
      rcases persistTerminal_runs hpersist with ⟨-, e, -, he⟩ | ⟨record, hbody, -⟩
      · cases he
      · exact ⟨_, record, hbody, fun x hx => by rw [← Except.ok.inj hx], hpersist⟩
  obtain ⟨r', record, hbody, hreturned, hpersist⟩ := hpersisted
  rcases persistTerminal_runs hpersist with ⟨-, e, he, -⟩ | ⟨record', hbody', -, hm⟩
  · rw [hbody] at he
    cases he
  obtain rfl : record = record' := Except.ok.inj (hbody.symm.trans hbody')
  refine ⟨v, l, ⟨body, etag⟩, record, hvalid, hstored, hending, ?_, hetag, hbody, ?_, hreturned⟩
  · rw [hstore]
    rcases hm with rfl | ⟨etag', -, rfl⟩
    · simp
    · simp
  · rw [hstore]
    rcases hm with rfl | ⟨etag', hetag', rfl⟩
    · simpa [idle] using hs
    · intro v' hv'
      simp only [World.store_put, Store.get_put, if_true, Option.some.injEq] at hv'
      rw [← hv']
      exact ⟨hetag', terminalBody_length hbody⟩

/-! ### Calls without failures -/

/-- A call that ends a lease, or finds it ended, and does not fail returns it and stores its record. -/
theorem terminal_healthy {d : Deadline} {s' : Store} {later : Instant} {r' : Except Exn LeaseResult} {w' : World}
    {body : Bytes} {Q : LeaseResult → World → Prop}
    (h : Runs (healthy later d) (terminal policy d request) (idle s') r' w')
    (hvalid : validateTerminal policy request = .ok ())
    (hkey : (ControlKey.lease request.checkpointId).valid = true)
    (hend : ∀ r m, Runs (healthy later d) (endLease policy d request)
      ((idle s').setLock request.checkpointId (some (0, 1))) r m → ∃ x, r = .ok x ∧ Q x m)
    (hQ : ∀ x m, Q x m → x.body = body ∧ Summarized policy (m.store.get (.terminal request.checkpointId)))
    (hrecord : terminalBody policy request body = .ok record) :
    ∃ x m, r' = .ok x ∧ Q x m ∧
      w'.store.get (.lease request.checkpointId) = m.store.get (.lease request.checkpointId) ∧
      ∃ etag, w'.store.get (.terminal request.checkpointId) = some ⟨record, etag⟩ := by
  rcases withLock_runs (fun _ _ _ _ ha => ha.1) (h.lift_bind_of hvalid) with ⟨hno, -⟩ | ⟨m, hlocked, hstore⟩
  · rw [isIdentity_of_leaseName hkey] at hno
    cases hno
  obtain ⟨x, m', hx, hrest⟩ := hlocked.bind_of (Q := Q) hend
  obtain ⟨hbody, hsummarized⟩ := hQ x m' hx
  rw [← hbody] at hrecord
  have hpersist : ∀ r n, Runs (healthy later d) (persistTerminal policy d request x.body) m' r n →
      ∃ a, r = .ok a ∧ (∃ etag, n.store.get (.terminal request.checkpointId) = some ⟨record, etag⟩) ∧
        n.store.get (.lease request.checkpointId) = m'.store.get (.lease request.checkpointId) := fun r n hrun => by
    obtain ⟨hr, hterminal, hother⟩ := persistTerminal_healthy hrun hkey hrecord hsummarized
    exact ⟨(), hr, hterminal, hother _ (by simp)⟩
  obtain ⟨_, n, ⟨hterminal, hlease⟩, hreturn⟩ := hrest.bind_of (Q := fun _ n =>
    (∃ etag, n.store.get (.terminal request.checkpointId) = some ⟨record, etag⟩) ∧
      n.store.get (.lease request.checkpointId) = m'.store.get (.lease request.checkpointId)) hpersist
  obtain ⟨rfl, rfl⟩ := runs_pure.mp hreturn
  rw [hstore]
  exact ⟨x, m', rfl, hx, hlease, hterminal⟩

/-- A call that succeeds on a lease that is not active found it ended by the same request. -/
theorem resumed_of_ok {d : Deadline} {s' : Store} {later : Instant} {x : LeaseResult} {w' : World} {l' : Lease}
    (h : Runs (sequential later) (terminal policy d request) (idle s') (.ok x) w')
    (hstored : s'.get (.lease request.checkpointId) = some lease)
    (hdecodes : decodeLease policy lease.body = .ok l') (hended : l'.isActive = false) :
    Resumed policy request lease l' := by
  rcases runs_lift_bind.mp h with ⟨e, -, he, -⟩ | ⟨_, -, hlocked⟩
  · cases he
  rcases withLock_runs (fun _ _ _ _ ha => ha.1) hlocked with ⟨hno, -⟩ | ⟨m, hrun, -⟩
  · rcases runs_lift_bind.mp hlocked with ⟨e, -, he, -⟩ | ⟨_, hyes, -⟩
    · cases he
    · rw [hno] at hyes
      cases hyes
  obtain ⟨y, m', hend, -⟩ := runs_bind_ok.mp hrun
  rcases endLease_runs hend with ⟨-, hresumed⟩ | ⟨v, l₁, _, _, hv, hending, -⟩
  · obtain ⟨l₁, hv, hresumed⟩ := hresumed y rfl
    obtain rfl : lease = ⟨y.body, y.etag⟩ := Option.some.inj (hstored.symm.trans hv)
    obtain rfl : l' = l₁ := Except.ok.inj (hdecodes.symm.trans hresumed.decodes)
    exact hresumed
  · obtain rfl : lease = v := Option.some.inj (hstored.symm.trans hv)
    obtain rfl : l' = l₁ := Except.ok.inj (hdecodes.symm.trans hending.decodes)
    rw [hending.active] at hended
    cases hended

/-! ### The second call -/

/-- After a first call at the time `now`, which began with `s`, returned or raised `r` and left `w`:
the same request, sent again and served without a failure, returns the lease body that is stored (the
one returned before, if one was), leaves the lease as it is, and leaves the terminal record that one
call without failures would have stored. -/
def Retried (policy : CheckpointPolicy) (request : TerminalRequest) (now : Instant) (s : Store)
    (r : Except Exn LeaseResult) (w : World) : Prop :=
  ∀ (d : Deadline) (later : Instant) (r' : Except Exn LeaseResult) (w' : World),
    Runs (healthy later d) (terminal policy d request) (idle w.store) r' w' →
    ∃ x v, r' = .ok x ∧ w.store.get (.lease request.checkpointId) = some v ∧ x.body = v.body ∧
      (∀ x₀, r = .ok x₀ → x₀.body = x.body) ∧
      w'.store.get (.lease request.checkpointId) = some v ∧
      ∃ x₁ w₁ once again, Runs (healthy now .none) (terminal policy .none request) (idle s) (.ok x₁) w₁ ∧
        w₁.store.get (.terminal request.checkpointId) = some once ∧
        w'.store.get (.terminal request.checkpointId) = some again ∧ again.body = once.body

/-- What the first call stored is recognized exactly when the evidence holds no list. -/
theorem Moved.resumed (h : Moved policy request now s r w v l lease record) :
    ∃ l', decodeLease policy lease.body = .ok l' ∧ l'.isActive = false ∧
      (Resumed policy request lease l' ↔ listFree (.obj request.evidence) = true) := by
  have hstate := validateTerminal_ended h.valid
  have hbody := h.record
  simp only [terminalBody, bind_eq_ok] at hbody
  obtain ⟨l', hl', -⟩ := hbody
  have hended := h.ending.decodes_ended hstate hl'
  refine ⟨l', hl', hended, ?_⟩
  obtain ⟨expires, acquired, rfl, -⟩ := (h.ending.decodes_written hstate).mp hl'
  obtain ⟨_, -, hwritten⟩ := h.ending.written
  have hfloats : (Json.obj request.evidence).noFloats = true := by
    have hjson := (canonicalJsonBytes_eq_ok.mp hwritten).2.2.1
    rw [Lease.json, object_eq] at hjson
    simp only [Json.noFloats, noFloatMembers_iff] at hjson
    exact hjson (lit "terminal_evidence", .obj request.evidence) (List.mem_map.mpr
      ⟨("terminal_evidence", .obj request.evidence), by simp [Lease.fields, Lease.moved, evidenceJson], rfl⟩)
  have hevidence := frozenEq_sortKeys (.obj request.evidence) request.decoded hfloats
  rw [sortKeys_obj] at hevidence
  rw [← hevidence]
  constructor
  · exact fun hsame => hsame.evidence
  · intro heq
    exact ⟨hl', hended, h.ending.checkpointId, h.ending.keyPrefix, h.ending.epoch, rfl, heq⟩

/-- The call without failures that the first call is compared with. -/
theorem Moved.once (h : Moved policy request now s r w v l lease record)
    (hs : Summarized policy (s.get (.terminal request.checkpointId))) :
    ∃ x₁ w₁ once, Runs (healthy now .none) (terminal policy .none request) (idle s) (.ok x₁) w₁ ∧
      w₁.store.get (.terminal request.checkpointId) = some once ∧ once.body = record := by
  obtain ⟨r₁, w₁, hrun⟩ : ∃ r₁ w₁, Runs (healthy now .none) (terminal policy .none request) (idle s) r₁ w₁ :=
    exists_terminal s h.valid (isIdentity_of_leaseName h.ending.valid)
  obtain ⟨x, m, rfl, -, -, etag, hetag⟩ := terminal_healthy (Q := fun x m => ∃ etag,
    x = ⟨request.epoch, etag, lease.body⟩ ∧ m = ((idle s).setLock request.checkpointId (some (0, 1))).put
      (.lease request.checkpointId) ⟨lease.body, etag⟩) hrun h.valid h.ending.valid
    (fun r m hend => by
      obtain ⟨etag, hr, -, hm⟩ := endLease_healthy hend h.before h.ending
      exact ⟨_, hr, etag, rfl, hm⟩)
    (by
      rintro x m ⟨etag, rfl, rfl⟩
      exact ⟨rfl, by simpa [idle] using hs⟩) h.record
  exact ⟨x, w₁, _, hrun, hetag, rfl⟩

/-- After a first call that ended the lease, the request can be sent again exactly when its evidence
holds no list. -/
theorem Moved.retried (h : Moved policy request now s r w v l lease record)
    (hs : Summarized policy (s.get (.terminal request.checkpointId))) :
    Retried policy request now s r w ↔ listFree (.obj request.evidence) = true := by
  obtain ⟨l', hl', hended, hresumed⟩ := h.resumed
  rw [← hresumed]
  constructor
  · intro hretry
    obtain ⟨r', w', hrun⟩ : ∃ r' w', Runs (healthy now .none) (terminal policy .none request) (idle w.store) r' w' :=
      exists_terminal w.store h.valid (isIdentity_of_leaseName h.ending.valid)
    obtain ⟨x, -, rfl, -⟩ := hretry .none now r' w' hrun
    exact resumed_of_ok (runs_sequential hrun) h.after hl' hended
  · intro hsame d' later r' w' hrun
    have hpos : 1 ≤ policy.bounds.maxSummaryBytes := by
      obtain ⟨_, -, hwritten⟩ := h.ending.written
      have := canonicalSummary_pos hwritten
      have := canonicalJsonBytes_length hwritten
      omega
    have hend : ∀ r m, Runs (healthy later d') (endLease policy d' request)
        ((idle w.store).setLock request.checkpointId (some (0, 1))) r m →
        ∃ x, r = .ok x ∧ x = ⟨request.epoch, lease.etag, lease.body⟩ ∧
          m = (idle w.store).setLock request.checkpointId (some (0, 1)) := fun r m hrun => by
      obtain ⟨hr, hm⟩ := endLease_resumed hrun h.ending.valid hpos h.after h.etag hsame
      exact ⟨_, hr, rfl, hm⟩
    obtain ⟨x, m, rfl, ⟨rfl, rfl⟩, hlease, etag, hterminal⟩ := terminal_healthy
      (Q := fun x m => x = ⟨request.epoch, lease.etag, lease.body⟩ ∧
        m = (idle w.store).setLock request.checkpointId (some (0, 1))) hrun h.valid h.ending.valid hend
      (by
        rintro x m ⟨rfl, rfl⟩
        exact ⟨rfl, h.summarized⟩) h.record
    obtain ⟨x₁, w₁, once, honce, hstored, hbody⟩ := h.once hs
    exact ⟨_, lease, rfl, h.after, rfl, h.returned, hlease.trans h.after, x₁, w₁, once, _, honce,
      hstored, hterminal, hbody.symm⟩

/-- **When a terminal request can be sent again.**  After any first call that ended the lease and then
returned or failed to store the terminal record: exactly when its evidence holds no list. -/
theorem terminal_retryable {d : Deadline} (hs : Summarized policy (s.get (.terminal request.checkpointId)))
    (h : Runs (sequential now) (terminal policy d request) (idle s) r w)
    (hr : (∃ x, r = .ok x) ∨ r = .error (.lease "terminal_record_failed"))
    (hmoved : w.store.get (.lease request.checkpointId) ≠ s.get (.lease request.checkpointId)) :
    Retried policy request now s r w ↔ listFree (.obj request.evidence) = true := by
  obtain ⟨v, l, lease, record, hfirst⟩ := moved_of_runs hs h hr hmoved
  exact hfirst.retried hs

end

/-! ### The sample writer -/

/-- A first call of the sample writer that ends the lease and returns. -/
theorem startedLease_first {evidence : List (Str × Json)} (decoded : (Json.obj evidence).Decoded)
    (hwritten : (canonicalSummary registry (startedLease.moved (second 1) (second 601) (lit "stopped")
      (some evidence)).json).isOk = true)
    (hvalid : validateTerminal registry (sampleRequest evidence decoded) = .ok ())
    (hflags : flagsBoolean evidence = true)
    (hrecord : (canonicalSummary registry (terminalRecord (sampleRequest evidence decoded)
      (startedLease.moved (second 1) (second 601) (lit "stopped") (some evidence)).sorted)).isOk = true) :
    ∃ (s : Store) (x : LeaseResult) (w : World), Summarized registry (s.get (.terminal sampleCheckpoint)) ∧
      Runs (sequential (second 1)) (terminal registry .none (sampleRequest evidence decoded)) (idle s) (.ok x) w ∧
      w.store.get (.lease sampleCheckpoint) ≠ s.get (.lease sampleCheckpoint) := by
  obtain ⟨s, v, body, hstored, hother, hending⟩ := startedLease_ending decoded hwritten
  have hended := validateTerminal_ended hvalid
  have hsummarized : Summarized registry (s.get (.terminal sampleCheckpoint)) := by
    rw [hother _ (by simp)]
    exact fun v hv => by cases hv
  have hlease := (hending.decodes_written hended).mpr
    ⟨second 601, second 0, rfl, by decide, by decide, by decide⟩
  rcases hb : canonicalSummary registry (terminalRecord (sampleRequest evidence decoded)
    (startedLease.moved (second 1) (second 601) (lit "stopped") (some evidence)).sorted) with e | record
  · rw [hb] at hrecord
    cases hrecord
  have hbody : terminalBody registry (sampleRequest evidence decoded) body = .ok record := by
    simp only [terminalBody, bind_eq_ok, require_eq_ok]
    exact ⟨_, hlease, (), hflags, hb⟩
  obtain ⟨r, w, hrun⟩ : ∃ r w, Runs (healthy (second 1) .none) (terminal registry .none (sampleRequest evidence decoded))
      (idle s) r w := exists_terminal s hvalid (isIdentity_of_leaseName hending.valid)
  obtain ⟨x, m, rfl, ⟨etag, -, rfl⟩, hafter, -⟩ := terminal_healthy (Q := fun x m => ∃ etag,
    x = ⟨sampleEpoch, etag, body⟩ ∧ m = ((idle s).setLock sampleCheckpoint (some (0, 1))).put
      (.lease sampleCheckpoint) ⟨body, etag⟩) hrun hvalid hending.valid
    (fun r m hend => by
      obtain ⟨etag, hr, -, hm⟩ := endLease_healthy hend hstored hending
      exact ⟨_, hr, etag, rfl, hm⟩)
    (by
      rintro x m ⟨etag, rfl, rfl⟩
      have hs : Summarized registry (s.get (.terminal (sampleRequest evidence decoded).checkpointId)) := hsummarized
      exact ⟨rfl, by simpa [idle] using hs⟩) hbody
  refine ⟨s, x, w, hsummarized, runs_sequential hrun, ?_⟩
  intro hsame
  -- what is stored was active, and what replaced it is not
  have hv : v = ⟨body, etag⟩ := by
    rw [hstored] at hsame
    simpa [sampleRequest, sampleTerminal] using (hsame.symm.trans hafter)
  have hactive := hending.decodes
  rw [hv] at hactive
  have hno := hending.decodes_ended hended hactive
  rw [hending.active] at hno
  cases hno

theorem terminal_retryable_sample : ∃ (s : Store) (x : LeaseResult) (w : World),
    Retried registry sampleTerminal (second 1) s (.ok x) w := by
  obtain ⟨s, x, w, hs, hrun, hmoved⟩ := startedLease_first sampleTerminal.decoded (by decide +kernel)
    (by decide +kernel) (by decide) (by decide +kernel)
  exact ⟨s, x, w, (terminal_retryable hs hrun (.inl ⟨x, rfl⟩) hmoved).mpr (by decide)⟩

/-- A run that was stopped, with an empty list of notes. -/
def notedEvidence : List (Str × Json) :=
  [(lit "exclusive_run", .bool true), (lit "generation", .obj [(lit "run_uuid", .str sampleRun)]),
    (lit "notes", .arr []), (lit "successful", .bool true)]

theorem notedEvidence_decoded : (Json.obj notedEvidence).Decoded :=
  ⟨by decide, joined_lit _, trivial, joined_lit _, ⟨by decide, joined_lit _, joined_lit _, trivial⟩,
    joined_lit _, trivial, joined_lit _, trivial, trivial⟩

theorem terminal_retryable_noted : ¬ ∀ (policy : CheckpointPolicy) (request : TerminalRequest) (now : Instant)
    (s : Store) (d : Deadline) (r : Except Exn LeaseResult) (w : World),
    freezesMembers request.evidence = true → Summarized policy (s.get (.terminal request.checkpointId)) →
    Runs (sequential now) (terminal policy d request) (idle s) r w →
    ((∃ x, r = .ok x) ∨ r = .error (.lease "terminal_record_failed")) →
    w.store.get (.lease request.checkpointId) ≠ s.get (.lease request.checkpointId) →
    Retried policy request now s r w := by
  intro h
  obtain ⟨s, x, w, hs, hrun, hmoved⟩ := startedLease_first notedEvidence_decoded (by decide +kernel)
    (by decide +kernel) (by decide) (by decide +kernel)
  obtain ⟨v, l, lease, record, hfirst⟩ := moved_of_runs hs hrun (.inl ⟨x, rfl⟩) hmoved
  have hretried := h registry _ _ s .none _ w (by decide) hs hrun (.inl ⟨x, rfl⟩) hmoved
  have hfree := (hfirst.retried hs).mp hretried
  revert hfree
  decide

end Checkpoints
