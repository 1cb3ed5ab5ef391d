/-
When the two notebooks of a scenario follow one protocol.

`session_ended` and `paragraph_ended` say that both post a heartbeat and then the terminal
request, and what follows here is where one of them does not.  A query that cannot be
stopped ends the paragraph at once, while `__exit__` goes on to `_finalize`; an interrupt of
the final heartbeat ends `_finalize`, while `close` goes on; and an answer that is JSON but
not an object fails the cell only.
-/
import DataEngLab.Checkpoints.ProjectionRuns

namespace Checkpoints

open Lib

/-! ### Two projections of a notebook -/

/-- A notebook with the sessions of its two projections; the constructor of `StreamingLease` accepts it. -/
structure Projections where
  zeppelin : CheckpointLease
  sessionId : Str
  isValid : (zeppelin.notebook.python sessionId).valid = true

def Projections.jupyter (p : Projections) : StreamingLease :=
  ⟨p.zeppelin.notebook.python p.sessionId, p.isValid⟩

/-! ### One protocol -/

/-- A request without the names that each projection has of its own, as the service reads it. -/
def anonymous (payload : List (Str × Json)) : Json :=
  (Json.obj (payload.filter fun member => member.1 ≠ lit "owner_id" ∧ member.1 ≠ lit "session_id")).sortKeys

def SameRequest (a b : PostAction × List (Str × Json)) : Prop :=
  a.1 = b.1 ∧ anonymous a.2 = anonymous b.2

/-- Two notebooks that end alike. -/
structure SameProtocol (a b : Ended) : Prop where
  requests : List.Forall₂ SameRequest a.posted b.posted
  acquireFirst : a.posted.head?.map Prod.fst = some .acquire
  neverEarly : a.early = false ∧ b.early = false
  failAlike : a.failed = b.failed

/-- The runs end, and alike. -/
def Surroundings.OneProtocol (env : Surroundings) (p : Projections) : Prop :=
  ∃ a b, env.jupyter p.jupyter = some a ∧ env.zeppelin p.zeppelin = some b ∧ SameProtocol a b

/-! ### The requests -/

section
variable (p : Projections) (epoch : Str)

theorem anonymous_acquire :
    anonymous (StreamingLease.acquirePayload p.jupyter) = anonymous p.zeppelin.acquireRequest := rfl

theorem generationDocument_sorted {generation : List (Str × Str)} (h : (generation.map Prod.fst).Nodup) :
    (generationDocument (generation.insertionSort fun a b => a.1 ≤ b.1)).sortKeys =
      (generationDocument generation).sortKeys := by
  rw [generationDocument, generationDocument, sortKeys_obj, sortKeys_obj]
  refine congrArg Json.obj (sortedMembers_eq_of_perm ((List.perm_insertionSort _ _).map _) ?_)
  rw [List.map_map]
  exact ((List.perm_insertionSort _ _).map Prod.fst).nodup_iff.mpr h

/-- The members of the terminal request, with the document that stands for the evidence. -/
def terminalMembers (evidence : Json) : List (Str × Json) :=
  StreamingLease.requestOf [("checkpoint_id", .str p.zeppelin.notebook.checkpointId), ("epoch", .str epoch),
    ("prefix", .str p.zeppelin.notebook.keyPrefix), ("state", .str p.zeppelin.notebook.terminalState),
    ("evidence", evidence)]

theorem terminalMembers_sortKeys {a b : Json} (h : a.sortKeys = b.sortKeys) :
    sortedMembers (terminalMembers p epoch a) = sortedMembers (terminalMembers p epoch b) := by
  simp only [sortedMembers, terminalMembers, StreamingLease.requestOf, List.map_cons, List.map_nil, h]

theorem generation_sortKeys :
    (Json.obj [(lit "generation", generationDocument p.zeppelin.notebook.generation)]).sortKeys =
      (Json.obj [(lit "generation", generationDocument
        (p.zeppelin.notebook.generation.insertionSort fun a b => a.1 ≤ b.1))]).sortKeys := by
  rw [sortKeys_obj, sortKeys_obj]
  simp only [sortedMembers, List.map_cons, List.map_nil,
    generationDocument_sorted p.zeppelin.notebook.distinct]

theorem anonymous_terminal :
    anonymous (StreamingLease.terminalPayload p.jupyter epoch) = anonymous (p.zeppelin.terminalRequest epoch) := by
  have hperm : (StreamingLease.terminalPayload p.jupyter epoch).Perm (terminalMembers p epoch
      (.obj [(lit "generation", generationDocument p.zeppelin.notebook.generation)])) :=
    .cons _ (.cons _ (List.perm_append_singleton _ _).symm)
  have hkeys : ((StreamingLease.terminalPayload p.jupyter epoch).map Prod.fst).Nodup := by
    simp only [StreamingLease.terminalPayload, StreamingLease.requestOf, List.map_cons, List.map_nil]
    decide
  calc anonymous (StreamingLease.terminalPayload p.jupyter epoch)
      = (Json.obj (StreamingLease.terminalPayload p.jupyter epoch)).sortKeys := rfl
    _ = .obj (sortedMembers (terminalMembers p epoch
          (.obj [(lit "generation", generationDocument p.zeppelin.notebook.generation)]))) := by
        rw [sortKeys_obj, sortedMembers_eq_of_perm hperm hkeys]
    _ = (Json.obj (p.zeppelin.terminalRequest epoch)).sortKeys := by
        rw [terminalMembers_sortKeys p epoch (generation_sortKeys p), sortKeys_obj]
        rfl
    _ = anonymous (p.zeppelin.terminalRequest epoch) := rfl

end

/-! ### When they end alike -/

namespace Surroundings

variable (env : Surroundings)

/-- The answers that count when the body has ended. -/
def answers : List PostReply := env.ticks ++ [env.finalHeartbeat, env.terminal]

/-- The surroundings in which the two classes do the same. -/
def Conforms : Prop :=
  env.acquired.isOk = true →
    if env.stopTried && !env.stopOk then env.bodyOk = true ∧ env.stopInterrupts = true
    else env.finalHeartbeat.isInterrupt = false ∧
      (env.bodyOk = true → (∀ reply ∈ env.answers, reply.isRaised = false) →
        ∀ reply ∈ env.answers, reply.isMapping = true)

end Surroundings

section
variable {env : Surroundings} {p : Projections} {epoch : Str}

/-- The failure is what the last beat leaves. -/
theorem failureOf_eq {program : L Unit} {r : Except LeaseExn Unit} {s' : Beats}
    (h : Proc.runSome env.tick program
      ⟨{ LeaseObject.made with epoch := some epoch, query := some Surroundings.query }, env.ticks⟩ = some (r, s')) :
    env.failureOf program epoch = s'.object.failure := by
  rw [Surroundings.failureOf, h]

theorem workerFailure :
    env.failureOf (StreamingLease.worker p.jupyter (env.ticks.length + 1)) epoch = none ↔
      ∀ reply ∈ env.ticks, reply.isMapping = true := by
  obtain ⟨r, s', hrun, hfailed⟩ := StreamingLease.heartbeatLoop_run env
    ⟨{ LeaseObject.made with epoch := some epoch, query := some Surroundings.query }, env.ticks⟩ p.jupyter 0
    ⟨rfl, rfl, rfl⟩ rfl
  have hworker : env.failureOf (StreamingLease.worker p.jupyter (env.ticks.length + 1)) epoch = s'.object.failure :=
    failureOf_eq hrun
  rw [hworker, ← Option.not_isSome_iff_eq_none, hfailed]
  simp

theorem scheduledFailure :
    env.failureOf (p.zeppelin.scheduled (env.ticks.length + 1)) epoch = none ↔
      ∀ reply ∈ env.ticks, reply.isRaised = false := by
  obtain ⟨r, s', hrun, hfailed⟩ := CheckpointLease.scheduled_run env
    ⟨{ LeaseObject.made with epoch := some epoch, query := some Surroundings.query }, env.ticks⟩ p.zeppelin 0
    ⟨rfl, rfl, rfl⟩
  have hscheduled : env.failureOf (p.zeppelin.scheduled (env.ticks.length + 1)) epoch = s'.object.failure :=
    failureOf_eq hrun
  rw [hscheduled, ← Option.not_isSome_iff_eq_none, hfailed]
  simp [LeaseObject.made]

/-! ### How the query was stopped -/

theorem stop_of_interrupts (h : env.stopInterrupts = true) : env.stop = .error .interrupt := by
  rw [Surroundings.stopInterrupts] at h
  split at h
  · assumption
  · cases h

theorem primary_interrupted (ht : env.stopTried = true) (hb : env.bodyOk = true) (hi : env.stopInterrupts = true) :
    StreamingLease.primary env = .error .interrupt := by
  have hstop := stop_of_interrupts hi
  rw [Surroundings.bodyOk_eq] at hb
  cases ho : env.outcome with
  | error e => simp [ho, Except.isOk, Except.toBool] at hb
  | ok u => simp [StreamingLease.primary, ht, hstop, ho, StreamingLease.stopOutcome]

variable (env) in
/-- Without an interrupt `__exit__` goes on; nothing is wrong when the body ended and the query stopped. -/
theorem primary_ok (h : env.stopTried = true → env.bodyOk = true → env.stopInterrupts = false) :
    ∃ e, StreamingLease.primary env = .ok e ∧
      (e = none ↔ env.bodyOk = true ∧ (env.stopTried && !env.stopOk) = false) := by
  rw [Surroundings.bodyOk_eq] at h ⊢
  cases ht : env.stopTried with
  | false =>
      cases ho : env.outcome <;> simp [StreamingLease.primary, ht, ho, Except.isOk, Except.toBool]
  | true =>
      have hi := h ht
      cases ho : env.outcome with
      | error e =>
          cases hs : env.stop <;> simp [StreamingLease.primary, ht, ho, hs, StreamingLease.stopOutcome,
            Surroundings.stopOk, Except.isOk, Except.toBool]
      | ok u =>
          have hn := hi (by rw [ho]; rfl)
          rcases hs : env.stop with e | u
          · cases e <;> simp [StreamingLease.primary, ht, ho, hs, StreamingLease.stopOutcome, Surroundings.stopOk,
              Surroundings.stopInterrupts, Except.isOk, Except.toBool] at hn ⊢
          · simp [StreamingLease.primary, ht, ho, hs, StreamingLease.stopOutcome, Surroundings.stopOk,
              Except.isOk, Except.toBool]

theorem bound_of_bodyOk (h : env.bodyOk = true) : env.bound = true := by
  obtain ⟨acquire, cell, ticks, active, stop, beat, terminal⟩ := env
  cases cell with
  | fails e => exact absurd h (by simp [Surroundings.bodyOk])
  | runs r => rfl

/-! ### The two runs compared -/

theorem ended_eq {failure : Option LeaseExn} {program : L Unit} {r : Except LeaseExn Unit} {s : CellStage}
    (h : Proc.runSome (env.answer failure) program env.opening = some (r, s)) :
    env.ended failure program = some ⟨s.posted, s.early, !r.isOk⟩ := by
  rw [Surroundings.ended, h]
  rfl

theorem oneProtocol_iff {a b : Ended} (ha : env.jupyter p.jupyter = some a) (hb : env.zeppelin p.zeppelin = some b) :
    env.OneProtocol p ↔ SameProtocol a b := by
  constructor
  · rintro ⟨a', b', ha', hb', h⟩
    rw [ha] at ha'
    rw [hb] at hb'
    cases ha'
    cases hb'
    exact h
  · exact fun h => ⟨a, b, ha, hb, h⟩

theorem oneProtocol_of_unacquired {e : LeaseExn} (h : env.acquired = .error e) : env.OneProtocol p := by
  obtain ⟨e', he'⟩ := CheckpointLease.paragraph_unacquired (env.failureOf (p.zeppelin.scheduled (env.ticks.length + 1)) env.epoch)
    p.zeppelin h
  refine (oneProtocol_iff (ended_eq (StreamingLease.session_unacquired h)) (ended_eq he')).mpr
    ⟨.cons ⟨rfl, anonymous_acquire p⟩ .nil, rfl, ⟨rfl, rfl⟩, rfl⟩

/-- A query that cannot be stopped: the paragraph ends at once. -/
theorem oneProtocol_of_unstopped (h : env.acquired = .ok epoch) (ht : env.stopTried = true)
    (hs : env.stopOk = false) :
    env.OneProtocol p ↔ env.bodyOk = true ∧ env.stopInterrupts = true := by
  obtain ⟨e, he⟩ := CheckpointLease.paragraph_unstopped (env.failureOf (p.zeppelin.scheduled (env.ticks.length + 1)) env.epoch)
    p.zeppelin h ht hs
  have hscala := ended_eq he
  by_cases hi : env.bodyOk = true ∧ env.stopInterrupts = true
  · have hpython := ended_eq (StreamingLease.session_stopInterrupted
      (env.failureOf (StreamingLease.worker p.jupyter (env.ticks.length + 1)) env.epoch) p.jupyter h
      (primary_interrupted ht hi.1 hi.2))
    refine iff_of_true ((oneProtocol_iff hpython hscala).mpr ?_) hi
    exact ⟨.cons ⟨rfl, anonymous_acquire p⟩ .nil, rfl, ⟨rfl, rfl⟩, rfl⟩
  · refine iff_of_false (fun hone => ?_) hi
    obtain ⟨e', hp, -⟩ := primary_ok env fun _ hb => by simpa using fun hs => hi ⟨hb, hs⟩
    cases hbeat : env.finalHeartbeat.isInterrupt with
    | true =>
        obtain ⟨e'', hrun⟩ := StreamingLease.session_beatInterrupted
          (env.failureOf (StreamingLease.worker p.jupyter (env.ticks.length + 1)) env.epoch) p.jupyter h hp hbeat
        have hsame := ((oneProtocol_iff (ended_eq hrun) hscala).mp hone).requests.length_eq
        simp [CellStage.post, Surroundings.stopped, Surroundings.worked] at hsame
    | false =>
        obtain ⟨r, hrun, -⟩ := StreamingLease.session_ended
          (env.failureOf (StreamingLease.worker p.jupyter (env.ticks.length + 1)) env.epoch) p.jupyter h hp hbeat
        have hsame := ((oneProtocol_iff (ended_eq hrun) hscala).mp hone).requests.length_eq
        simp [CellStage.post, Surroundings.stopped, Surroundings.worked] at hsame

theorem isRaised_of_isMapping {r : PostReply} (h : r.isMapping = true) : r.isRaised = false := by
  rw [PostReply.isMapping_eq] at h
  simpa using (Bool.and_eq_true_iff.mp h).1

theorem forall_answers {P : PostReply → Prop} :
    (∀ reply ∈ env.answers, P reply) ↔ (∀ reply ∈ env.ticks, P reply) ∧ P env.finalHeartbeat ∧ P env.terminal := by
  simp [Surroundings.answers, or_imp, forall_and]

theorem early_of_stopped (hs : (env.stopTried && !env.stopOk) = false) (payload beat terminal : List (Str × Json))
    (epoch : Str) :
    (((env.stopped payload epoch).post .heartbeat beat).post .terminal terminal).early = false := by
  rw [Surroundings.stopTried] at hs
  cases hb : env.bound <;> cases ha : env.active <;> cases ho : env.stopOk <;>
    simp [CellStage.post, CellStage.isEarly, Surroundings.stopped, Surroundings.worked, hb, ha, ho] at hs ⊢

/-- A query that stops, or need not: both post both requests, unless the final heartbeat is interrupted. -/
theorem oneProtocol_of_stopped (h : env.acquired = .ok epoch) (hs : (env.stopTried && !env.stopOk) = false) :
    env.OneProtocol p ↔ env.finalHeartbeat.isInterrupt = false ∧
      (env.bodyOk = true → (∀ reply ∈ env.answers, reply.isRaised = false) →
        ∀ reply ∈ env.answers, reply.isMapping = true) := by
  obtain ⟨r, hscalaRun, hscalaOk⟩ := CheckpointLease.paragraph_ended (env.failureOf (p.zeppelin.scheduled (env.ticks.length + 1)) env.epoch)
    p.zeppelin h hs
  have hscala := ended_eq hscalaRun
  obtain ⟨e, hp, hnone⟩ := primary_ok env fun ht hb => by
    cases hi : env.stopInterrupts with
    | false => rfl
    | true => simp [ht, Surroundings.stopOk, stop_of_interrupts hi, Except.isOk, Except.toBool] at hs
  cases hbeat : env.finalHeartbeat.isInterrupt with
  | true =>
      obtain ⟨e', hrun⟩ := StreamingLease.session_beatInterrupted
        (env.failureOf (StreamingLease.worker p.jupyter (env.ticks.length + 1)) env.epoch) p.jupyter h hp hbeat
      refine iff_of_false (fun hone => ?_) (by simp)
      have hsame := ((oneProtocol_iff (ended_eq hrun) hscala).mp hone).requests.length_eq
      simp [CellStage.post, Surroundings.stopped, Surroundings.worked] at hsame
  | false =>
      obtain ⟨r', hrun, hok⟩ := StreamingLease.session_ended
        (env.failureOf (StreamingLease.worker p.jupyter (env.ticks.length + 1)) env.epoch) p.jupyter h hp hbeat
      rw [workerFailure, ← Surroundings.bodyOk_eq] at hok
      rw [scheduledFailure, ← Surroundings.bodyOk_eq] at hscalaOk
      rw [oneProtocol_iff (ended_eq hrun) hscala]
      have hpython : r'.isOk = true ↔ env.bodyOk = true ∧ ∀ reply ∈ env.answers, reply.isMapping = true := by
        rw [hok, hnone, forall_answers, Bool.and_eq_true]
        cases hb : env.bodyOk with
        | false => simp
        | true => simp [hs, bound_of_bodyOk hb, and_comm]
      have hzeppelin : r.isOk = true ↔ env.bodyOk = true ∧ ∀ reply ∈ env.answers, reply.isRaised = false := by
        rw [hscalaOk, forall_answers]
        cases hb : env.bodyOk with
        | false => simp
        | true => simp [bound_of_bodyOk hb, and_comm, and_assoc]
      have hfail : (!r'.isOk) = (!r.isOk) ↔
          (env.bodyOk = true → (∀ reply ∈ env.answers, reply.isRaised = false) →
            ∀ reply ∈ env.answers, reply.isMapping = true) := by
        rw [Bool.not_inj_iff, Bool.eq_iff_iff, hpython, hzeppelin]
        have hraised : (∀ reply ∈ env.answers, reply.isMapping = true) →
            ∀ reply ∈ env.answers, reply.isRaised = false := fun hall reply hm => isRaised_of_isMapping (hall reply hm)
        exact ⟨fun hiff hb hall => (hiff.mpr ⟨hb, hall⟩).2,
          fun himp => ⟨fun hall => ⟨hall.1, hraised hall.2⟩, fun hall => ⟨hall.1, himp hall.1 hall.2⟩⟩⟩
      rw [← hfail]
      constructor
      · exact fun hsame => ⟨rfl, hsame.failAlike⟩
      · rintro ⟨-, hfailAlike⟩
        refine ⟨.cons ⟨rfl, anonymous_acquire p⟩ (.cons ⟨rfl, rfl⟩ (.cons ⟨rfl, anonymous_terminal p epoch⟩ .nil)),
          rfl, ⟨?_, ?_⟩, hfailAlike⟩
        · exact early_of_stopped hs _ (StreamingLease.heartbeatPayload p.jupyter epoch)
            (StreamingLease.terminalPayload p.jupyter epoch) epoch
        · exact early_of_stopped hs _ (p.zeppelin.heartbeatRequest epoch) (p.zeppelin.terminalRequest epoch) epoch

/-- **The two notebooks follow one protocol exactly in the surroundings that conform.** -/
theorem oneProtocol_iff_conforms (env : Surroundings) (p : Projections) : env.OneProtocol p ↔ env.Conforms := by
  rw [Surroundings.Conforms]
  cases h : env.acquired with
  | error e => exact iff_of_true (oneProtocol_of_unacquired h) (by simp [Except.isOk, Except.toBool])
  | ok epoch =>
      simp only [Except.isOk, Except.toBool, true_implies]
      cases hs : env.stopTried && !env.stopOk with
      | true =>
          obtain ⟨ht, hstop⟩ := Bool.and_eq_true_iff.mp hs
          simpa using oneProtocol_of_unstopped h ht (by simpa using hstop)
      | false => simpa using oneProtocol_of_stopped h hs

end

/-! ### A query that cannot be stopped -/

/-- The notebooks of the CDC scenario. -/
def cdcNotebook : Projections where
  zeppelin := {
    notebook := {
      checkpointId := lit "streaming-online-retail-cdc-v1"
      keyPrefix := lit "online_retail_cdc/"
      workload := lit "cdc_streaming-online_retail-spark-iceberg"
      terminalState := lit "stopped"
      generation := []
      distinct := List.nodup_nil }
    sessionId := lit "5c3a4f0e-7c3b-4f57-9c1d-0a3b8a1f2e6d" }
  sessionId := lit "0f9c2a58-6c1d-4f4e-8a55-3a1b2c4d5e6f"
  isValid := by decide

def acquireReply : List (Str × Json) := [(lit "epoch", .str (lit "3e2b1c4d-5f60-4a7b-8c9d-0e1f2a3b4c5d"))]

/-- The body ends with an active query, and `query.stop()` raises; every request is answered. -/
def stopRaises : Surroundings where
  acquire := .mapping acquireReply
  body := .runs (.ok ())
  ticks := []
  active := true
  stop := .error .other
  finalHeartbeat := .mapping []
  terminal := .mapping []

/-- The cell ends the lease of a query that runs on; the paragraph keeps it. -/
theorem stopRaises_not_oneProtocol : ¬ stopRaises.OneProtocol cdcNotebook := by
  rintro ⟨a, b, ha, hb, hsame⟩
  have hearly : (stopRaises.jupyter cdcNotebook.jupyter).map Ended.early = some true := by decide
  rw [ha] at hearly
  exact absurd hsame.neverEarly.1 (by simpa using hearly)

end Checkpoints
