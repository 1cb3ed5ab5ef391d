/-
How the two notebooks of a scenario end.

Each run is computed for any surroundings: which requests were posted, whether a terminal
request was among them before the query had stopped, and whether the notebook failed.  The
Python class ends the lease whether or not the query could be stopped, and takes an answer
that is not an object for a failure; the Scala class ends it only when the query has stopped,
and takes any JSON for an answer.
-/
import DataEngLab.Checkpoints.Projections

namespace Checkpoints

open Lib

/-! ### Answers -/

namespace PostReply

/-- A JSON object. -/
def isMapping : PostReply → Bool
  | .mapping _ => true
  | _ => false

/-- Not JSON at all, or no answer. -/
def isRaised : PostReply → Bool
  | .raised _ => true
  | _ => false

/-- JSON that is not an object. -/
def isOther : PostReply → Bool
  | .other => true
  | _ => false

def isInterrupt : PostReply → Bool
  | .raised .interrupt => true
  | _ => false

theorem isMapping_eq (r : PostReply) : r.isMapping = (!r.isRaised && !r.isOther) := by
  cases r <;> rfl

end PostReply

namespace Surroundings

variable (env : Surroundings)

/-- The lease ends with an active query. -/
def stopTried : Bool := env.bound && env.active

def stopOk : Bool := env.stop.isOk

def stopInterrupts : Bool :=
  match env.stop with
  | .error .interrupt => true
  | _ => false

/-- How the body ended. -/
def outcome : Except LeaseExn Unit :=
  match env.body with
  | .fails e => .error e
  | .runs r => r

/-- The epoch of the answer to the acquisition, as the Python class reads it. -/
def acquired : Except LeaseExn Str := StreamingLease.callReply .acquire env.acquire >>= StreamingLease.epochOf

/-- When the lease has been acquired. -/
def entered (payload : List (Str × Json)) (epoch : Str) : CellStage :=
  ⟨{ LeaseObject.made with epoch := some epoch }, env.bodySteps, [(.acquire, payload)], false, false⟩

/-- When the body has ended. -/
def worked (payload : List (Str × Json)) (epoch : Str) : CellStage :=
  ⟨{ LeaseObject.made with epoch := some epoch, query := if env.bound then some query else none }, [],
    [(.acquire, payload)], false, false⟩

/-- When it has been tried to stop the query. -/
def stopped (payload : List (Str × Json)) (epoch : Str) : CellStage :=
  { env.worked payload epoch with settled := env.bound && (!env.active || env.stopOk) }

theorem bodyOk_eq : env.bodyOk = env.outcome.isOk := by
  obtain ⟨acquire, cell, ticks, active, stop, beat, terminal⟩ := env
  rcases cell with e | (e | u) <;> rfl

end Surroundings

/-- A request has been posted. -/
def CellStage.post (s : CellStage) (action : PostAction) (payload : List (Str × Json)) : CellStage :=
  { s with posted := s.posted ++ [(action, payload)], early := s.early || s.isEarly action }

section
variable {env : Surroundings} {failure : Option LeaseExn} {s : CellStage} {epoch : Str}

/-! ### Jupyter -/

namespace StreamingLease

variable {lease : StreamingLease}

theorem heartbeat_run (h : s.object.epoch = some epoch) :
    Proc.runSome (env.answer failure) (heartbeat lease) s =
      some ((callReply .heartbeat env.finalHeartbeat).map fun _ => (),
        s.post .heartbeat (heartbeatPayload lease epoch)) := by
  obtain ⟨⟨owner, epoch', query, worker, stop, failed⟩, body, posted, settled, early⟩ := s
  dsimp only at h
  subst h
  obtain ⟨acquire, cell, ticks, active, stop, beat, terminal⟩ := env
  cases beat with
  | mapping r => rfl
  | other => rfl
  | raised e => cases e <;> rfl

theorem terminal_run (h : s.object.epoch = some epoch) :
    Proc.runSome (env.answer failure) (terminal lease) s =
      some ((callReply .terminal env.terminal).map fun _ => (),
        s.post .terminal (terminalPayload lease epoch)) := by
  obtain ⟨⟨owner, epoch', query, worker, stop, failed⟩, body, posted, settled, early⟩ := s
  dsimp only at h
  subst h
  obtain ⟨acquire, cell, ticks, active, stop, beat, terminal⟩ := env
  cases terminal with
  | mapping r => rfl
  | other => rfl
  | raised e => cases e <;> rfl

variable (lease) (failure) (s) in
/-- An interrupted final heartbeat ends the clean-up. -/
theorem finalize_interrupted (h : s.object.epoch = some epoch) (hbeat : env.finalHeartbeat.isInterrupt = true) :
    ∃ e, Proc.runSome (env.answer failure) (finalize lease) s =
      some (.error e, s.post .heartbeat (heartbeatPayload lease epoch)) := by
  refine ⟨.interrupt, (runSome_attempt_bind _ (heartbeat_run h)).trans ?_⟩
  cases hr : env.finalHeartbeat with
  | mapping m => simp [PostReply.isInterrupt, hr] at hbeat
  | other => simp [PostReply.isInterrupt, hr] at hbeat
  | raised e => cases e <;> first | rfl | simp [PostReply.isInterrupt, hr] at hbeat

variable (lease) (failure) (s) in
/-- Otherwise the terminal request is posted, and nothing is wrong just when both were answered. -/
theorem finalize_run (h : s.object.epoch = some epoch) (hbeat : env.finalHeartbeat.isInterrupt = false) :
    ∃ r, Proc.runSome (env.answer failure) (finalize lease) s =
      some (r, (s.post .heartbeat (heartbeatPayload lease epoch)).post .terminal (terminalPayload lease epoch)) ∧
      (r = .ok none ↔ (env.finalHeartbeat.isMapping && env.terminal.isMapping) = true) := by
  obtain ⟨⟨owner, epoch', query, worker, stop, failed⟩, body, posted, settled, early⟩ := s
  dsimp only at h
  subst h
  obtain ⟨acquire, cell, ticks, active, stop, beat, terminal⟩ := env
  rcases beat with _ | _ | (_ | _ | _)
  case raised.interrupt => simp [PostReply.isInterrupt] at hbeat
  all_goals
    rcases terminal with _ | _ | (_ | _ | _) <;> exact ⟨_, rfl, by simp [PostReply.isMapping]⟩

theorem call_run {action : PostAction} {payload : List (Str × Json)} :
    Proc.runSome (env.answer failure) (call action payload) s =
      some (callReply action (env.replyTo action), s.post action payload) := rfl

theorem orRaise_run {α : Type} {r : Except LeaseExn α} :
    Proc.runSome (env.answer failure) (orRaise r) s = some (r, s) := rfl

theorem enter_ok (h : env.acquired = .ok epoch) :
    Proc.runSome (env.answer failure) (enter lease) env.opening =
      some (.ok (), env.entered (acquirePayload lease) epoch) := by
  cases hr : callReply .acquire env.acquire with
  | error e => exact absurd h (by simp [Surroundings.acquired, hr, bind, Except.bind])
  | ok response =>
      have hepoch : epochOf response = .ok epoch := by
        simpa [Surroundings.acquired, hr, bind, Except.bind] using h
      refine (runSome_bind_ok _ (call_run.trans (congrArg (fun r => some (r, _)) hr))).trans ?_
      refine (runSome_bind_ok _ (orRaise_run.trans (congrArg (fun r => some (r, _)) hepoch))).trans rfl

theorem enter_error {e : LeaseExn} (h : env.acquired = .error e) :
    Proc.runSome (env.answer failure) (enter lease) env.opening =
      some (.error e, env.opening.post .acquire (acquirePayload lease)) := by
  cases hr : callReply .acquire env.acquire with
  | error e' =>
      obtain rfl : e' = e := by simpa [Surroundings.acquired, hr, bind, Except.bind] using h
      exact runSome_bind_error _ (call_run.trans (congrArg (fun r => some (r, _)) hr))
  | ok response =>
      have hepoch : epochOf response = .error e := by
        simpa [Surroundings.acquired, hr, bind, Except.bind] using h
      refine (runSome_bind_ok _ (call_run.trans (congrArg (fun r => some (r, _)) hr))).trans ?_
      exact runSome_bind_error _ (orRaise_run.trans (congrArg (fun r => some (r, _)) hepoch))

theorem runBody_run {payload : List (Str × Json)} :
    Proc.runSome (env.answer failure) (runBody 3) (env.entered payload epoch) =
      some (env.outcome, env.worked payload epoch) := by
  obtain ⟨acquire, cell, ticks, active, stop, beat, terminal⟩ := env
  rcases cell with e | (e | u) <;> rfl

/-- How `__exit__` goes on when it has been tried to stop the query. -/
def primary (env : Surroundings) : Except LeaseExn (Option LeaseExn) :=
  let body := match env.outcome with
    | .ok _ => none
    | .error e => some e
  if env.stopTried then stopOutcome body env.stop else .ok body

/-- The part of `__exit__` after that. -/
def settle (lease : StreamingLease) (outcome : Except LeaseExn Unit) (primary : Option LeaseExn) : L Unit := do
  let cleanup ← finalize lease
  let primary ← lateFailure cleanup primary
  match outcome, primary with
  | .error e, _ => throw e
  | .ok _, some e => throw e
  | .ok _, none => pure ()

theorem exit_run {payload : List (Str × Json)} :
    Proc.runSome (env.answer failure) (exit lease env.outcome) (env.worked payload epoch) =
      match primary env with
      | .error e => some (.error e, env.stopped payload epoch)
      | .ok primary =>
          Proc.runSome (env.answer failure) (settle lease env.outcome primary) (env.stopped payload epoch) := by
  obtain ⟨acquire, cell, ticks, active, stop, beat, terminal⟩ := env
  rcases cell with e | (e | u) <;> rcases active with _ | _ <;> rcases stop with (_ | _ | _) | _ <;> rfl

/-- The rest of `__exit__` raises when there is a failure of any kind. -/
theorem settle_run (outcome : Except LeaseExn Unit) (primary : Option LeaseExn) {r : Except LeaseExn (Option LeaseExn)}
    {s s' : CellStage} (hr : Proc.runSome (env.answer failure) (finalize lease) s = some (r, s')) :
    ∃ r', Proc.runSome (env.answer failure) (settle lease outcome primary) s = some (r', s') ∧
      (r'.isOk = true ↔ r = .ok none ∧ primary = none ∧ outcome.isOk = true ∧
        (s'.object.query.isSome → failure = none)) := by
  rcases r with e | cleanup
  · exact ⟨.error e, runSome_bind_error _ hr, by simp [Except.isOk, Except.toBool]⟩
  · rw [show Proc.runSome (env.answer failure) (settle lease outcome primary) s = _ from runSome_bind_ok _ hr]
    rcases primary with _ | e
    · obtain ⟨⟨owner, epoch', query, worker, stop, failed⟩, body, posted, settled, early⟩ := s'
      rcases outcome with e | u <;> rcases query with _ | query <;> rcases failure with _ | f <;>
        rcases cleanup with _ | c <;> exact ⟨_, rfl, by simp [Except.isOk, Except.toBool]⟩
    · rcases outcome with e' | u <;> exact ⟨_, rfl, by simp [Except.isOk, Except.toBool]⟩

/-! ### The whole session -/

/-- Without an epoch there is one request. -/
theorem session_unacquired {e : LeaseExn} (h : env.acquired = .error e) :
    Proc.runSome (env.answer failure) (session lease 3) env.opening =
      some (.error e, env.opening.post .acquire (acquirePayload lease)) :=
  (runSome_bind_ok _ rfl).trans (runSome_bind_error _ (enter_error h))

theorem session_acquired (h : env.acquired = .ok epoch) :
    Proc.runSome (env.answer failure) (session lease 3) env.opening =
      Proc.runSome (env.answer failure) (exit lease env.outcome) (env.worked (acquirePayload lease) epoch) :=
  (runSome_bind_ok _ rfl).trans ((runSome_bind_ok _ (enter_ok h)).trans (runSome_attempt_bind _ runBody_run))

variable (lease) (failure) in
/-- An interrupt of `query.stop()` is raised before the lease has ended. -/
theorem session_stopInterrupted {e : LeaseExn} (h : env.acquired = .ok epoch) (hp : primary env = .error e) :
    Proc.runSome (env.answer failure) (session lease 3) env.opening =
      some (.error e, env.stopped (acquirePayload lease) epoch) := by
  rw [session_acquired h, exit_run, hp]

variable (lease) (failure) in
theorem session_beatInterrupted {p : Option LeaseExn} (h : env.acquired = .ok epoch) (hp : primary env = .ok p)
    (hbeat : env.finalHeartbeat.isInterrupt = true) :
    ∃ e, Proc.runSome (env.answer failure) (session lease 3) env.opening =
      some (.error e, (env.stopped (acquirePayload lease) epoch).post .heartbeat (heartbeatPayload lease epoch)) := by
  obtain ⟨e, he⟩ := finalize_interrupted failure (env.stopped (acquirePayload lease) epoch) lease rfl hbeat
  refine ⟨e, ?_⟩
  rw [session_acquired h, exit_run, hp]
  exact runSome_bind_error _ he

variable (lease) (failure) in
/-- In all other cases both requests are posted. -/
theorem session_ended {p : Option LeaseExn} (h : env.acquired = .ok epoch) (hp : primary env = .ok p)
    (hbeat : env.finalHeartbeat.isInterrupt = false) :
    ∃ r, Proc.runSome (env.answer failure) (session lease 3) env.opening =
      some (r, ((env.stopped (acquirePayload lease) epoch).post .heartbeat (heartbeatPayload lease epoch)).post
        .terminal (terminalPayload lease epoch)) ∧
      (r.isOk = true ↔ (env.finalHeartbeat.isMapping && env.terminal.isMapping) = true ∧ p = none ∧
        env.outcome.isOk = true ∧ (env.bound = true → failure = none)) := by
  obtain ⟨r, hr, hok⟩ := finalize_run failure (env.stopped (acquirePayload lease) epoch) lease rfl hbeat
  obtain ⟨r', hr', hok'⟩ := settle_run env.outcome p hr
  refine ⟨r', ?_, ?_⟩
  · rw [session_acquired h, exit_run, hp]
    exact hr'
  · rw [hok', hok]
    cases hb : env.bound <;> simp [CellStage.post, Surroundings.stopped, Surroundings.worked, hb]

end StreamingLease

/-! ### Zeppelin -/

namespace CheckpointLease

variable {c : CheckpointLease}

theorem heartbeat_run (h : s.object.epoch = some epoch) :
    ∃ r, Proc.runSome (env.answer failure) (heartbeat c) s = some (r, s.post .heartbeat (c.heartbeatRequest epoch)) ∧
      r.isOk = !env.finalHeartbeat.isRaised := by
  obtain ⟨⟨owner, epoch', query, worker, stop, failed⟩, body, posted, settled, early⟩ := s
  dsimp only at h
  subst h
  obtain ⟨acquire, cell, ticks, active, stop, beat, terminal⟩ := env
  rcases beat with _ | _ | e <;> exact ⟨_, rfl, rfl⟩

variable (env) (failure) (s) in
theorem post_run (action : PostAction) (payload : List (Str × Json)) :
    Proc.runSome (env.answer failure) (post action payload) s =
      some (match env.replyTo action with
        | .raised e => .error e
        | reply => .ok reply, s.post action payload) := by
  cases hr : env.replyTo action <;> simp only [post, perform, StreamingLease.perform] <;>
    exact (runSome_bind_ok _ (runSome_perform _ _ _)).trans (by rw [hr]; rfl)

/-- The two classes read the same epochs. -/
theorem epochText_eq (r : PostReply) (epoch : Str) :
    epochText r = .ok epoch ↔ StreamingLease.callReply .acquire r >>= StreamingLease.epochOf = .ok epoch := by
  cases r with
  | mapping response =>
      simp only [epochText, StreamingLease.callReply, bind, Except.bind, StreamingLease.epochOf]
      grind
  | other => simp [epochText, StreamingLease.callReply, bind, Except.bind]
  | raised e => cases e <;> simp [epochText, StreamingLease.callReply, bind, Except.bind]

theorem make_ok (h : env.acquired = .ok epoch) :
    Proc.runSome (env.answer failure) (make c) env.opening =
      some (.ok (), env.entered c.acquireRequest epoch) := by
  have htext := (epochText_eq env.acquire epoch).mpr h
  have hpost : Proc.runSome (env.answer failure) (post .acquire c.acquireRequest) env.opening =
      some (.ok env.acquire, env.opening.post .acquire c.acquireRequest) := by
    rw [post_run]
    cases hr : env.acquire <;> simp [Surroundings.replyTo, hr, epochText] at htext ⊢
  refine (runSome_bind_ok _ hpost).trans ?_
  exact (runSome_bind_ok _ (StreamingLease.orRaise_run.trans (congrArg (fun r => some (r, _)) htext))).trans rfl

variable (c) (failure) in
theorem make_error {e : LeaseExn} (h : env.acquired = .error e) :
    ∃ e', Proc.runSome (env.answer failure) (make c) env.opening =
      some (.error e', env.opening.post .acquire c.acquireRequest) := by
  have hpost := post_run env failure env.opening .acquire c.acquireRequest
  have hread : ∀ reply, env.replyTo .acquire = reply → Proc.runSome (env.answer failure)
      (post .acquire c.acquireRequest) env.opening = some (.ok reply, env.opening.post .acquire c.acquireRequest) →
      ∃ e', Proc.runSome (env.answer failure) (make c) env.opening =
        some (.error e', env.opening.post .acquire c.acquireRequest) := by
    rintro reply rfl hp
    cases ht : epochText env.acquire with
    | ok epoch =>
        have hok : env.acquired = .ok epoch := (epochText_eq _ _).mp ht
        simp [h] at hok
    | error e' =>
        exact ⟨e', (runSome_bind_ok _ hp).trans
          (runSome_bind_error _ (StreamingLease.orRaise_run.trans (congrArg (fun r => some (r, _)) ht)))⟩
  cases hr : env.replyTo .acquire with
  | raised e' =>
      rw [hr] at hpost
      exact ⟨e', runSome_bind_error _ hpost⟩
  | mapping r => exact hread _ hr (by rw [hpost, hr])
  | other => exact hread _ hr (by rw [hpost, hr])

theorem runBlock_run {payload : List (Str × Json)} :
    Proc.runSome (env.answer failure) (runBlock 3) (env.entered payload epoch) =
      some (env.outcome, env.worked payload epoch) := by
  obtain ⟨acquire, cell, ticks, active, stop, beat, terminal⟩ := env
  rcases cell with e | (e | u) <;> rfl

/-- The part of `close` after the query. -/
def finish (c : CheckpointLease) : L Unit := do
  let finalHeartbeat ← Proc.attempt (heartbeat c)
  let epoch ← CheckpointLease.epoch
  let _ ← post .terminal (c.terminalRequest epoch)
  match finalHeartbeat with
  | .error _ => throw (.failure "heartbeat_failed")
  | .ok _ =>
      match (← perform .getFailure : Option LeaseExn) with
      | some failure => throw failure
      | none => pure ()

variable (env) (failure) (c) (epoch) in
/-- `close` raises what `query.stop()` raises, before it has posted anything. -/
theorem close_run (payload : List (Str × Json)) :
    Proc.runSome (env.answer failure) (close c) (env.worked payload epoch) =
      match env.stopTried, env.stop with
      | true, .error e => some (.error e, env.stopped payload epoch)
      | _, _ => Proc.runSome (env.answer failure) (finish c) (env.stopped payload epoch) := by
  obtain ⟨acquire, cell, ticks, active, stop, beat, terminal⟩ := env
  rcases cell with e | (e | u) <;> rcases active with _ | _ <;> rcases stop with e' | _ <;> rfl

variable (env) (failure) (c) (s) in
theorem finish_run (h : s.object.epoch = some epoch) :
    ∃ r, Proc.runSome (env.answer failure) (finish c) s =
      some (r, (s.post .heartbeat (c.heartbeatRequest epoch)).post .terminal (c.terminalRequest epoch)) ∧
      (r.isOk = true ↔ env.finalHeartbeat.isRaised = false ∧ env.terminal.isRaised = false ∧
        (s.object.query.isSome → failure = none)) := by
  obtain ⟨⟨owner, epoch', query, worker, stop, failed⟩, body, posted, settled, early⟩ := s
  dsimp only at h
  subst h
  obtain ⟨acquire, cell, ticks, active, stop, beat, terminal⟩ := env
  rcases terminal with _ | _ | e <;> rcases beat with _ | _ | e'
  case raised.mapping | raised.other | raised.raised =>
    exact ⟨_, rfl, by simp [PostReply.isRaised, Except.isOk, Except.toBool]⟩
  case mapping.raised | other.raised =>
    exact ⟨_, rfl, by simp [PostReply.isRaised, Except.isOk, Except.toBool]⟩
  all_goals
    rcases query with _ | query <;> rcases failure with _ | f <;>
      exact ⟨_, rfl, by simp [PostReply.isRaised, Except.isOk, Except.toBool]⟩

/-! ### The whole paragraph -/

variable (c) (failure) in
theorem paragraph_unacquired {e : LeaseExn} (h : env.acquired = .error e) :
    ∃ e', Proc.runSome (env.answer failure) (paragraph c 3) env.opening =
      some (.error e', env.opening.post .acquire c.acquireRequest) := by
  obtain ⟨e', he'⟩ := make_error failure c h
  exact ⟨e', (runSome_bind_ok _ rfl).trans (runSome_bind_error _ he')⟩

/-- How the paragraph ends, from how its block and the closing ended. -/
def verdict (outcome closed : Except LeaseExn Unit) : L Unit :=
  match closed, outcome with
  | _, .error e => throw e
  | .error e, .ok _ => throw e
  | .ok _, .ok _ => pure ()

theorem paragraph_acquired {r : Except LeaseExn Unit} {s' : CellStage} (h : env.acquired = .ok epoch)
    (hr : Proc.runSome (env.answer failure) (close c) (env.worked c.acquireRequest epoch) = some (r, s')) :
    ∃ r', Proc.runSome (env.answer failure) (paragraph c 3) env.opening = some (r', s') ∧
      (r'.isOk = true ↔ env.outcome.isOk = true ∧ r.isOk = true) := by
  have hrun : Proc.runSome (env.answer failure) (paragraph c 3) env.opening =
      Proc.runSome (env.answer failure) (verdict env.outcome r) s' :=
    (runSome_bind_ok _ rfl).trans ((runSome_bind_ok _ (make_ok h)).trans
      ((runSome_attempt_bind _ runBlock_run).trans (runSome_attempt_bind _ hr)))
  rw [hrun]
  rcases ho : env.outcome with e | u <;> rcases r with e' | u' <;>
    exact ⟨_, rfl, by simp [Except.isOk, Except.toBool]⟩

variable (c) (failure) in
/-- A query that could not be stopped leaves the lease as it is. -/
theorem paragraph_unstopped (h : env.acquired = .ok epoch) (ht : env.stopTried = true) (hs : env.stopOk = false) :
    ∃ e, Proc.runSome (env.answer failure) (paragraph c 3) env.opening =
      some (.error e, env.stopped c.acquireRequest epoch) := by
  have hclose := close_run env failure epoch c c.acquireRequest
  cases hstop : env.stop with
  | ok u => simp [Surroundings.stopOk, hstop, Except.isOk, Except.toBool] at hs
  | error e =>
      rw [ht, hstop] at hclose
      obtain ⟨r, hr, hok⟩ := paragraph_acquired h hclose
      cases r with
      | error e' => exact ⟨e', hr⟩
      | ok u => simp [Except.isOk, Except.toBool] at hok

variable (c) (failure) in
/-- In all other cases both requests are posted. -/
theorem paragraph_ended (h : env.acquired = .ok epoch) (hs : (env.stopTried && !env.stopOk) = false) :
    ∃ r, Proc.runSome (env.answer failure) (paragraph c 3) env.opening =
      some (r, ((env.stopped c.acquireRequest epoch).post .heartbeat (c.heartbeatRequest epoch)).post
        .terminal (c.terminalRequest epoch)) ∧
      (r.isOk = true ↔ env.outcome.isOk = true ∧ env.finalHeartbeat.isRaised = false ∧
        env.terminal.isRaised = false ∧ (env.bound = true → failure = none)) := by
  have hclose := close_run env failure epoch c c.acquireRequest
  obtain ⟨r, hr, hok⟩ := finish_run env failure (env.stopped c.acquireRequest epoch) c rfl
  have hfinish : Proc.runSome (env.answer failure) (close c) (env.worked c.acquireRequest epoch) =
      some (r, ((env.stopped c.acquireRequest epoch).post .heartbeat (c.heartbeatRequest epoch)).post
        .terminal (c.terminalRequest epoch)) := by
    cases ht : env.stopTried with
    | false => rw [hclose, ht]; exact hr
    | true =>
        cases hstop : env.stop with
        | ok u => rw [hclose, ht, hstop]; exact hr
        | error e => simp [ht, Surroundings.stopOk, hstop, Except.isOk, Except.toBool] at hs
  obtain ⟨r', hr', hok'⟩ := paragraph_acquired h hfinish
  refine ⟨r', hr', ?_⟩
  rw [hok', hok]
  cases hb : env.bound <;> simp [Surroundings.stopped, Surroundings.worked, hb]

end CheckpointLease
end

/-! ### The periodic heartbeats -/

/-- A lease that holds, with a bound query. -/
def Beats.Holds (s : Beats) : Prop :=
  s.object.epoch.isSome ∧ s.object.query.isSome ∧ s.object.stop = false

section
variable {env : Surroundings} {s : Beats}

variable (env) (s) in
/-- The worker of the Python class gives up at the first answer that is not an object. -/
theorem StreamingLease.heartbeatLoop_run (lease : StreamingLease) (k : Nat) (h : s.Holds)
    (hf : s.object.failure = none) :
    ∃ r s', Proc.runSome env.tick (StreamingLease.heartbeatLoop lease (s.ticks.length + 1 + k)) s = some (r, s') ∧
      s'.object.failure.isSome = s.ticks.any fun reply => !reply.isMapping := by
  obtain ⟨⟨owner, epoch, query, worker, stop, failed⟩, ticks⟩ := s
  obtain ⟨hepoch, hquery, hstop⟩ := h
  obtain ⟨epoch, rfl⟩ := Option.isSome_iff_exists.mp hepoch
  obtain ⟨query, rfl⟩ := Option.isSome_iff_exists.mp hquery
  dsimp only at hstop hf
  subst hstop hf
  clear hepoch hquery
  induction ticks generalizing k with
  | nil =>
      rw [Nat.add_comm]
      exact ⟨_, _, rfl, rfl⟩
  | cons reply rest ih =>
      rw [show (reply :: rest).length + 1 + k = (rest.length + 1 + k) + 1 by simp; omega]
      rcases reply with _ | _ | (_ | _ | _)
      case mapping m =>
        obtain ⟨r, s', hrun, hfailed⟩ := ih k
        exact ⟨r, s', hrun, by simpa [PostReply.isMapping] using hfailed⟩
      all_goals exact ⟨_, _, rfl, by simp [PostReply.isMapping]⟩

variable (env) (s) in
/-- The scheduled heartbeats of the Scala class go on, and keep the first failure. -/
theorem CheckpointLease.scheduled_run (c : CheckpointLease) (k : Nat) (h : s.Holds) :
    ∃ r s', Proc.runSome env.tick (c.scheduled (s.ticks.length + 1 + k)) s = some (r, s') ∧
      s'.object.failure.isSome = (s.object.failure.isSome || s.ticks.any PostReply.isRaised) := by
  obtain ⟨⟨owner, epoch, query, worker, stop, failed⟩, ticks⟩ := s
  obtain ⟨hepoch, hquery, hstop⟩ := h
  obtain ⟨epoch, rfl⟩ := Option.isSome_iff_exists.mp hepoch
  obtain ⟨query, rfl⟩ := Option.isSome_iff_exists.mp hquery
  dsimp only at hstop
  subst hstop
  clear hepoch hquery
  induction ticks generalizing k failed with
  | nil =>
      rw [Nat.add_comm]
      exact ⟨_, _, rfl, by simp⟩
  | cons reply rest ih =>
      rw [show (reply :: rest).length + 1 + k = (rest.length + 1 + k) + 1 by simp; omega]
      rcases reply with m | _ | e
      case mapping | other =>
        obtain ⟨r, s', hrun, hfailed⟩ := ih k failed
        exact ⟨r, s', hrun, by simpa [PostReply.isRaised] using hfailed⟩
      case raised =>
        obtain ⟨acquire, cell, ticks, active, stop, beat, terminal⟩ := env
        obtain ⟨r, s', hrun, hfailed⟩ := ih k (failed.or (some (.failure "heartbeat_failed")))
        refine ⟨r, s', ?_, by simpa [PostReply.isRaised] using hfailed⟩
        rw [← hrun]
        rcases failed with _ | f <;> rcases active with _ | _ <;> rcases stop with e' | u <;> rfl

end

end Checkpoints
