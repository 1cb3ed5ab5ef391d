/-
The lease of a notebook.

`StreamingLease` is used by two threads: the notebook's own, which acquires the lease, runs
the body and ends the lease, and a worker that `bind_query` starts and that sends a
heartbeat now and then.  They share the attributes of the lease object, and what they call
on is outside: the service behind `post`, the query, and the body.

`session` and `worker` are the two threads.  The body is given by its steps, each an answer
to the session, so that a run goes through any of them.
-/
import DataEngLab.Checkpoints.Leases
import DataEngLab.Lib.Pool

namespace Checkpoints

open Lib

/-! ### What the lease is made with -/

structure StreamingLeaseConfig where
  checkpointId : Str
  keyPrefix : Str
  workload : Str
  ownerId : Str
  sessionId : Str
  terminalState : Str
  terminalEvidence : List (Str × Json)
deriving Inhabited

/-- The checks of the constructor. -/
def StreamingLeaseConfig.valid (cfg : StreamingLeaseConfig) : Bool :=
  [cfg.checkpointId, cfg.workload, cfg.ownerId, cfg.sessionId].all isIdentity &&
    !cfg.keyPrefix.isEmpty && isAscii cfg.keyPrefix &&
    ["stopped", "completed", "retired"].any fun s => lit s == cfg.terminalState

/-- A lease object that has been made. -/
structure StreamingLease extends StreamingLeaseConfig where
  isValid : toStreamingLeaseConfig.valid = true

/-- What the session raises. -/
inductive LeaseExn where
  /-- `NotebookLeaseFailure`, by its code -/
  | failure (code : String)
  /-- `KeyboardInterrupt` or `SystemExit` -/
  | interrupt
  /-- any other exception -/
  | other
deriving DecidableEq

/-- A query, as far as `bind_query` looks at it. -/
structure Query where
  id : Nat
  hasStop : Bool
deriving DecidableEq

/-! ### What the threads call on -/

inductive PostAction where
  | acquire
  | heartbeat
  | terminal
deriving DecidableEq

def PostAction.failureCode : PostAction → String
  | .acquire => "acquire_failed"
  | .heartbeat => "heartbeat_failed"
  | .terminal => "terminal_failed"

/-- How a call of `post` ends. -/
inductive PostReply where
  | mapping (response : List (Str × Json))
  /-- a value that is not a mapping -/
  | other
  | raised (e : LeaseExn)

/-- `getattr(query, "isActive", False)` -/
inductive ActiveReply where
  | yes
  | no
  /-- the query has no such attribute -/
  | missing
  | raised (e : LeaseExn)
deriving DecidableEq

/-- What the body of the `with` statement does next. -/
inductive BodyStep where
  | bind (query : Query)
  /-- it has called `stop` of the bound query, which has returned -/
  | stopped
  | other
  | ends
  | raises (e : LeaseExn)
deriving DecidableEq

inductive SessionCall where
  /-- the `with` statement is reached -/
  | enter
  | body
  | post (action : PostAction) (payload : List (Str × Json))
  | getEpoch
  | setEpoch (epoch : Str)
  | getQuery
  | setQuery (query : Query)
  /-- the worker is made and started -/
  | startWorker
  /-- the worker's first step -/
  | begins
  /-- `self._stop.set()` -/
  | setStop
  /-- `self._stop.wait(heartbeat_seconds)` -/
  | waitStop
  /-- `if self._worker is not None: self._worker.join(timeout)` -/
  | join
  | isActive (query : Query)
  | stopQuery (query : Query)
  | getFailure
  | setFailure (e : LeaseExn)
  /-- nothing more happens -/
  | hang

def SessionAnswer : SessionCall → Type
  | .enter => Unit
  | .body => BodyStep
  | .post .. => PostReply
  | .getEpoch => Option Str
  | .setEpoch _ => Unit
  | .getQuery => Option Query
  | .setQuery _ => Unit
  | .startWorker => Except LeaseExn Unit
  | .begins => Unit
  | .setStop => Unit
  | .waitStop => Bool
  | .join => Except LeaseExn Unit
  | .isActive _ => ActiveReply
  | .stopQuery _ => Except LeaseExn Unit
  | .getFailure => Option LeaseExn
  | .setFailure _ => Unit
  | .hang => Empty

abbrev L (α : Type) := Proc SessionCall SessionAnswer LeaseExn α

/-- The attributes of the lease object that the threads share. -/
structure LeaseObject where
  /-- the thread that has entered the `with` statement -/
  owner : Option Nat
  epoch : Option Str
  query : Option Query
  /-- the worker: `false` when starting it failed -/
  worker : Option Bool
  stop : Bool
  failure : Option LeaseExn

def LeaseObject.made : LeaseObject := ⟨none, none, none, none, false, none⟩

namespace StreamingLease

def perform (e : SessionCall) : L (SessionAnswer e) := Proc.perform e

/-- The exception of a call that raises. -/
def orRaise {α : Type} (r : Except LeaseExn α) : L α := Proc.lift r

/-! ### Requests -/

/-- `_call` -/
def callReply (action : PostAction) (r : PostReply) : Except LeaseExn (List (Str × Json)) :=
  match r with
  | .mapping response => .ok response
  | .other => .error (.failure "lease_response_invalid")
  | .raised .other => .error (.failure action.failureCode)
  | .raised e => .error e

def call (action : PostAction) (payload : List (Str × Json)) : L (List (Str × Json)) := do
  let reply ← perform (.post action payload)
  orRaise (callReply action reply)

section
variable (lease : StreamingLease)

/-- The body of a request, its keys as given. -/
def requestOf (members : List (String × Json)) : List (Str × Json) := members.map fun m => (lit m.1, m.2)

def acquirePayload : List (Str × Json) :=
  requestOf [("checkpoint_id", .str lease.checkpointId), ("owner_id", .str lease.ownerId),
    ("prefix", .str lease.keyPrefix), ("session_id", .str lease.sessionId), ("workload", .str lease.workload)]

def heartbeatPayload (epoch : Str) : List (Str × Json) :=
  requestOf [("checkpoint_id", .str lease.checkpointId), ("epoch", .str epoch), ("prefix", .str lease.keyPrefix)]

def terminalPayload (epoch : Str) : List (Str × Json) :=
  requestOf [("checkpoint_id", .str lease.checkpointId), ("epoch", .str epoch),
    ("evidence", .obj lease.terminalEvidence), ("prefix", .str lease.keyPrefix),
    ("state", .str lease.terminalState)]

/-- The epoch of a response to an acquisition. -/
def epochOf (response : List (Str × Json)) : Except LeaseExn Str :=
  match Json.get "epoch" response with
  | some (.str epoch) => if uuid.fullmatch epoch then .ok epoch else .error (.failure "lease_response_invalid")
  | _ => .error (.failure "lease_response_invalid")

/-- `__enter__` -/
def enter : L Unit := do
  let response ← call .acquire (acquirePayload lease)
  let epoch ← orRaise (epochOf response)
  perform (.setEpoch epoch)

/-- `_require_epoch` -/
def requireEpoch : L Str := do
  let epoch ← perform .getEpoch
  orRaise (orElse epoch (.failure "lease_not_acquired"))

/-- `_heartbeat` -/
def heartbeat : L Unit := do
  let epoch ← requireEpoch
  let _ ← call .heartbeat (heartbeatPayload lease epoch)
  pure ()

/-- The terminal request. -/
def terminal : L Unit := do
  let epoch ← requireEpoch
  let _ ← call .terminal (terminalPayload lease epoch)
  pure ()

/-- `_finalize`: the failure it returns. -/
def finalize : L (Option LeaseExn) := do
  let beat ← Proc.attempt (heartbeat lease)
  match beat with
  | .error .interrupt => throw .interrupt
  | beat => do
      let failure : Option LeaseExn := match beat with
        | .ok _ => none
        | .error _ => some (.failure "final_heartbeat_failed")
      let ended ← Proc.attempt (terminal lease)
      match ended, failure with
      | .ok _, failure => pure failure
      | .error .interrupt, none => throw .interrupt
      | .error .interrupt, some failure => pure (some failure)
      | .error _, none => pure (some (.failure "terminal_failed"))
      | .error _, some failure => pure (some failure)

/-! ### The session -/

/-- `bind_query`, within the session. -/
def bindQuery (query : Query) : L Unit := do
  let epoch ← perform .getEpoch
  let bound ← perform .getQuery
  if Option.isNone epoch || Option.isSome bound || !query.hasStop then throw (.failure "query_invalid")
  else do
    perform (.setQuery query)
    let started ← perform .startWorker
    orRaise started

/-- The body, up to `steps` steps.  What `bind_query` raises is the body's to handle: it may go on or
raise it. -/
def runBody : Nat → L Unit
  | 0 => do
      let never ← perform .hang
      nomatch never
  | steps + 1 => do
      let step ← perform .body
      match step with
      | .ends => pure ()
      | .raises e => throw e
      | .bind query => do
          let _ ← (Proc.attempt (bindQuery query) : L (Except LeaseExn Unit))
          runBody steps
      | _ => runBody steps

/-- What `__exit__` goes on with when `query.stop()` has ended. -/
def stopOutcome (primary : Option LeaseExn) (r : Except LeaseExn Unit) : Except LeaseExn (Option LeaseExn) :=
  match r, primary with
  | .ok _, primary => .ok primary
  | .error .interrupt, none => .error .interrupt
  | .error _, none => .ok (some (.failure "query_stop_failed"))
  | .error _, some primary => .ok (some primary)

/-- The query is stopped if it says it is active. -/
def stopActive (query : Query) (primary : Option LeaseExn) : L (Option LeaseExn) := do
  let active ← perform (.isActive query)
  match active with
  | .yes => do
      let stopped ← perform (.stopQuery query)
      orRaise (stopOutcome primary stopped)
  | .raised e => throw e
  | _ => pure primary

/-- `self._worker_failure or cleanup` -/
def lateFailure (cleanup : Option LeaseExn) : Option LeaseExn → L (Option LeaseExn)
  | some primary => pure (some primary)
  | none => do
      let failure ← perform .getFailure
      pure (failure.or cleanup)

/-- `__exit__`, given how the body ended; in the end the body's own exception goes on. -/
def exit (outcome : Except LeaseExn Unit) : L Unit := do
  perform .setStop
  let joined ← perform .join
  orRaise joined
  let query ← perform .getQuery
  let primary : Option LeaseExn := match outcome with
    | .ok _ => none
    | .error e => some e
  let primary ← match query with
    | some query => stopActive query primary
    | none => pure primary
  let cleanup ← finalize lease
  let primary ← lateFailure cleanup primary
  match outcome, primary with
  | .error e, _ => throw e
  | .ok _, some e => throw e
  | .ok _, none => pure ()

/-- `with lease: …` -/
def session (steps : Nat) : L Unit := do
  perform .enter
  enter lease
  let outcome ← Proc.attempt (runBody steps)
  exit lease outcome

/-! ### The worker -/

/-- What the worker does when a heartbeat has failed. -/
def giveUp : L Unit := do
  perform (.setFailure (.failure "heartbeat_failed"))
  let query ← perform .getQuery
  match query with
  | some query => do
      let _ ← perform (.stopQuery query)
      perform .setStop
  | none => perform .setStop

/-- `_heartbeat_loop`, up to `beats` rounds.  The worker's failure is set nowhere else. -/
def heartbeatLoop : Nat → L Unit
  | 0 => do
      let never ← perform .hang
      nomatch never
  | beats + 1 => do
      let stopped ← perform .waitStop
      match (stopped : Bool) with
      | true => pure ()
      | false => do
          let beat ← Proc.attempt (heartbeat lease)
          match beat with
          | .ok _ => heartbeatLoop beats
          | .error _ => giveUp

def worker (beats : Nat) : L Unit := do
  perform .begins
  heartbeatLoop lease beats

end

end StreamingLease

/-! ### Runs -/

/-- The two kinds of threads. -/
inductive LeaseThread where
  | session (steps : Nat)
  | worker (beats : Nat)

/-- The surroundings answer anything; the attributes are what was last written, one session enters,
the worker begins when it has been started, and only a thread that has been started can be joined. -/
def sessionAnswers : Answers LeaseObject SessionCall SessionAnswer := fun t s e r w =>
  match e, r with
  | .enter, _ => s.world.owner = none ∧ w = { s.world with owner := some t }
  | .getEpoch, epoch => epoch = s.world.epoch ∧ w = s.world
  | .setEpoch epoch, _ => w = { s.world with epoch := some epoch }
  | .getQuery, query => query = s.world.query ∧ w = s.world
  | .setQuery query, _ => w = { s.world with query := some query }
  | .startWorker, .ok _ => w = { s.world with worker := some true }
  | .startWorker, .error _ => w = { s.world with worker := some false }
  | .begins, _ => s.world.worker = some true ∧ w = s.world
  | .setStop, _ => w = { s.world with stop := true }
  | .waitStop, stopped => stopped = s.world.stop ∧ w = s.world
  | .join, r => (s.world.worker = some false → r = .error .other) ∧ w = s.world
  | .getFailure, failure => failure = s.world.failure ∧ w = s.world
  | .setFailure e, _ => w = { s.world with failure := some e }
  | _, _ => w = s.world

/-- A session of a lease and its worker. -/
def sessionMachine (lease : StreamingLease) :
    Machine LeaseThread LeaseObject SessionCall SessionAnswer (Except LeaseExn Unit) where
  code
    | .session steps => StreamingLease.session lease steps
    | .worker beats => StreamingLease.worker lease beats
  step _ := sessionAnswers
  drift _ _ := False

end Checkpoints
