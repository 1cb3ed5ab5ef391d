/-
One lease, two notebooks.

A streaming scenario has a notebook in Python, whose cell is a `with` block over
`StreamingLease`, and one in Scala, whose paragraph makes a `CheckpointLease` and closes it
in a `finally`.  Both are made from the same `Notebook` here, and both are run against the
same surroundings: how the service answers each request, how the cell's body ends, whether
the query is still active at the end and whether it can be stopped.

The Scala class is translated as it stands in the notebooks, over the calls that the Python
class makes: `setStop` is `executor.shutdownNow()`, `startWorker` schedules the heartbeats,
and the failure attribute is `heartbeatFailure`.
-/
import DataEngLab.Checkpoints.NotebookLease
import DataEngLab.Lib.Scripted
import DataEngLab.Lib.JsonDumps

namespace Checkpoints

open Lib StreamingLease

/-! ### Notebooks -/

/-- What both notebooks of a scenario say of their lease; the generation has each key once. -/
structure Notebook where
  checkpointId : Str
  keyPrefix : Str
  workload : Str
  terminalState : Str
  generation : List (Str × Str)
  distinct : (generation.map Prod.fst).Nodup

/-- `Map` or `dict` of the generation, as JSON. -/
def generationDocument (generation : List (Str × Str)) : Json :=
  .obj (generation.map fun entry => (entry.1, .str entry.2))

/-- The arguments of `StreamingLease(...)` in the Jupyter notebook. -/
def Notebook.python (n : Notebook) (sessionId : Str) : StreamingLeaseConfig where
  checkpointId := n.checkpointId
  keyPrefix := n.keyPrefix
  workload := n.workload
  ownerId := lit "jupyter-notebook"
  sessionId := sessionId
  terminalState := n.terminalState
  terminalEvidence := [(lit "generation", generationDocument n.generation)]

/-! ### The Scala lease -/

/-- `new CheckpointLease(...)` of the Zeppelin notebook, with its session. -/
structure CheckpointLease where
  notebook : Notebook
  sessionId : Str

namespace CheckpointLease

abbrev perform (e : SessionCall) : L (SessionAnswer e) := StreamingLease.perform e

/-- `post`: any JSON value is returned. -/
def post (action : PostAction) (payload : List (Str × Json)) : L PostReply := do
  match ← perform (.post action payload) with
  | .raised e => throw e
  | reply => pure reply

variable (c : CheckpointLease)

def acquireRequest : List (Str × Json) :=
  requestOf [("checkpoint_id", .str c.notebook.checkpointId), ("owner_id", .str (lit "zeppelin-notebook")),
    ("prefix", .str c.notebook.keyPrefix), ("session_id", .str c.sessionId),
    ("workload", .str c.notebook.workload)]

def heartbeatRequest (epoch : Str) : List (Str × Json) :=
  requestOf [("checkpoint_id", .str c.notebook.checkpointId), ("epoch", .str epoch),
    ("prefix", .str c.notebook.keyPrefix)]

/-- The generation is sorted by its keys. -/
def terminalRequest (epoch : Str) : List (Str × Json) :=
  requestOf [("checkpoint_id", .str c.notebook.checkpointId), ("epoch", .str epoch),
    ("prefix", .str c.notebook.keyPrefix), ("state", .str c.notebook.terminalState),
    ("evidence", .obj [(lit "generation",
      generationDocument (c.notebook.generation.insertionSort fun a b => a.1 ≤ b.1))])]

/-- `path("epoch").asText("")`, which has to match the pattern; no text of a number does. -/
def epochText : PostReply → Except LeaseExn Str
  | .mapping response =>
      match Json.get "epoch" response with
      | some (.str epoch) => if uuid.fullmatch epoch then .ok epoch else .error .other
      | _ => .error .other
  | _ => .error .other

/-- The value of `epoch`, made with the object. -/
def make : L Unit := do
  let response ← post .acquire c.acquireRequest
  let epoch ← orRaise (epochText response)
  perform (.setEpoch epoch)

/-- The epoch of an object that has been made. -/
def epoch : L Str := do
  orRaise (orElse (← perform .getEpoch) .other)

def heartbeat : L Unit := do
  let epoch ← epoch
  let _ ← post .heartbeat (c.heartbeatRequest epoch)
  pure ()

/-- `bindQuery` -/
def bindQuery (query : Query) : L Unit := do
  if Option.isSome (← perform .getQuery) then throw .other
  else do
    perform (.setQuery query)
    orRaise (← perform .startWorker)

/-- `if (query != null && query.isActive) query.stop()` -/
def stopActive (query : Option Query) : L Unit := do
  match query with
  | none => pure ()
  | some query =>
      match ← perform (.isActive query) with
      | .yes => orRaise (← perform (.stopQuery query))
      | .raised e => throw e
      | _ => pure ()

/-- The scheduled heartbeats, up to `beats` of them; the first failure stays. -/
def scheduled : Nat → L Unit
  | 0 => pure ()
  | beats + 1 => do
      match (← perform .waitStop : Bool) with
      | true => pure ()
      | false => do
          match ← Proc.attempt (heartbeat c) with
          | .ok _ => scheduled beats
          | .error _ => do
              if Option.isNone (← perform .getFailure) then perform (.setFailure (.failure "heartbeat_failed"))
              else pure ()
              let _ ← (Proc.attempt (stopActive (← perform .getQuery)) : L (Except LeaseExn Unit))
              scheduled beats

/-- `close` -/
def close : L Unit := do
  perform .setStop
  stopActive (← perform .getQuery)
  let finalHeartbeat ← Proc.attempt (heartbeat c)
  let epoch ← epoch
  let _ ← post .terminal (c.terminalRequest epoch)
  match finalHeartbeat with
  | .error _ => throw (.failure "heartbeat_failed")
  | .ok _ =>
      match (← perform .getFailure : Option LeaseExn) with
      | some failure => throw failure
      | none => pure ()

/-- The `try` block of the paragraph, up to `steps` steps. -/
def runBlock : Nat → L Unit
  | 0 => do
      let never ← perform .hang
      nomatch never
  | steps + 1 => do
      match ← perform .body with
      | .ends => pure ()
      | .raises e => throw e
      | .bind query => do
          bindQuery query
          runBlock steps
      | _ => runBlock steps

/-- The paragraph: what closing raises counts only when the block has not raised. -/
def paragraph (steps : Nat) : L Unit := do
  perform .enter
  make c
  let outcome ← Proc.attempt (runBlock steps)
  match ← Proc.attempt (close c), outcome with
  | _, .error e => throw e
  | .error e, .ok _ => throw e
  | .ok _, .ok _ => pure ()

end CheckpointLease

/-! ### Surroundings -/

/-- How the body of the cell goes: it fails before there is a query, or binds one and ends. -/
inductive CellBody where
  | fails (e : LeaseExn)
  | runs (outcome : Except LeaseExn Unit)

/-- What a notebook meets. -/
structure Surroundings where
  acquire : PostReply
  body : CellBody
  /-- the answers to the periodic heartbeats while the query runs -/
  ticks : List PostReply
  /-- the query says that it is active when the lease ends -/
  active : Bool
  /-- how `query.stop()` ends then -/
  stop : Except LeaseExn Unit
  finalHeartbeat : PostReply
  terminal : PostReply

namespace Surroundings

variable (env : Surroundings)

def query : Query := ⟨0, true⟩

def bodySteps : List BodyStep :=
  match env.body with
  | .fails e => [.raises e]
  | .runs (.ok _) => [.bind query, .ends]
  | .runs (.error e) => [.bind query, .raises e]

def bound : Bool :=
  match env.body with
  | .fails _ => false
  | .runs _ => true

def bodyOk : Bool :=
  match env.body with
  | .runs (.ok _) => true
  | _ => false

def replyTo : PostAction → PostReply
  | .acquire => env.acquire
  | .heartbeat => env.finalHeartbeat
  | .terminal => env.terminal

end Surroundings

/-- While a notebook runs: its lease object, what is left of the body, the requests it has posted, whether
the query has stopped, and whether a terminal request was posted before that. -/
structure CellStage where
  object : LeaseObject
  body : List BodyStep
  posted : List (PostAction × List (Str × Json))
  settled : Bool
  early : Bool

/-- A terminal request while the bound query has not stopped. -/
def CellStage.isEarly (s : CellStage) (action : PostAction) : Bool :=
  action == .terminal && s.object.query.isSome && !s.settled

/-- What the surroundings answer; `failure` is what the periodic heartbeats have left behind. -/
def Surroundings.answer (env : Surroundings) (failure : Option LeaseExn) :
    CellStage → (e : SessionCall) → Option (SessionAnswer e × CellStage)
  | s, .enter => some ((), s)
  | s, .body =>
      match s.body with
      | [] => none
      | step :: rest => some (step, { s with body := rest })
  | s, .post action payload => some (env.replyTo action,
      { s with posted := s.posted ++ [(action, payload)], early := s.early || s.isEarly action })
  | s, .getEpoch => some (s.object.epoch, s)
  | s, .setEpoch epoch => some ((), { s with object := { s.object with epoch := some epoch } })
  | s, .getQuery => some (s.object.query, s)
  | s, .setQuery query => some ((), { s with object := { s.object with query := some query } })
  | s, .startWorker => some (.ok (), s)
  | s, .setStop => some ((), s)
  | s, .join => some (.ok (), s)
  | s, .isActive _ => some (if env.active then .yes else .no, { s with settled := s.settled || !env.active })
  | s, .stopQuery _ => some (env.stop, { s with settled := s.settled || env.stop.isOk })
  | s, .getFailure => some (if s.object.query.isSome then failure else none, s)
  | _, _ => none

/-- Before a notebook runs. -/
def Surroundings.opening (env : Surroundings) : CellStage := ⟨.made, env.bodySteps, [], false, false⟩

/-- While the periodic heartbeats run: the lease object, and the answers that are still to come. -/
structure Beats where
  object : LeaseObject
  ticks : List PostReply

/-- What the periodic heartbeats meet; they end when nothing more is to come. -/
def Surroundings.tick (env : Surroundings) : Beats → (e : SessionCall) → Option (SessionAnswer e × Beats)
  | s, .begins => some ((), s)
  | s, .waitStop => some (s.object.stop || s.ticks.isEmpty, s)
  | s, .post _ _ =>
      match s.ticks with
      | [] => none
      | reply :: rest => some (reply, { s with ticks := rest })
  | s, .getEpoch => some (s.object.epoch, s)
  | s, .getQuery => some (s.object.query, s)
  | s, .getFailure => some (s.object.failure, s)
  | s, .setFailure e => some ((), { s with object := { s.object with failure := some e } })
  | s, .setStop => some ((), { s with object := { s.object with stop := true } })
  | s, .isActive _ => some (if env.active then .yes else .no, s)
  | s, .stopQuery _ => some (env.stop, s)
  | _, _ => none

/-- The failure that a program of periodic heartbeats leaves behind, started with a lease that holds. -/
def Surroundings.failureOf (env : Surroundings) (program : L Unit) (epoch : Str) : Option LeaseExn :=
  match Proc.runSome env.tick program
    ⟨{ LeaseObject.made with epoch := some epoch, query := some Surroundings.query }, env.ticks⟩ with
  | some (_, s) => s.object.failure
  | none => none

/-! ### The two runs -/

/-- How a notebook ended. -/
structure Ended where
  posted : List (PostAction × List (Str × Json))
  early : Bool
  failed : Bool

def Surroundings.ended (env : Surroundings) (failure : Option LeaseExn) (program : L Unit) : Option Ended :=
  (Proc.runSome (env.answer failure) program env.opening).map fun x =>
    ⟨x.2.posted, x.2.early, !x.1.isOk⟩

/-- The epoch that was acquired, for the heartbeats. -/
def Surroundings.epoch (env : Surroundings) : Str :=
  match callReply .acquire env.acquire >>= StreamingLease.epochOf with
  | .ok epoch => epoch
  | .error _ => []

/-- The Jupyter notebook. -/
def Surroundings.jupyter (env : Surroundings) (lease : StreamingLease) : Option Ended :=
  env.ended (env.failureOf (StreamingLease.worker lease (env.ticks.length + 1)) env.epoch)
    (StreamingLease.session lease 3)

/-- The Zeppelin notebook. -/
def Surroundings.zeppelin (env : Surroundings) (c : CheckpointLease) : Option Ended :=
  env.ended (env.failureOf (c.scheduled (env.ticks.length + 1)) env.epoch) (c.paragraph 3)

end Checkpoints
