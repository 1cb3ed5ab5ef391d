/-
The MovieLens pipeline and its two tables.

`runResolved` replaces the table of user features and then that of movie features, reads both
back, and in the end compares the provenance of the two.  Any number of executions work on
the same two tables.  A table is replaced at once, its rows with its provenance, and so are a
frame and the properties of a table read; between two calls of one execution others may do
anything.  Every action of Spark may fail.
-/
import DataEngLab.Lib.Histories
import DataEngLab.MovieLens.Features

namespace MovieLens

open Lib

/-! ### Provenance -/

structure Provenance where
  scale : Str
  planId : Str
  publicationId : Str
  manifestSha256 : Str
deriving DecidableEq

/-- A `Map[String, String]`, by its entries. -/
abbrev Properties := List (String × Str)

def Provenance.properties (p : Provenance) : Properties :=
  [("data_eng_lab.dataset", lit "movielens"), ("data_eng_lab.dataset.scale", p.scale),
    ("data_eng_lab.dataset.plan_id", p.planId), ("data_eng_lab.dataset.publication_id", p.publicationId),
    ("data_eng_lab.dataset.manifest_sha256", p.manifestSha256)]

/-- The names of the properties of every provenance. -/
def provenanceNames : List String :=
  ["data_eng_lab.dataset", "data_eng_lab.dataset.scale", "data_eng_lab.dataset.plan_id",
    "data_eng_lab.dataset.publication_id", "data_eng_lab.dataset.manifest_sha256"]

/-- `filter { case (name, _) => provenance.properties.contains(name) }`: two maps filtered so are equal
when these values are. -/
def generationOf (properties : Properties) : List (Option Str) :=
  provenanceNames.map fun name => properties.lookup name

/-! ### Tables -/

inductive Table where
  | user
  | movie
deriving DecidableEq

def Table.name : Table → String
  | .user => "lakehouse.gold.ml_user_features"
  | .movie => "lakehouse.gold.ml_movie_features"

structure Stored where
  frame : Frame
  properties : Properties

/-- The tables that exist. -/
abbrev Tables := Table → Option Stored

def Tables.replace (w : Tables) (table : Table) (stored : Stored) : Tables :=
  fun t => if t = table then some stored else w t

/-! ### Calls -/

/-- How replacing a table ends. -/
inductive ReplaceReply where
  | done
  /-- it raises, and may have replaced the table nonetheless -/
  | failed (replaced : Bool)
deriving DecidableEq

def ReplaceReply.replaces : ReplaceReply → Bool
  | .done => true
  | .failed replaced => replaced

inductive PipelineCall where
  /-- the actions of Spark that a step needs -/
  | spark
  | createNamespace
  | replace (table : Table) (frame : Frame) (provenance : Provenance)
  | readFrame (table : Table)
  | readProperties (table : Table)

/-- `none` and `false` stand for an exception. -/
def PipelineAnswer : PipelineCall → Type
  | .spark => Bool
  | .createNamespace => Bool
  | .replace .. => ReplaceReply
  | .readFrame _ => Option Frame
  | .readProperties _ => Option Properties

abbrev P (α : Type) := Proc PipelineCall PipelineAnswer Exn α

def perform (e : PipelineCall) : P (PipelineAnswer e) := Proc.perform e

def spark : P Unit := do
  let ok ← perform .spark
  match (ok : Bool) with
  | true => pure ()
  | false => throw .other

def createNamespace : P Unit := do
  let ok ← perform .createNamespace
  match (ok : Bool) with
  | true => pure ()
  | false => throw .other

/-- `writer.replace` -/
def replace (table : Table) (frame : Frame) (provenance : Provenance) : P Unit := do
  let reply ← perform (.replace table frame provenance)
  match (reply : ReplaceReply) with
  | .done => pure ()
  | .failed _ => throw .other

/-- `writer.readFrame` -/
def readFrame (table : Table) : P Frame := do
  let frame ← perform (.readFrame table)
  Proc.lift (orElse frame .other)

/-- `writer.readProperties` -/
def readProperties (table : Table) : P Properties := do
  let properties ← perform (.readProperties table)
  Proc.lift (orElse properties .other)

/-! ### The pipeline -/

structure RunResult where
  userRows : Nat
  movieRows : Nat
  provenance : Provenance
deriving DecidableEq

/-- What an execution is started with. -/
structure Execution where
  ratings : Frame
  provenance : Provenance

/-- What is expected of a table: the arguments of `verifyReadback`. -/
structure Expected where
  table : Table
  frame : Frame
  schema : Schema
  key : String
  countColumn : String

/-- The body of the `try` in `verifyReadback`. -/
def verifyBody (expected : Expected) (sourceRows : Nat) (provenance : Provenance) (actual : Frame) : P Unit := do
  spark
  Proc.lift (validateFeatures actual expected.schema expected.key expected.countColumn sourceRows)
  Proc.lift (Lib.require (sameRows expected.frame.rows actual.rows)
    (.illegalState (expected.table.name ++ " readback rows do not match the written features")))
  let properties ← readProperties expected.table
  Proc.lift (Lib.require (generationOf properties == generationOf provenance.properties)
    (.illegalState (expected.table.name ++ " provenance does not match the intended MovieLens generation")))

/-- What `verifyReadback` makes of an exception. -/
def readbackFailure (table : Table) : Exn → Exn
  | .illegalState message => .illegalState message
  | _ => .illegalState (table.name ++ " readback validation failed")

def verifyReadback (expected : Expected) (sourceRows : Nat) (provenance : Provenance) : P Unit := do
  let actual ← readFrame expected.table
  Proc.mapError (readbackFailure expected.table) (verifyBody expected sourceRows provenance actual)

section
variable (avg : List Double → Double)

/-- The features of an execution, as they are written and as they are expected to be read. -/
def Execution.expected (q : Execution) : Table → Expected
  | .user => ⟨.user, userFeatures avg q.ratings, userSchema, "userId", "num_ratings"⟩
  | .movie => ⟨.movie, movieFeatures avg q.ratings, movieSchema, "movieId", "popularity"⟩

/-- The rows that an execution has for a table. -/
def Execution.own (q : Execution) (table : Table) : Frame := (q.expected avg table).frame

/-- Writing both tables, reading them back and comparing them. -/
def publish (q : Execution) (sourceRows : Nat) : P Unit := do
  createNamespace
  replace .user (q.own avg .user) q.provenance
  replace .movie (q.own avg .movie) q.provenance
  verifyReadback (q.expected avg .user) sourceRows q.provenance
  verifyReadback (q.expected avg .movie) sourceRows q.provenance
  let userProperties ← readProperties .user
  let movieProperties ← readProperties .movie
  Proc.lift (Lib.require (generationOf userProperties == generationOf movieProperties)
    (.illegalState "MovieLens output tables do not bind the same generation"))

/-- Both frames of features are checked before anything is written. -/
def validateOwn (q : Execution) (sourceRows : Nat) : Except Exn Unit := do
  validateFeatures (q.own avg .user) userSchema "userId" "num_ratings" sourceRows
  validateFeatures (q.own avg .movie) movieSchema "movieId" "popularity" sourceRows

/-- `runResolved`; whatever happens, the cached frames are given up in the end. -/
def runResolved (q : Execution) : P RunResult := do
  spark
  Proc.lift (validateRatings q.ratings)
  let outcome ← Proc.attempt (do
    spark
    Proc.lift (validateOwn avg q q.ratings.count)
    publish avg q q.ratings.count : P Unit)
  spark
  Proc.lift outcome
  pure ⟨(q.own avg .user).count, (q.own avg .movie).count, q.provenance⟩

end

/-! ### Any number of executions -/

/-- A read gives what the table holds, if it gives anything; a table may have more properties than a
provenance names. -/
def tableAnswers : Answers Tables PipelineCall PipelineAnswer := fun _ s e r w =>
  match e, r with
  | .replace table frame provenance, reply =>
      w = if reply.replaces then s.world.replace table ⟨frame, provenance.properties⟩ else s.world
  | .readFrame table, frame =>
      (∀ f, frame = some f → ∃ stored, s.world table = some stored ∧ f = stored.frame) ∧ w = s.world
  | .readProperties table, properties =>
      (∀ m, properties = some m → ∃ stored, s.world table = some stored ∧
        generationOf m = generationOf stored.properties) ∧ w = s.world
  | _, _ => w = s.world

def pipelineMachine (avg : List Double → Double) :
    Machine Execution Tables PipelineCall PipelineAnswer (Except Exn RunResult) where
  code q := runResolved avg q
  step _ := tableAnswers
  drift _ _ := False

end MovieLens
