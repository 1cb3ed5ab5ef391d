/-
An execution that returns a result.

Every call of it has succeeded, so its calls are known: the two replaces, and then a frame
and the properties of each table, and the properties of both once more (`returned_history`).
-/
import DataEngLab.MovieLens.Pipeline

namespace MovieLens

open Lib

abbrev History := List (Event PipelineCall PipelineAnswer)

section
variable {l : History} {avg : List Double → Double}

theorem plays_spark_ok {u : Unit} (h : Plays spark l (.ok u)) : l = [⟨.spark, true⟩] := by
  obtain ⟨ok, l', rfl, hrest⟩ := plays_perform_bind.mp h
  clear h
  cases ok with
  | false => exact absurd (plays_throw.mp hrest).2 (by simp)
  | true => rw [(plays_pure.mp hrest).1]

theorem plays_createNamespace_ok {u : Unit} (h : Plays createNamespace l (.ok u)) :
    l = [⟨.createNamespace, true⟩] := by
  obtain ⟨ok, l', rfl, hrest⟩ := plays_perform_bind.mp h
  clear h
  cases ok with
  | false => exact absurd (plays_throw.mp hrest).2 (by simp)
  | true => rw [(plays_pure.mp hrest).1]

theorem plays_replace_ok {table : Table} {frame : Frame} {p : Provenance} {u : Unit}
    (h : Plays (replace table frame p) l (.ok u)) : l = [⟨.replace table frame p, .done⟩] := by
  obtain ⟨reply, l', rfl, hrest⟩ := plays_perform_bind.mp h
  clear h
  cases reply with
  | failed replaced => exact absurd (plays_throw.mp hrest).2 (by simp)
  | done => rw [(plays_pure.mp hrest).1]

theorem plays_readFrame_ok {table : Table} {frame : Frame} (h : Plays (readFrame table) l (.ok frame)) :
    l = [⟨.readFrame table, some frame⟩] := by
  obtain ⟨reply, l', rfl, hrest⟩ := plays_perform_bind.mp h
  clear h
  obtain ⟨rfl, hreply⟩ := plays_lift.mp hrest
  cases reply with
  | none => cases hreply
  | some f => cases hreply; rfl

theorem plays_readProperties_ok {table : Table} {m : Properties}
    (h : Plays (readProperties table) l (.ok m)) : l = [⟨.readProperties table, some m⟩] := by
  obtain ⟨reply, l', rfl, hrest⟩ := plays_perform_bind.mp h
  clear h
  obtain ⟨rfl, hreply⟩ := plays_lift.mp hrest
  cases reply with
  | none => cases hreply
  | some f => cases hreply; rfl

/-- A table that has been read back: its rows and its provenance were as expected. -/
theorem plays_verifyReadback_ok {expected : Expected} {rows : Nat} {p : Provenance} {u : Unit}
    (h : Plays (verifyReadback expected rows p) l (.ok u)) :
    ∃ frame m, l = [⟨.readFrame expected.table, some frame⟩, ⟨.spark, true⟩, ⟨.readProperties expected.table, some m⟩] ∧
      sameRows expected.frame.rows frame.rows = true ∧ generationOf m = generationOf p.properties := by
  obtain ⟨l₁, l₂, frame, rfl, hread, hbody⟩ := plays_bind_ok.mp h
  obtain ⟨a, ha, hbody⟩ := plays_mapError.mp hbody
  obtain ⟨v, rfl⟩ : ∃ v, a = .ok v := by
    cases a with
    | error e => cases ha
    | ok v => exact ⟨v, rfl⟩
  obtain ⟨l₃, l₄, _, rfl, hspark, hbody⟩ := plays_bind_ok.mp hbody
  obtain ⟨_, -, hbody⟩ := (plays_lift_bind.mp hbody).resolve_left (by simp)
  obtain ⟨_, hsame, hbody⟩ := (plays_lift_bind.mp hbody).resolve_left (by simp)
  obtain ⟨l₅, l₆, m, rfl, hproperties, hrequire⟩ := plays_bind_ok.mp hbody
  obtain ⟨rfl, hgeneration⟩ := plays_lift.mp hrequire
  refine ⟨frame, m, ?_, require_eq_ok.mp hsame, by simpa using require_eq_ok.mp hgeneration.symm⟩
  rw [plays_readFrame_ok hread, plays_spark_ok hspark, plays_readProperties_ok hproperties]
  rfl

/-- What the reads of an execution gave. -/
structure Readback where
  userFrame : Frame
  userProperties : Properties
  movieFrame : Frame
  movieProperties : Properties
  lastUserProperties : Properties
  lastMovieProperties : Properties

/-- The calls of an execution that returns, oldest first. -/
def returnedCalls (avg : List Double → Double) (q : Execution) (r : Readback) : History :=
  [⟨.spark, true⟩, ⟨.spark, true⟩, ⟨.createNamespace, true⟩,
    ⟨.replace .user (q.own avg .user) q.provenance, .done⟩, ⟨.replace .movie (q.own avg .movie) q.provenance, .done⟩,
    ⟨.readFrame .user, some r.userFrame⟩, ⟨.spark, true⟩, ⟨.readProperties .user, some r.userProperties⟩,
    ⟨.readFrame .movie, some r.movieFrame⟩, ⟨.spark, true⟩, ⟨.readProperties .movie, some r.movieProperties⟩,
    ⟨.readProperties .user, some r.lastUserProperties⟩, ⟨.readProperties .movie, some r.lastMovieProperties⟩,
    ⟨.spark, true⟩]

/-- What the execution has checked of them. -/
structure Readback.Accepted (avg : List Double → Double) (q : Execution) (r : Readback) : Prop where
  userRows : sameRows (q.own avg .user).rows r.userFrame.rows = true
  userGeneration : generationOf r.userProperties = generationOf q.provenance.properties
  movieRows : sameRows (q.own avg .movie).rows r.movieFrame.rows = true
  movieGeneration : generationOf r.movieProperties = generationOf q.provenance.properties
  lastGeneration : generationOf r.lastUserProperties = generationOf r.lastMovieProperties

/-- **The calls of an execution that returns a result.** -/
theorem plays_runResolved_ok {q : Execution} {result : RunResult} (h : Plays (runResolved avg q) l (.ok result)) :
    result.provenance = q.provenance ∧ ∃ r : Readback, l = returnedCalls avg q r ∧ r.Accepted avg q := by
  obtain ⟨l₁, l', _, rfl, hspark, h⟩ := plays_bind_ok.mp h
  obtain ⟨_, -, h⟩ := (plays_lift_bind.mp h).resolve_left (by simp)
  obtain ⟨l₂, l₃, outcome, rfl, hattempt, h⟩ := plays_bind_ok.mp h
  obtain ⟨a, ha, htry⟩ := plays_attempt.mp hattempt
  cases ha
  obtain ⟨l₄, l₅, _, rfl, hunpersist, h⟩ := plays_bind_ok.mp h
  obtain ⟨_, rfl, h⟩ := (plays_lift_bind.mp h).resolve_left (by simp)
  obtain ⟨rfl, hresult⟩ := plays_pure.mp h
  cases hresult
  obtain ⟨l₆, l₇, _, rfl, hspark', h⟩ := plays_bind_ok.mp htry
  obtain ⟨_, -, h⟩ := (plays_lift_bind.mp h).resolve_left (by simp)
  obtain ⟨l₈, l₉, _, rfl, hnamespace, h⟩ := plays_bind_ok.mp h
  obtain ⟨m₁, m₂, _, rfl, huser, h⟩ := plays_bind_ok.mp h
  obtain ⟨m₃, m₄, _, rfl, hmovie, h⟩ := plays_bind_ok.mp h
  obtain ⟨m₅, m₆, _, rfl, hverifyUser, h⟩ := plays_bind_ok.mp h
  obtain ⟨m₇, m₈, _, rfl, hverifyMovie, h⟩ := plays_bind_ok.mp h
  obtain ⟨m₉, n₁, lastUser, rfl, hlastUser, h⟩ := plays_bind_ok.mp h
  obtain ⟨n₂, n₃, lastMovie, rfl, hlastMovie, h⟩ := plays_bind_ok.mp h
  obtain ⟨rfl, hlast⟩ := plays_lift.mp h
  obtain ⟨userFrame, userProperties, rfl, huserRows, huserGeneration⟩ := plays_verifyReadback_ok hverifyUser
  obtain ⟨movieFrame, movieProperties, rfl, hmovieRows, hmovieGeneration⟩ := plays_verifyReadback_ok hverifyMovie
  refine ⟨rfl, ⟨userFrame, userProperties, movieFrame, movieProperties, lastUser, lastMovie⟩, ?_,
    ⟨huserRows, huserGeneration, hmovieRows, hmovieGeneration, by simpa using require_eq_ok.mp hlast.symm⟩⟩
  rw [plays_spark_ok hspark, plays_spark_ok hunpersist, plays_spark_ok hspark', plays_createNamespace_ok hnamespace,
    plays_replace_ok huser, plays_replace_ok hmovie, plays_readProperties_ok hlastUser,
    plays_readProperties_ok hlastMovie]
  rfl

end

end MovieLens
