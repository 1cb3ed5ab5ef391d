/-
A bucket in which nothing fails.

A `Scene` answers every call of the service at once and truthfully: writes take effect and
report it, listings are complete, and the readings of the clock and of the identifier
source are given in advance.  It is what concrete runs are played on, where a statement
about all runs is shown not to be empty, or to be false.
-/
import DataEngLab.Checkpoints.Service
import DataEngLab.Checkpoints.Canonical
import DataEngLab.Lib.Play

namespace Checkpoints

open Lib

structure Scene where
  world : World
  /-- the data objects -/
  objects : List ObjectRecord
  /-- readings of the clock that are still to come -/
  clock : List Instant
  /-- identifiers that are still to come -/
  identifiers : List Str
  /-- the number of writes so far, which makes the ETags -/
  writes : Nat

namespace Scene

def item (r : ObjectRecord) : ListItem where
  key := .str r.key
  etag := .str r.etag
  size := .int r.sizeBytes
  lastModified := some r.lastModified.datetime

def head (r : ObjectRecord) : HeadResponse where
  etag := .str r.etag
  contentLength := .int r.sizeBytes
  lastModified := some r.lastModified.datetime

/-- The record that is stored, which has an ETag of its form. -/
def get (o : Option Stored) : Option GetReply :=
  match o with
  | some v =>
      if parseEtag (.str v.etag) = some v.etag then
        some (.ok ⟨some v.body, some v.body.length, .str v.etag, false, false⟩)
      else none
  | none => some (.clientError (some "NoSuchKey"))

def attemptPage (attempts : List (Nat × Str)) (maxKeys : Nat) : AttemptPage :=
  if attempts.length ≤ min maxKeys 1000 then ⟨some (attempts.map some), some false⟩
  else ⟨some ((attempts.take (min maxKeys 1000)).map some), some true⟩

instance (c : PutCondition) (o : Option Stored) : Decidable (c.Holds o) :=
  match c, o with
  | .ifNoneMatch, none => .isTrue rfl
  | .ifNoneMatch, some _ => .isFalse fun h => nomatch h
  | .ifMatch etag, none => .isFalse fun ⟨_, h, _⟩ => nomatch h
  | .ifMatch etag, some v => decidable_of_iff (v.etag = etag) (by simp [PutCondition.Holds])

def withWorld (s : Scene) (w : World) : Scene := { s with world := w }

/-- How the scene answers thread `t`, and what it is then. -/
def answer (t : Nat) (s : Scene) : (e : Call) → Option (Answer e × Scene)
  | .now =>
      match s.clock with
      | now :: clock => some (.ok (some now.datetime), { s with clock := clock })
      | [] => none
  | .monotonic => some (.ok (some 0), s)
  | .uuid =>
      match s.identifiers with
      | u :: identifiers => some (.ok (some u), { s with identifiers := identifiers })
      | [] => none
  | .hold c =>
      match s.world.locks c with
      | none => some ((), s.withWorld (s.world.setLock c (some (t, 1))))
      | some (u, n) => if u = t then some ((), s.withWorld (s.world.setLock c (some (t, n + 1)))) else none
  | .release c =>
      match s.world.locks c with
      | none => none
      | some (u, n) =>
          if u = t then
            some ((), s.withWorld (s.world.setLock c (if n ≤ 1 then none else some (t, n - 1))))
          else none
  | .listObjects keyPrefix _ =>
      let found := s.objects.filter fun r => keyPrefix.isPrefixOf r.key
      some (.ok (some ⟨some (found.map fun r => some (item r)), some false, none⟩), s)
  | .headObject key =>
      match s.objects.find? fun r => r.key = key with
      | some r => some (.ok (head r), s)
      | none => some (.raised, s)
  | .deleteObjects keys =>
      some (.ok (some ⟨some (keys.map fun k => some (some k)), some []⟩),
        { s with objects := s.objects.filter fun r => r.key ∉ keys })
  | .listAttempts op maxKeys =>
      some (.ok (some (attemptPage (s.world.store.attempts op) maxKeys)), s)
  | .getObject key => (get (s.world.store.get key)).map fun r => (r, s)
  | .putObject key body condition =>
      let etag := Json.str (hexText 32 s.writes)
      match parseEtag etag with
      | some e =>
          if condition.Holds (s.world.store.get key) then
            some (.ok etag, { s with world := s.world.put key ⟨body, e⟩, writes := s.writes + 1 })
          else some (.raised, s)
      | none => none

theorem attemptPage_genuine (attempts : List (Nat × Str)) (maxKeys : Nat) :
    (attemptPage attempts maxKeys).genuine attempts maxKeys := by
  intro keys hkeys hlast
  unfold attemptPage at hkeys hlast
  split at hkeys
  · rename_i hlen
    simp only [Option.some.injEq] at hkeys
    have hsame : attempts = keys := List.map_injective_iff.mpr (Option.some_injective _) hkeys
    subst hsame
    exact ⟨List.Perm.refl _, hlen⟩
  · rename_i hlen
    rw [if_neg hlen] at hlast
    cases hlast

theorem get_answers {t : Nat} {s : State} {key : ControlKey} {r : GetReply}
    (h : get (s.world.store.get key) = some r) : answers t s (.getObject key) r s.world := by
  unfold get at h
  split at h
  · rename_i v hv
    split at h
    · rename_i hetag
      simp only [Option.some.injEq] at h
      subst h
      refine ⟨rfl, fun _ body etag hbody he => ?_⟩
      simp only [Option.some.injEq] at hbody
      simp only [hetag, Option.some.injEq] at he
      rw [hv, ← hbody, ← he]
    · cases h
  · rename_i hnone
    simp only [Option.some.injEq] at h
    subst h
    exact ⟨rfl, fun _ => hnone⟩

theorem answer_allowed {t : Nat} {x : State} {s : Scene} {e : Call} {r : Answer e} {s' : Scene}
    (hx : x.world = s.world) (h : s.answer t e = some (r, s')) : answers t x e r s'.world := by
  cases e with
  | now =>
      simp only [answer] at h
      split at h
      · cases h; exact hx.symm
      · cases h
  | monotonic => cases h; exact hx.symm
  | uuid =>
      simp only [answer] at h
      split at h
      · cases h; exact hx.symm
      · cases h
  | hold c =>
      cases hlock : s.world.locks c with
      | none =>
          simp only [answer, hlock] at h
          cases h
          simp only [answers, hx, hlock]
          rfl
      | some held =>
          obtain ⟨u, n⟩ := held
          simp only [answer, hlock] at h
          simp only [answers, hx, hlock]
          by_cases hu : u = t
          · rw [if_pos hu] at h
            cases h
            exact ⟨hu, rfl⟩
          · rw [if_neg hu] at h
            cases h
  | release c =>
      cases hlock : s.world.locks c with
      | none =>
          simp only [answer, hlock] at h
          cases h
      | some held =>
          obtain ⟨u, n⟩ := held
          simp only [answer, hlock] at h
          simp only [answers, hx, hlock]
          by_cases hu : u = t
          · rw [if_pos hu] at h
            cases h
            exact ⟨hu, rfl⟩
          · rw [if_neg hu] at h
            cases h
  | listObjects keyPrefix token => cases h; exact hx.symm
  | headObject key =>
      simp only [answer] at h
      split at h
      · cases h; exact hx.symm
      · cases h; exact hx.symm
  | deleteObjects keys => cases h; exact hx.symm
  | listAttempts op maxKeys =>
      cases h
      exact ⟨hx.symm, hx ▸ attemptPage_genuine _ _⟩
  | getObject key =>
      obtain ⟨r', hr, heq⟩ := Option.map_eq_some_iff.mp h
      cases heq
      rw [← hx] at hr ⊢
      exact get_answers hr
  | putObject key body condition =>
      simp only [answer] at h
      split at h
      · rename_i e he
        split at h
        · rename_i hc
          cases h
          simp only [answers, he, hx, and_true]
          exact hc
        · cases h
          exact .inl hx.symm
      · cases h

end Scene

/-- Runs of the service on a scene. -/
def cast (rt : Runtime) : Cast (machine rt) Scene where
  world := Scene.world
  answer t _ _ s e := s.answer t e
  allowed _ _ _ _ _ _ _ hx h := Scene.answer_allowed hx h

/-- An empty bucket. -/
def Scene.empty (clock : List Instant) (identifiers : List Str) : Scene :=
  ⟨⟨.empty, fun _ => none⟩, [], clock, identifiers, 0⟩

/-! ### A sample checkpoint -/

/-- Second `n` of the sample's clock. -/
def second (n : Nat) : Instant := ⟨min (63900000000 + n) maxSecond, Nat.min_le_right _ _⟩

def sampleCheckpoint : Str := lit "go-live-streaming-test-v1"

def sampleRun : Str := lit "00000000-0000-4000-8000-000000000000"

def samplePrefix : Str := lit "streaming_test/" ++ sampleRun ++ lit "/"

def sampleEpoch : Str := lit "11111111-1111-4111-8111-111111111111"

def nextEpoch : Str := lit "22222222-2222-4222-8222-222222222222"

def sampleAcquire : AcquireRequest :=
  ⟨sampleCheckpoint, samplePrefix, lit "go-live-streaming-test", lit "writer", lit "session"⟩

def sampleHeartbeat : HeartbeatRequest := ⟨sampleCheckpoint, samplePrefix, sampleEpoch⟩

/-- A successful run, all of it approved. -/
def sampleEvidence : List (Str × Json) :=
  [(lit "exclusive_run", .bool true), (lit "generation", .obj [(lit "run_uuid", .str sampleRun)]),
    (lit "recovery_approved", .bool true), (lit "sink_disposition_approved", .bool true),
    (lit "source_available", .bool true), (lit "successful", .bool true)]

def sampleTerminal : TerminalRequest where
  checkpointId := sampleCheckpoint
  keyPrefix := samplePrefix
  epoch := sampleEpoch
  state := lit "stopped"
  evidence := sampleEvidence
  decoded := ⟨by decide, joined_lit _, trivial, joined_lit _,
    ⟨by decide, joined_lit _, joined_lit _, trivial⟩, joined_lit _, trivial, joined_lit _, trivial,
    joined_lit _, trivial, joined_lit _, trivial, trivial⟩

/-- A request that is served without a deadline. -/
def served (q : Request) : Served := ⟨q, .none⟩

/-- The runtime of the shipped registry. -/
def registryRuntime : Runtime where
  policy := registry
  wellFormed := by
    refine ⟨rfl, rfl, rfl, rfl, rfl, fun e he => ?_, rfl⟩
    obtain ⟨x, hx, rfl⟩ := List.mem_map.mp he
    exact ⟨hx, fun _ => ⟨rfl, rfl⟩, fun h => nomatch h⟩
  destructiveEnabled := true

end Checkpoints
