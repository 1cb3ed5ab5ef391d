/-
The object store under the datasets, and what else a publisher calls on.

Every object has a bucket and a key.  A write carries a condition: the object is absent, or
still has the ETag that was seen.  The store applies one request at a time, stamps its
answers with its own clock, which counts whole seconds and does not run backwards, and
gives equal ETags to equal bytes only.

`answers` is what may come back of a call.  A request may fail with any error, before or
after it took effect; a response may lack its date or its ETag, and its body may break off.
What is promised is what the code relies on: what a response does say is so, and a write
that was answered took effect.  The local clocks, the fetcher and the file system answer
anything; an identifier from `uuid4` is one that was never used before.
-/
import DataEngLab.Lib.IsoFormat
import DataEngLab.Lib.Pool
import DataEngLab.Lib.Checks
import Mathlib.Data.Rat.Defs

namespace Datasets

open Lib

structure Location where
  bucket : Str
  key : Str
deriving DecidableEq

structure StoredObject where
  body : Bytes
  etag : Str
  metadata : List (Str × Str)
deriving DecidableEq

/-- The condition of a write: the object is absent, or it still has this ETag. -/
inductive PutCondition where
  | ifNoneMatch
  | ifMatch (etag : Str)
deriving DecidableEq

/-- What `parsedate_to_datetime` makes of the `Date` header, a zone missing from it read as UTC. -/
inductive DateHeader where
  | missing
  | invalid
  | date (d : Instant)
deriving DecidableEq

/-- What a call of the client, of a response's body or of the file system raises. -/
inductive Failure where
  /-- `ClientError`: the status and the code of the error, and the date of the response -/
  | clientError (status : Option Int) (code : Str) (date : DateHeader)
  | botoCoreError
  /-- `KeyError`, `TypeError` or `ValueError` -/
  | valueError
  | osError
  /-- any other `Exception` -/
  | other
  /-- `KeyboardInterrupt` or `SystemExit` -/
  | interrupt
deriving DecidableEq

/-- Everything the code raises, and the errors it lets through. -/
inductive Exn where
  /-- `AmbiguousWrite`, with the error it was raised from -/
  | ambiguousWrite (message : String) (cause : Option Failure)
  | conditionalConflict (message : String)
  /-- `LockMismatch` -/
  | lockMismatch (stage field : String)
  | proposalExpired
  | valueError (message : String)
  | overflowError
  | recursionError
  | raised (f : Failure)
deriving DecidableEq

structure ExpectedObject where
  objectName : Str
  sizeBytes : Int
  sha256 : Str
  schemaId : Str
deriving DecidableEq

structure VerifiedFile where
  path : Str
  expected : ExpectedObject
deriving DecidableEq

/-! ### Responses -/

/-- The bytes of a body, read to the end, or what reading them raised. -/
inductive BodyRead where
  | bytes (b : Bytes)
  | nonBytes
  | raises (f : Failure)
deriving DecidableEq

/-- A response of `get_object`.  An ETag or metadata that are not of their type are `none`. -/
structure GetResponse where
  date : DateHeader
  etag : Option Str
  metadata : Option (List (Str × Str))
  body : BodyRead
  close : Option Failure

inductive GetReply where
  | ok (r : GetResponse)
  /-- not a mapping, or one without a body -/
  | malformed
  | raised (f : Failure)

inductive PutReply where
  | ok (date : DateHeader)
  /-- not a mapping -/
  | malformed
  | raised (f : Failure)

/-- How a wait for another thread ends. -/
inductive WaitReply where
  | completed
  | timedOut
  | interrupted
deriving DecidableEq

/-- What is done on the local file system, apart from reading a file. -/
inductive LocalStep where
  /-- a temporary file for the bytes of one object -/
  | openCapture
  /-- `verify_physical_schema` of a local file, the file flushed -/
  | inspectSchema (schemaId : Str)
  /-- the staging directory is made -/
  | enterStaging
  /-- the staging directory is removed -/
  | leaveStaging
deriving DecidableEq

inductive Call where
  | getObject (loc : Location)
  | putObject (loc : Location) (body : Bytes) (metadata : List (Str × Str)) (condition : PutCondition)
  /-- `datetime.now(UTC)` -/
  | utcNow
  /-- `time.monotonic()` -/
  | monotonic
  /-- `uuid.uuid4().hex` -/
  | uuid4
  /-- `secrets.token_hex(16)` -/
  | tokenHex
  /-- which of two threads of one run goes on -/
  | turn
  /-- `completed.wait(interval)`; `completed.wait()` without one -/
  | wait (interval : Option Rat)
  /-- `fetcher(plan, root)` -/
  | fetch
  /-- `_legacy_candidates`: the objects of the older layout, copied to the staging directory -/
  | legacyCandidates
  /-- the bytes of a local file -/
  | readFile (path : Str)
  | localStep (step : LocalStep)
  /-- `_attach_verified_history`: what else is stored for the dataset -/
  | inventory
  /-- the next round of a loop that has used up its fuel: never answered -/
  | hang
deriving DecidableEq

/-- The type of the answer to each call. -/
def Answer : Call → Type
  | .getObject _ => GetReply
  | .putObject _ _ _ _ => PutReply
  | .utcNow => Moment
  | .monotonic => Rat
  | .uuid4 => Str
  | .tokenHex => Str
  | .turn => Bool
  | .wait _ => WaitReply
  | .fetch => Except Exn (List VerifiedFile)
  | .legacyCandidates => Except Exn (Option (List VerifiedFile))
  | .readFile _ => Except Failure Bytes
  | .localStep _ => Except Exn Unit
  | .inventory => Except Exn Unit
  | .hang => Unit

/-! ### The world -/

/-- A write that took effect, and what it replaced. -/
structure Write where
  thread : Nat
  location : Location
  body : Bytes
  prior : Option StoredObject

/-- `writes` is what has been written, newest first, and `used` are the identifiers that were in use
before; no call reads them. -/
structure World where
  objects : Location → Option StoredObject
  now : Instant
  writes : List Write
  used : List Str

abbrev State := Sys World Call Answer

def World.put (w : World) (t : Nat) (loc : Location) (o : StoredObject) : World where
  objects := fun l => if l = loc then some o else w.objects l
  now := w.now
  writes := ⟨t, loc, o.body, w.objects loc⟩ :: w.writes
  used := w.used

/-- What has been written at a location, newest first. -/
def World.writesAt (w : World) (loc : Location) : List Write := w.writes.filter (·.location = loc)

section
variable (w : World) (t : Nat) (loc : Location) (o : StoredObject)

@[simp] theorem World.put_self : (w.put t loc o).objects loc = some o := by simp [World.put]

theorem World.put_ne {l : Location} (h : l ≠ loc) : (w.put t loc o).objects l = w.objects l := by
  simp [World.put, h]

@[simp] theorem World.put_now : (w.put t loc o).now = w.now := rfl

@[simp] theorem World.put_used : (w.put t loc o).used = w.used := rfl

@[simp] theorem World.put_writes :
    (w.put t loc o).writes = ⟨t, loc, o.body, w.objects loc⟩ :: w.writes := rfl

@[simp] theorem World.put_writesAt_self :
    (w.put t loc o).writesAt loc = ⟨t, loc, o.body, w.objects loc⟩ :: w.writesAt loc := by
  simp [World.writesAt]

theorem World.put_writesAt_ne {l : Location} (h : l ≠ loc) :
    (w.put t loc o).writesAt l = w.writesAt l := by
  simp [World.writesAt, Ne.symm h]

end

/-- The condition of a write holds of what is stored. -/
def PutCondition.Holds (c : PutCondition) (o : Option StoredObject) : Prop :=
  match c with
  | .ifNoneMatch => o = none
  | .ifMatch etag => ∃ v, o = some v ∧ v.etag = etag

/-- A date is the server's. -/
def DateHeader.Genuine (now : Instant) (h : DateHeader) : Prop := ∀ d, h = .date d → d = now

/-- What the response says is so. -/
structure GetResponse.Genuine (r : GetResponse) (now : Instant) (o : StoredObject) : Prop where
  date : r.date.Genuine now
  etag : ∀ e, r.etag = some e → e = o.etag
  metadata : ∀ m, r.metadata = some m → m = o.metadata
  body : ∀ b, r.body = .bytes b → b = o.body

/-- The error says that there is no such object. -/
def isNotFound (status : Option Int) (code : Str) : Bool :=
  status == some 404 || code ∈ [lit "404", lit "NoSuchKey", lit "NotFound"]

/-- What the error of a read says is so: the date, and that there is no object. -/
def Failure.Genuine (now : Instant) (o : Option StoredObject) : Failure → Prop
  | .clientError status code date => date.Genuine now ∧ (isNotFound status code = true → o = none)
  | _ => True

/-- An identifier that was given to a thread. -/
def Issued (s : State) (t : Nat) (id : Str) : Prop := (t, (⟨.uuid4, id⟩ : Event Call Answer)) ∈ s.log

/-- An identifier that nobody has used. -/
def Unused (s : State) (id : Str) : Prop := id ∉ s.world.used ∧ ∀ t, ¬ Issued s t id

section
variable (bytesOf : Str → Bytes)

/-- The request takes effect. -/
def Applied (t : Nat) (w : World) (loc : Location) (body : Bytes) (metadata : List (Str × Str))
    (condition : PutCondition) (w' : World) : Prop :=
  condition.Holds (w.objects loc) ∧
    ∃ etag, bytesOf etag = body ∧ w' = w.put t loc ⟨body, etag, metadata⟩

/-- How the world may answer thread `t`.  `bytesOf` says what bytes an ETag stands for. -/
def answers : Answers World Call Answer := fun t s e r w' =>
  let w := s.world
  match e, r with
  | .getObject loc, .ok r => w' = w ∧ ∃ o, w.objects loc = some o ∧ r.Genuine w.now o
  | .getObject loc, .raised f => w' = w ∧ f.Genuine w.now (w.objects loc)
  | .putObject loc body metadata condition, r =>
      let applied := Applied bytesOf t w loc body metadata condition w'
      match r with
      | .ok date => applied ∧ date.Genuine w.now
      | _ => w' = w ∨ applied
  | .uuid4, id => w' = w ∧ Unused s id
  | .hang, _ => False
  | _, _ => w' = w

/-- The clock of the server goes on. -/
def drift (w w' : World) : Prop := ∃ now, w.now ≤ now ∧ w' = { w with now := now }

/-- Every stored object has the bytes its ETag stands for. -/
def World.Tagged (w : World) : Prop := ∀ loc o, w.objects loc = some o → bytesOf o.etag = o.body

/-- Any objects, and nothing written yet. -/
def Init (w : World) : Prop := w.Tagged bytesOf ∧ w.writes = []

variable {bytesOf} {t : Nat} {s : State}

/-- What a call does to the objects: nothing, unless it is a write that takes effect. -/
theorem answers_cases {e : Call} {r : Answer e} {w' : World} (h : answers bytesOf t s e r w') :
    w' = s.world ∨ ∃ loc body metadata condition, e = .putObject loc body metadata condition ∧
      Applied bytesOf t s.world loc body metadata condition w' := by
  cases e with
  | getObject loc =>
      cases r with
      | ok r => exact .inl h.1
      | malformed => exact .inl h
      | raised f => exact .inl h.1
  | putObject loc body metadata condition =>
      cases r with
      | ok date => exact .inr ⟨loc, body, metadata, condition, rfl, h.1⟩
      | malformed =>
          rcases h with h | h
          · exact .inl h
          · exact .inr ⟨loc, body, metadata, condition, rfl, h⟩
      | raised f =>
          rcases h with h | h
          · exact .inl h
          · exact .inr ⟨loc, body, metadata, condition, rfl, h⟩
  | hang => exact absurd h (by simp [answers])
  | uuid4 => exact .inl h.1
  | utcNow => exact .inl h
  | monotonic => exact .inl h
  | tokenHex => exact .inl h
  | turn => exact .inl h
  | wait interval => exact .inl h
  | fetch => exact .inl h
  | legacyCandidates => exact .inl h
  | readFile path => exact .inl h
  | localStep step => exact .inl h
  | inventory => exact .inl h

theorem Applied.tagged {w w' : World} {loc : Location} {body : Bytes} {metadata : List (Str × Str)}
    {condition : PutCondition} (h : Applied bytesOf t w loc body metadata condition w')
    (hw : w.Tagged bytesOf) : w'.Tagged bytesOf := by
  obtain ⟨-, etag, htag, rfl⟩ := h
  intro l o ho
  by_cases hl : l = loc
  · subst hl
    rw [World.put_self, Option.some.injEq] at ho
    rw [← ho]
    exact htag
  · rw [World.put_ne _ _ _ _ hl] at ho
    exact hw l o ho

end

end Datasets
