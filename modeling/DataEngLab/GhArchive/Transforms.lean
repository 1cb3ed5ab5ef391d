/-
Sessions of GitHub events.

The events of an actor are listed by time and identifier; a session begins with the first
of them and wherever more than 1800 seconds lie between two neighbours, by the clock read
in whole seconds.  A session's number is the number of beginnings so far.

`sessionize` computes the annotations and has them checked: `validateSessions` derives them
once more, in its own window, and asks that the rows be the same.  Each of the two windows
meets tied rows in whatever order it likes.  The order of the rows in a window is the order
in which both of its columns are computed, as the two share partitioning and ordering.
-/
import DataEngLab.Lib.Checks
import DataEngLab.Lib.Frames
import DataEngLab.Lib.FrameWindows

namespace GhArchive

open Lib

/-- `require` failed. -/
structure IllegalArgument where
  message : String
deriving DecidableEq

def eventsSchema : Schema :=
  [⟨"id", .string, false⟩, ⟨"type", .string, false⟩, ⟨"actor_login", .string, false⟩,
    ⟨"repo_name", .string, false⟩, ⟨"created_at", .timestamp, false⟩]

def sessionsSchema : Schema :=
  eventsSchema ++ [⟨"previous_created_at", .timestamp, true⟩, ⟨"new_session", .integer, false⟩,
    ⟨"session_id", .long, false⟩]

/-! ### Validation -/

/-- `F.trim`: the spaces at both ends. -/
def trim (s : Str) : Str := ((s.dropWhile (· == 32)).reverse.dropWhile (· == 32)).reverse

/-- `F.col(name).isNull || F.length(F.trim(F.col(name))) === 0` -/
def isBlank : Cell → Bool
  | .string s => (trim s).isEmpty
  | .null => true
  | _ => false

/-- A row of `EventsSchema` without `NULL`; the time is in microseconds. -/
structure Event where
  id : Str
  type : Str
  actorLogin : Str
  repoName : Str
  createdAt : Int
deriving DecidableEq

def Event.row (e : Event) : Row :=
  [.string e.id, .string e.type, .string e.actorLogin, .string e.repoName, .timestamp e.createdAt]

def Event.ofRow : Row → Option Event
  | [.string id, .string type, .string actorLogin, .string repoName, .timestamp createdAt] =>
      some ⟨id, type, actorLogin, repoName, createdAt⟩
  | _ => none

structure Session where
  event : Event
  previousCreatedAt : Option Int
  newSession : Int
  sessionId : Int
deriving DecidableEq

def timestampCell : Option Int → Cell
  | none => .null
  | some t => .timestamp t

def Session.row (s : Session) : Row :=
  s.event.row ++ [timestampCell s.previousCreatedAt, .integer s.newSession, .long s.sessionId]

theorem Session.row_conforms (s : Session) : Conforms sessionsSchema s.row := by
  cases hp : s.previousCreatedAt <;> simp [Conforms, Session.row, Event.row, timestampCell, hp,
    sessionsSchema, eventsSchema, Cell.fits]

/-- `orderBy(created_at, id)` -/
def Event.Le (a b : Event) : Prop := a.createdAt < b.createdAt ∨ a.createdAt = b.createdAt ∧ a.id ≤ b.id

instance : DecidableRel Event.Le := fun a b =>
  inferInstanceAs (Decidable (a.createdAt < b.createdAt ∨ a.createdAt = b.createdAt ∧ a.id ≤ b.id))

/-- `Window.partitionBy("actor_login").orderBy("created_at", "id")` over a frame. -/
abbrev Ordered (events : List Event) : Type := Window Event.actorLogin Event.Le events

/-- `lag(value, 1)` down a partition, after the value `before`. -/
def lag {α β : Type} (value : α → β) : Option β → List α → List (Option β)
  | _, [] => []
  | before, x :: xs => before :: lag value (some (value x)) xs

/-- `sum(value)` from the beginning of the partition to the row, after the total `before`. -/
def cumulative : Int → List Int → List Int
  | _, [] => []
  | before, x :: xs => (before + x) :: cumulative (before + x) xs

/-- `F.unix_timestamp`, and the cast of a timestamp to `long`. -/
def unixTimestamp (micros : Int) : Int := micros.fdiv 1000000

/-- `new_session` of `sessionize`. -/
def newSession (createdAt : Int) (previous : Option Int) : Int :=
  match previous with
  | none => 1
  | some p => if unixTimestamp createdAt - unixTimestamp p > 1800 then 1 else 0

/-- The columns of a partition, one after another. -/
def annotate (boundary : Int → Option Int → Int) (partition : List Event) : List Session :=
  let previous := lag Event.createdAt none partition
  let flags := (partition.zip previous).map fun x => boundary x.1.createdAt x.2
  let ids := cumulative 0 flags
  (partition.zip (previous.zip (flags.zip ids))).map fun x => ⟨x.1, x.2.1, x.2.2.1, x.2.2.2⟩

end GhArchive
