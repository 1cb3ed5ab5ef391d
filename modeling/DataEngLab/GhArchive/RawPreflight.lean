/-
The check of a raw GitHub Archive object before Spark reads it.

The object is decompressed and read line by line into one buffer that grows, and every line
must be one JSON object with the strings the pipeline needs.  A line ends at a line feed and
nowhere else.  `sparkRecords` is the other reading of the same bytes: Spark ends a line at a
line feed, a carriage return or both, and blank lines hold no record.

Jackson is a parameter: what it reads from a line, `none` where it throws.  So is the
compressed object: its size and digest, and what decompressing it delivers, piece by piece.
Every result carries the line reader as the run leaves it, failures included; its buffer only
grows, so its last size bounds all earlier ones.
-/
import DataEngLab.GhArchive.Transforms
import DataEngLab.Lib.JsonText
import DataEngLab.Lib.Pieces
import DataEngLab.Lib.Utc

namespace GhArchive

open Lib

namespace RawPreflight

/-- An exception: an `IllegalArgumentException`, an index out of its range, or any other. -/
inductive Failure where
  | illegalArgument (message : String)
  | indexOutOfBounds
  | exception
deriving DecidableEq

def fail {α : Type} (message : String) : Except Failure α := .error (.illegalArgument message)

def maxLineBytes : Nat := 2 ^ 20

def maxDepth : Nat := 32

def maxRecords : Nat := 2000000

def maxExpandedBytes : Nat := 2 * 2 ^ 30

def isLineFeed (b : UInt8) : Bool := b == 10

/-! ### Lines -/

/-- How a stream ends: properly, at a limit of the counting stream, or at an error. -/
inductive Ending where
  | eof
  | exceeded
  | broken

def Ending.failure : Ending → Option Failure
  | .eof => none
  | .exceeded => some (.illegalArgument "GitHub Archive source exceeds locked size")
  | .broken => some .exception

/-- What a `CountingInputStream` that has delivered `count` bytes delivers of some pieces. -/
def counted (maximum count : Nat) : List Bytes → Ending → Bytes × Ending
  | [], ending => ([], ending)
  | piece :: rest, ending =>
      if count + piece.length > maximum then ([], .exceeded)
      else
        let (bytes, last) := counted maximum (count + piece.length) rest ending
        (piece ++ bytes, last)

structure ReusableLineReader where
  buffer : Bytes
  allocations : Nat

namespace ReusableLineReader

def initial : ReusableLineReader := ⟨List.replicate 4096 0, 1⟩

/-- The copy throws when the buffer does not fit into its replacement. -/
def grow (r : ReusableLineReader) : Except Failure ReusableLineReader :=
  let capacity := min (r.buffer.length * 2) maxLineBytes
  if r.buffer.length ≤ capacity then
    .ok ⟨r.buffer ++ List.replicate (capacity - r.buffer.length) 0, r.allocations + 1⟩
  else .error .indexOutOfBounds

/-- `if (length == buffer.length) grow()` -/
def makeRoom (r : ReusableLineReader) (length : Nat) : Except Failure ReusableLineReader :=
  if length = r.buffer.length then r.grow else .ok r

/-- `buffer(length) = value.toByte` -/
def store (r : ReusableLineReader) (length : Nat) (value : UInt8) : Except Failure ReusableLineReader :=
  if length < r.buffer.length then .ok { r with buffer := r.buffer.set length value }
  else .error .indexOutOfBounds

/-- The rest of a line of which `length` bytes are in the buffer: the length of the line and what follows it. -/
def fill (ending : Ending) : Bytes → ReusableLineReader → Nat → ReusableLineReader × Except Failure (Nat × Bytes)
  | [], r, _ => (r, .error (ending.failure.getD (.illegalArgument
      "GitHub Archive source contains an unterminated JSON line")))
  | value :: rest, r, length =>
      if isLineFeed value then
        (r, if length > 0 then .ok (length, rest) else fail "GitHub Archive source contains a blank JSON line")
      else if length = maxLineBytes then (r, fail "GitHub Archive source contains an oversized JSON line")
      else
        match r.makeRoom length with
        | .error e => (r, .error e)
        | .ok grown =>
            match grown.store length value with
            | .error e => (grown, .error e)
            | .ok stored => fill ending rest stored (length + 1)

/-- The next line; `none` at the end of the stream. -/
def next (ending : Ending) (r : ReusableLineReader) : Bytes → ReusableLineReader × Except Failure (Option (Nat × Bytes))
  | [] => (r, match ending.failure with
      | none => .ok none
      | some e => .error e)
  | value :: rest =>
      let (r, line) := fill ending (value :: rest) r 0
      (r, line.map some)

theorem fill_length {ending : Ending} : ∀ {stream : Bytes} {r r' : ReusableLineReader} {length n : Nat} {rest : Bytes},
    fill ending stream r length = (r', .ok (n, rest)) → rest.length < stream.length
  | [], r, _, _, _, _, h => by
      rw [fill, Prod.mk.injEq] at h
      cases h.2
  | value :: stream, r, r', length, n, rest, h => by
      rw [fill] at h
      split_ifs at h
      · simp only [Prod.mk.injEq, Except.ok.injEq] at h
        rw [← h.2.2]
        exact Nat.lt_succ_self _
      · simp [fail] at h
      · simp [fail] at h
      · split at h
        · simp at h
        · split at h
          · simp at h
          · exact (fill_length h).trans (Nat.lt_succ_self _)

theorem next_length {ending : Ending} {stream : Bytes} {r r' : ReusableLineReader} {n : Nat} {rest : Bytes}
    (h : r.next ending stream = (r', .ok (some (n, rest)))) : rest.length < stream.length := by
  cases stream with
  | nil =>
      rw [next] at h
      cases ending <;> simp [Ending.failure] at h
  | cons value stream =>
      rw [next] at h
      cases hf : fill ending (value :: stream) r 0 with
      | mk r₁ line =>
          rw [hf] at h
          cases line with
          | error e => simp [Except.map] at h
          | ok line =>
              simp only [Except.map, Prod.mk.injEq, Except.ok.injEq, Option.some.injEq] at h
              obtain ⟨rfl, rfl⟩ := h
              exact fill_length hf

end ReusableLineReader

/-! ### Records -/

/-- What Jackson reads from a line: a document, unless there is no token, and whether nothing follows it. -/
structure Reading where
  document : Option Json
  ended : Option Bool

abbrev Jackson := Bytes → Option Reading

/-- `String.trim` -/
def trim (s : Str) : Str := trimmed (fun c => decide (c ≤ 32)) s

def requireText (parent : List (Str × Json)) (name : String) : Except Failure Str :=
  match Json.get name parent with
  | some (.str value) =>
      if (trim value).isEmpty then fail ("GitHub Archive source requires JSON string " ++ name) else .ok value
  | _ => fail ("GitHub Archive source requires JSON string " ++ name)

def requireObject (parent : List (Str × Json)) (name : String) : Except Failure (List (Str × Json)) :=
  match Json.get name parent with
  | some (.obj kvs) => .ok kvs
  | _ => fail ("GitHub Archive source requires object " ++ name)

def depth (node : Json) : Nat := node.nesting

/-- `^[0-9]{4}-[0-9]{2}-[0-9]{2}T[0-9]{2}:[0-9]{2}:[0-9]{2}Z$` -/
def timestampRegex : Pattern :=
  .times 4 isDigit ++ .text (lit "-") ++ .times 2 isDigit ++ .text (lit "-") ++ .times 2 isDigit ++ .text (lit "T") ++
    .times 2 isDigit ++ .text (lit ":") ++ .times 2 isDigit ++ .text (lit ":") ++ .times 2 isDigit ++ .text (lit "Z")

/-- An instant of whole seconds, by its date and time in UTC. -/
structure Instant where
  year : Nat
  month : Nat
  day : Nat
  hour : Nat
  minute : Nat
  second : Nat
  month_pos : 1 ≤ month
  month_le : month ≤ 12
  day_pos : 1 ≤ day
  day_le : day ≤ (monthLengths (isLeap year)).getD (month - 1) 0
  hour_lt : hour < 24
  minute_lt : minute < 60
  second_lt : second < 60

namespace Instant

/-- `LocalDateTime.of`; `none` is the exception. -/
def of (year month day hour minute second : Nat) : Option Instant :=
  if h : 1 ≤ month ∧ month ≤ 12 ∧ 1 ≤ day ∧ day ≤ (monthLengths (isLeap year)).getD (month - 1) 0 ∧ hour < 24 ∧
      minute < 60 ∧ second < 60 then
    some ⟨year, month, day, hour, minute, second, h.1, h.2.1, h.2.2.1, h.2.2.2.1, h.2.2.2.2.1, h.2.2.2.2.2.1,
      h.2.2.2.2.2.2⟩
  else none

/-- `plusDays(1)` -/
def nextDay (t : Instant) : Option Instant :=
  (of t.year t.month (t.day + 1) t.hour t.minute t.second).or
    ((of t.year (t.month + 1) 1 t.hour t.minute t.second).or (of (t.year + 1) 1 1 t.hour t.minute t.second))

/-- `Instant.parse` of a text that matches the expression: the end of a day is the beginning of the next, and a leap
second is the second before it. -/
def parse (s : Str) : Option Instant :=
  let field start length := digitsValue ((s.drop start).take length)
  let year := field 0 4
  let month := field 5 2
  let day := field 8 2
  let hour := field 11 2
  let minute := field 14 2
  let second := field 17 2
  if hour = 24 ∧ minute = 0 ∧ second = 0 then (of year month day 0 0 0).bind nextDay
  else if hour = 23 ∧ minute = 59 ∧ second = 60 then of year month day 23 59 59
  else of year month day hour minute second

/-- `toString`; years of more than four digits get a sign. -/
def toString (t : Instant) : Str :=
  (if t.year < 10000 then padDigits 4 t.year else 43 :: decDigits t.year) ++ 45 :: padDigits 2 t.month ++
    45 :: padDigits 2 t.day ++ 84 :: padDigits 2 t.hour ++ 58 :: padDigits 2 t.minute ++ 58 :: padDigits 2 t.second ++
    [90]

end Instant

def requireTimestamp (createdAt : Str) : Except Failure Unit :=
  if !timestampRegex.fullmatch createdAt then fail "GitHub Archive created_at must be exact whole-second UTC"
  else
    match Instant.parse createdAt with
    | none => .error .exception
    | some t =>
        if t.toString = createdAt then .ok () else fail "GitHub Archive created_at must be exact whole-second UTC"

def requireRecord (document : Option Json) : Except Failure (List (Str × Json)) :=
  match document with
  | some (.obj fields) => .ok fields
  | _ => fail "GitHub Archive source record must be one object"

def requireEnded : Option Bool → Except Failure Unit
  | none => .error .exception
  | some ended => require ended (.illegalArgument "GitHub Archive source line contains trailing JSON")

section
variable (jackson : Jackson)

def validateLine (line : Bytes) : Except Failure Unit :=
  match jackson line with
  | none => .error .exception
  | some reading => do
      let fields ← requireRecord reading.document
      requireEnded reading.ended
      require (depth (.obj fields) ≤ maxDepth)
        (.illegalArgument "GitHub Archive source record exceeds maximum depth")
      let _ ← requireText fields "id"
      let _ ← requireText fields "type"
      let actor ← requireObject fields "actor"
      let _ ← requireText actor "login"
      let repo ← requireObject fields "repo"
      let _ ← requireText repo "name"
      let createdAt ← requireText fields "created_at"
      requireTimestamp createdAt

/-! ### The object -/

structure SourceLock where
  sizeBytes : Nat
  sha256 : Str

/-- A compressed object: its size and digest, and what comes of decompressing it. -/
structure Source where
  size : Nat
  sha256 : Str
  expanded : List Bytes
  ending : Ending

structure PreflightStats where
  records : Nat
  bufferCapacity : Nat
  bufferAllocations : Nat
deriving DecidableEq

/-- The loop over the lines, of which `records` have passed. -/
def readRecords (ending : Ending) (r : ReusableLineReader) (stream : Bytes) (records : Nat) :
    ReusableLineReader × Except Failure Nat :=
  match _h : r.next ending stream with
  | (r, .error e) => (r, .error e)
  | (r, .ok none) => (r, .ok records)
  | (r, .ok (some (length, rest))) =>
      if records + 1 > maxRecords then (r, fail "GitHub Archive source exceeds maximum record count")
      else
        match validateLine jackson (r.buffer.take length) with
        | .error e => (r, .error e)
        | .ok () => readRecords ending r rest (records + 1)
termination_by stream.length
decreasing_by exact ReusableLineReader.next_length _h

/-- The checks after the last line, the rest of the object having been read. -/
def requireLocked (source : Source) (lock : SourceLock) : Except Failure Unit := do
  require (source.size ≤ lock.sizeBytes) (.illegalArgument "GitHub Archive source exceeds locked size")
  require (source.size == lock.sizeBytes) (.illegalArgument "GitHub Archive source size does not match registry lock")
  require (source.sha256 == lock.sha256) (.illegalArgument "GitHub Archive source digest does not match registry lock")

/-- The body of `validateGzipWithStats`, before its handlers. -/
def preflight (source : Source) (lock : SourceLock) : ReusableLineReader × Except Failure PreflightStats :=
  if !(decide (lock.sizeBytes > 0) && isSha256 lock.sha256) then (.initial, fail "invalid GH Archive source lock")
  else
    let (stream, ending) := counted maxExpandedBytes 0 source.expanded source.ending
    let (r, records) := readRecords jackson ending .initial stream 0
    (r, do
      let records ← records
      require (records > 0) (.illegalArgument "GitHub Archive source must be nonempty")
      requireLocked source lock
      return ⟨records, r.buffer.length, r.allocations⟩)

/-- The handlers: every exception becomes an `IllegalArgumentException`. -/
def Failure.handled : Failure → IllegalArgument
  | .illegalArgument message => ⟨message⟩
  | _ => ⟨"GitHub Archive raw source preflight failed"⟩

def validateGzipWithStats (source : Source) (lock : SourceLock) : Except IllegalArgument PreflightStats :=
  (preflight jackson source lock).2.mapError Failure.handled

end

/-! ### The other reading -/

/-- The lines of Spark's text reader, `piece` being what it has read of the first one, backwards. -/
def sparkLines (piece : Bytes) : Bytes → List Bytes
  | [] => if piece.isEmpty then [] else [piece.reverse]
  | 13 :: 10 :: rest => piece.reverse :: sparkLines [] rest
  | c :: rest => if c == 10 || c == 13 then piece.reverse :: sparkLines [] rest else sparkLines (c :: piece) rest

/-- The white space of JSON. -/
def isJsonSpace (b : UInt8) : Bool := b == 32 || b == 9 || b == 10 || b == 13

/-- The texts that `spark.read.json` parses: the lines that are not blank, without the white space around them. -/
def sparkRecords (bytes : Bytes) : List Bytes := recordsOf isJsonSpace (sparkLines [] bytes)

end RawPreflight

end GhArchive
