/-
The client of Trino's statement protocol.

A query is posted, and every page of the answer names the next one, which may leave neither
the origin nor the path.  Deadlines are checked between any two steps, bytes, pages and rows
are counted, and whatever goes wrong while a next page is outstanding cancels it.

The connection, the server and the clock answer anything; a response comes in any chunks.
-/
import DataEngLab.Lib.Checks
import DataEngLab.Lib.JsonFloats
import DataEngLab.Lib.JsonRaw
import DataEngLab.Lib.JsonBounds
import DataEngLab.Lib.Trace
import Mathlib.Algebra.Order.Field.Rat

namespace TrinoBi

namespace Client

open Lib

/-- What a call raises: `KeyboardInterrupt` or `SystemExit`, or anything else. -/
inductive Failure where
  | interrupt
  | other
deriving DecidableEq

inductive Exn where
  /-- `TrinoProtocolError` -/
  | protocol (message : String)
  | raised (f : Failure)
deriving DecidableEq

structure QuerySpec where
  name : String
  sql : Str
  columns : List (Str × Str)
  maxRows : Nat
  schema : Option Str

structure QueryResult where
  queryId : Str
  columns : List (Str × Str)
  rows : List (List Json)

/-! ### Calls -/

/-- A response: its status, and the chunks of its body, which may break off. -/
structure Response where
  status : Int
  chunks : List Bytes
  broken : Option Failure
deriving DecidableEq

inductive Call where
  | monotonic
  | hook
  | getConn (schema : Option Str)
  | baseUrl
  | post (url : Str) (data : Bytes) (timeout : Rat)
  | get (url : Str) (timeout : Rat)
  /-- `payload.extend(chunk)` -/
  | extend (chunk : Bytes)
  | closeResponse
  | delete (url : Str)
  /-- `close` of the response to a cancellation -/
  | closeCancelled
  | closeSession

abbrev Answer : Call → Type
  | .monotonic => Rat
  | .hook => Option Failure
  | .getConn _ => Option Failure
  | .baseUrl => Except Failure Str
  | .post _ _ _ => Except Failure Response
  | .get _ _ => Except Failure Response
  | .extend _ => Unit
  | .closeResponse => Option Failure
  | .delete _ => Option Failure
  | .closeCancelled => Option Failure
  | .closeSession => Option Failure

abbrev S (α : Type) := Proc Call Answer Exn α

abbrev Log := List (Event Call Answer)

def perform (e : Call) : S (Answer e) := Proc.perform e

def lift {α : Type} (x : Except Exn α) : S α := Proc.lift x

/-- A call that has no result but may raise. -/
def raising (f : Option Failure) : S Unit :=
  match f with
  | none => return ()
  | some f => throw (.raised f)

/-- `finally: close()`: what closing raises counts only when nothing else was raised, and then an interrupt
is passed on. -/
def withCleanup {α : Type} (close : Call) (closed : Answer close → Option Failure) (message : String) (x : S α) :
    S α := do
  match ← x.attempt with
  | .error e => do
      let _ ← perform close
      throw e
  | .ok a =>
      match closed (← perform close) with
      | none => return a
      | some .interrupt => throw (.raised .interrupt)
      | some .other => throw (.protocol message)

/-! ### Bounds -/

def requestTimeoutSeconds : Rat := 30

def queryDeadlineSeconds : Rat := 120

def maxResponseBytes : Nat := 256 * 1024

def maxPages : Nat := 32

def maxRequests : Nat := 33

def maxColumns : Nat := 32

def maxCellBytes : Nat := 64 * 1024

def maxJsonDepth : Nat := 16

/-- A reading of the clock at which the deadline has not passed. -/
def inTime (started now : Rat) : Bool := 0 < queryDeadlineSeconds - (now - started)

/-- `_check_deadline` -/
def checkDeadline (started : Rat) : S Unit := do
  let now ← perform .monotonic
  if inTime started now then return () else throw (.protocol "Trino query exceeded deadline")

/-- `_request_timeout` -/
def requestTimeout (started : Rat) : S Rat := do
  let now ← perform .monotonic
  if inTime started now then return min requestTimeoutSeconds (queryDeadlineSeconds - (now - started))
  else throw (.protocol "Trino query exceeded deadline")

/-! ### URIs -/

/-- `_BASE_URL` -/
def baseUrl : Str := lit "http://trino:8080"

/-- `_STATEMENT_URL` -/
def statementUrl : Str := lit "http://trino:8080/v1/statement"

/-- `[A-Za-z0-9._~-]+`, and none of the segments that `..` and `.` are. -/
def isSegment (s : Str) : Bool :=
  !s.isEmpty && s.all (fun c => isAlnum c || c == 46 || c == 95 || c == 126 || c == 45) && s ≠ lit "." && s ≠ lit ".."

/-- `_validate_next_uri`, of a text.  What it asks of the parts of the URL follows from the expression, but
for the segments of the path. -/
def isNextUri (value : Str) : Bool :=
  let start := statementUrl ++ lit "/"
  start.isPrefixOf value && ((value.drop start.length).splitOn 47).all isSegment

/-- `document.get("nextUri")`, validated. -/
def nextUri (document : List (Str × Json)) : Except Exn (Option Str) :=
  match Json.get "nextUri" document with
  | none | some .null => .ok none
  | some (.str value) =>
      if isNextUri value then .ok (some value)
      else .error (.protocol "Trino next page URI leaves the reviewed origin or path")
  | some _ => .error (.protocol "Trino next page URI is invalid")

/-! ### Documents -/

/-- `_decode_document` -/
def decodeDocument (payload : Bytes) : Except Exn (List (Str × Json)) := do
  let value ← (loadsUtf8 ⟨true, true⟩ payload).mapError fun e =>
    if e = .recursion then .raised .other else .protocol "Trino returned malformed JSON"
  require (value.height ≤ maxJsonDepth) (.protocol "Trino response exceeds JSON depth bound")
  match value with
  | .obj kvs => return kvs
  | _ => throw (.protocol "Trino response must be a JSON object")

/-- `[A-Za-z0-9_]+` -/
def isQueryId (s : Str) : Bool := !s.isEmpty && s.all fun c => isAlnum c || c == 95

def queryIdOf (document : List (Str × Json)) : Except Exn Str :=
  match Json.get "id" document with
  | some (.str s) => if isQueryId s then .ok s else .error (.protocol "Trino response has an invalid query ID")
  | _ => .error (.protocol "Trino response has an invalid query ID")

/-- The identifier, which the pages before it have as well. -/
def sameQuery (queryId : Option Str) (current : Str) : Except Exn Unit :=
  match queryId with
  | none => .ok ()
  | some queryId => require (current == queryId) (.protocol "Trino query ID changed between pages")

def columnOf : Json → Except Exn (Str × Str)
  | .obj kvs =>
      match Json.get "name" kvs, Json.get "type" kvs with
      | some (.str name), some (.str type) => .ok (name, type)
      | _, _ => .error (.protocol "Trino response columns have invalid shape")
  | _ => .error (.protocol "Trino response columns have invalid shape")

/-- `_parse_columns` with `optional=True` -/
def parseColumns (value : Option Json) (spec : QuerySpec) : Except Exn (Option (List (Str × Str))) :=
  match value with
  | none | some .null => .ok none
  | some (.arr items) => do
      require (items.length ≤ maxColumns) (.protocol "Trino result exceeds column bound")
      let columns ← checkAll columnOf items
      require (columns == spec.columns) (.protocol "Trino response columns do not match the reviewed query")
      return some columns
  | some _ => .error (.protocol "Trino response columns have invalid shape")

/-- `isinstance(cell, float) and not math.isfinite(cell)` -/
def isInfinite : Json → Bool
  | .float text => floatOverflows text
  | _ => false

section
variable (floatText : Str → Str)

/-- `json.dumps(cell, ensure_ascii=False, separators=(",", ":")).encode("utf-8")`; `floatText` is `repr`. -/
def cellBytes (cell : Json) : Option Bytes := utf8Encode ((cell.mapFloats floatText).text rawEscaping)

def checkCell (cell : Json) : Except Exn Unit := do
  require (!isInfinite cell) (.protocol "Trino response cell is not finite")
  let bytes ← orElse (cellBytes floatText cell) (.protocol "Trino response cell has invalid type")
  require (bytes.length ≤ maxCellBytes) (.protocol "Trino result exceeds cell bound")

def rowOf (width : Nat) : Json → Except Exn (List Json)
  | .arr row => do
      require (row.length == width) (.protocol "Trino response row width does not match columns")
      let _ ← checkAll (checkCell floatText) row
      return row
  | _ => .error (.protocol "Trino response data rows have invalid shape")

/-- `_parse_rows` -/
def parseRows (value : Option Json) (columns : Option (List (Str × Str))) (spec : QuerySpec) :
    Except Exn (List (List Json)) :=
  match value with
  | none | some .null => .ok []
  | some (.arr items) => do
      let columns ← orElse columns (.protocol "Trino response data precedes columns")
      require (items.length ≤ spec.maxRows) (.protocol "Trino result exceeds row bound")
      checkAll (rowOf floatText columns.length) items
  | some _ => .error (.protocol "Trino response data rows have invalid shape")

/-- `stats.get("state")` -/
def stateOf (document : List (Str × Json)) : Except Exn Str :=
  match Json.get "stats" document with
  | some (.obj stats) =>
      match Json.get "state" stats with
      | some (.str state) => .ok state
      | _ => .error (.protocol "Trino response has invalid query state")
  | _ => .error (.protocol "Trino response has invalid query state")

/-! ### Pages -/

/-- What the loop of `_execute` carries from page to page. -/
structure Progress where
  seen : List Str
  totalBytes : Nat
  requestCount : Nat
  queryId : Option Str
  columns : Option (List (Str × Str))
  rows : List (List Json)

def Progress.start : Progress := ⟨[], 0, 0, none, none, []⟩

/-- The identifier, the columns and the rows of one more page, and its state. -/
def absorb (spec : QuerySpec) (progress : Progress) (document : List (Str × Json)) :
    Except Exn (Progress × Str) := do
  let current ← queryIdOf document
  sameQuery progress.queryId current
  require (Json.get "error" document).isNone (.protocol (spec.name ++ ": Trino query failed"))
  let pageColumns ← parseColumns (Json.get "columns" document) spec
  -- all columns that were accepted are the reviewed ones, so they do not change between pages
  let columns := pageColumns.or progress.columns
  let pageRows ← parseRows floatText (Json.get "data" document) columns spec
  let rows := progress.rows ++ pageRows
  require (rows.length ≤ spec.maxRows) (.protocol "Trino result exceeds row bound")
  let state ← stateOf document
  return ({ progress with queryId := some current, columns := columns, rows := rows }, state)

/-- The chunks of a body, as they arrive. -/
def readBody (started : Rat) (maxTotalBytes : Nat) (broken : Option Failure) :
    Nat → Bytes → List Bytes → S Bytes
  | _, payload, [] => do
      raising broken
      return payload
  | total, payload, chunk :: rest => do
      checkDeadline started
      if chunk = [] then readBody started maxTotalBytes broken total payload rest
      else if maxResponseBytes < payload.length + chunk.length then
        throw (.protocol "Trino response exceeds response byte bound")
      else if maxTotalBytes < total + chunk.length then
        throw (.protocol "Trino response exceeds total byte bound")
      else do
        perform (.extend chunk)
        checkDeadline started
        readBody started maxTotalBytes broken (total + chunk.length) (payload ++ chunk) rest

/-- The request for a page: the statement itself, or the page that the one before it named. -/
def send (spec : QuerySpec) (request : Option Str) (timeout : Rat) : S Response := do
  match request with
  | none => do
      let data ← lift (orElse (utf8Encode spec.sql) (.raised .other))
      lift ((← perform (.post statementUrl data timeout)).mapError Exn.raised)
  | some url => lift ((← perform (.get url timeout)).mapError Exn.raised)

/-- One request, its whole body, and the closing of the response. -/
def fetch (spec : QuerySpec) (started : Rat) (maxTotalBytes total : Nat) (request : Option Str) : S Bytes := do
  let timeout ← requestTimeout started
  let response ← send spec request timeout
  withCleanup .closeResponse id (spec.name ++ ": Trino response cleanup failed") do
    checkDeadline started
    if response.status ≠ 200 then
      throw (.protocol (spec.name ++ ": Trino returned HTTP status " ++ toString response.status))
    else readBody started maxTotalBytes response.broken total [] response.chunks

/-- A part of the loop; what it raises comes with the page that `cancel_uri` names there. -/
abbrev Paging (α : Type) := Proc Call Answer (Exn × Option Str) α

def cancelling {α : Type} (cancelUri : Option Str) (x : S α) : Paging α := x.mapError fun e => (e, cancelUri)

/-- A page: one exchange, in time. -/
def load (spec : QuerySpec) (started : Rat) (maxTotalBytes total : Nat) (request : Option Str) : S Bytes := do
  let payload ← fetch spec started maxTotalBytes total request
  checkDeadline started
  return payload

/-- What a page says: the next page, what all pages come to by now, and the state of the query.  Once there
is a document, only the page that it names may be cancelled. -/
def examine (spec : QuerySpec) (started : Rat) (request : Option Str) (progress : Progress) (payload : Bytes) :
    Paging (Option Str × Progress × Str) := do
  let document ← cancelling request (lift (decodeDocument payload))
  let next ← cancelling none (lift (nextUri document))
  cancelling next (checkDeadline started)
  let (progress, state) ← cancelling next (lift (absorb floatText spec progress document))
  cancelling next (checkDeadline started)
  return (next, progress, state)

/-- The last page: it has to be the end of a query with columns. -/
def finish (started : Rat) (progress : Progress) (state : Str) : S QueryResult := do
  lift (require (state == lit "FINISHED") (.protocol "Trino response did not reach terminal FINISHED state"))
  let columns ← lift (orElse progress.columns (.protocol "Trino response is missing columns"))
  checkDeadline started
  let queryId ← lift (orElse progress.queryId (.raised .other))
  return ⟨queryId, columns, progress.rows⟩

/-- The rounds of the loop of `_execute`; `rounds` is how many pages are still allowed. -/
def pages (spec : QuerySpec) (started : Rat) (maxTotalBytes : Nat) :
    Nat → Option Str → Progress → Paging QueryResult
  | 0, request, _ => cancelling request (throw (.protocol "Trino response exceeds page bound"))
  | rounds + 1, request, progress => do
      cancelling request (lift (require (progress.requestCount < maxRequests)
        (.protocol "Trino response exceeds request bound")))
      cancelling request (lift (require (request.all fun url => url ∉ progress.seen)
        (.protocol "Trino returned a repeated next page URI")))
      let payload ← cancelling request (load spec started maxTotalBytes progress.totalBytes request)
      let (next, progress, state) ← examine floatText spec started request
        { progress with seen := request.toList ++ progress.seen,
                        totalBytes := progress.totalBytes + payload.length,
                        requestCount := progress.requestCount + 1 } payload
      match next with
      | none => cancelling none (finish started progress state)
      | some url => do
          cancelling next (lift (require (url ∉ progress.seen) (.protocol "Trino returned a repeated next page URI")))
          cancelling next (checkDeadline started)
          pages spec started maxTotalBytes rounds (some url) progress

/-- `_cancel`; nothing it meets is raised. -/
def cancel (url : Str) : S Unit := do
  match ← perform (.delete url) with
  | none => do
      let _ ← perform .closeCancelled
      return ()
  | some _ => return ()

/-- `_execute` -/
def executePages (spec : QuerySpec) (started : Rat) (maxTotalBytes : Nat) : S QueryResult := do
  match ← (pages floatText spec started maxTotalBytes maxPages none Progress.start).attempt with
  | .ok result => return result
  | .error (e, some url) => do
      cancel url
      throw e
  | .error (e, none) => throw e

/-- The clauses of `execute` for what the transport raises. -/
def transported (spec : QuerySpec) : Exn → Exn
  | .raised .other => .protocol (spec.name ++ ": Trino transport failed")
  | e => e

/-- `TrinoHttpClient.execute`; `spec` is what `QUERIES` has under the name. -/
def execute (maxTotalBytes : Nat) (spec : Option QuerySpec) : S QueryResult := do
  let started ← perform .monotonic
  match spec with
  | none => throw (.protocol "query is absent from the reviewed registry")
  | some spec => do
      Proc.mapError (transported spec) do
        checkDeadline started
        raising (← perform .hook)
        checkDeadline started
        raising (← perform (.getConn spec.schema))
      let result ← withCleanup .closeSession id (spec.name ++ ": Trino session cleanup failed")
        (Proc.mapError (transported spec) do
          checkDeadline started
          let url ← lift ((← perform .baseUrl).mapError Exn.raised)
          lift (require (url == baseUrl)
            (.protocol "Trino connection origin does not match the internal service"))
          executePages floatText spec started maxTotalBytes)
      checkDeadline started
      return result

end

end Client

end TrinoBi
