/-
The S3 gateway.

Each method is a program over the calls of the client.  It checks what it is given, makes
one call (`inventory` one per page), checks what comes back, and turns every failure into
a closed code.  Before and after each call it runs the deadline check of the operation it
serves, which the source keeps in a thread-local and which is an argument here.

A write is read back before it counts: `writeControl` succeeds only when the bytes and the
ETag it reads are the ones it wrote.
-/
import DataEngLab.Checkpoints.Store
import DataEngLab.Checkpoints.Policy

namespace Checkpoints

open Lib

/-- A method of the service. -/
abbrev M (α : Type) := Proc Call Answer Exn α

def perform (e : Call) : M (Answer e) := Proc.perform e

def lift {α : Type} (x : Except Exn α) : M α := Proc.lift x

/-- `raise GatewayFailure(code)` -/
def gatewayFailure (code : String) : Exn := .gateway code []

/-- The check that runs around every call: none, the service's, or an operation's own. -/
inductive Deadline where
  | none
  | service (started : Rat) (maxSeconds : Rat)
  | operation (started : Rat) (maxSeconds : Rat)

/-- `elapsed < 0 or elapsed > max_seconds` -/
def outside (now started maxSeconds : Rat) : Bool := now - started < 0 || maxSeconds < now - started

/-- The service's `check_deadline`. -/
def serviceReading (started maxSeconds : Rat) : Reply (Option Rat) → Except Exn Unit
  | .interrupt => .error .interrupt
  | .ok (some now) => require (!outside now started maxSeconds) (gatewayFailure "operation_deadline")
  | _ => .error (gatewayFailure "operation_deadline")

/-- `OperationManager.check_deadline` -/
def operationReading (started maxSeconds : Rat) : Reply (Option Rat) → Except Exn Unit
  | .interrupt => .error .interrupt
  | .ok (some now) => require (!outside now started maxSeconds) (.operation "operation_deadline" false)
  | _ => .error (.operation "clock_failed" false)

/-- `S3Gateway._check_deadline`, the gateway's own limit on one inventory. -/
def inventoryReading (started : Option Rat) (maxSeconds : Nat) : Reply (Option Rat) → Except Exn Unit
  | .interrupt => .error .interrupt
  | .ok (some now) =>
      match started with
      | some started => require (!outside now started maxSeconds) (gatewayFailure "gateway_deadline")
      | none => .error (gatewayFailure "clock_failed")
  | _ => .error (gatewayFailure "clock_failed")

/-- `_check_operation_deadline` -/
def checkOperationDeadline (d : Deadline) : M Unit :=
  match d with
  | .none => pure ()
  | .service started maxSeconds => do
      let reading ← perform .monotonic
      lift (serviceReading started maxSeconds reading)
  | .operation started maxSeconds => do
      let reading ← perform .monotonic
      lift (operationReading started maxSeconds reading)

/-- The code of `getattr(error, "code", None)`. -/
def Exn.code? : Exn → Option String
  | .record c => some c
  | .policy c => some c
  | .plan c => some c
  | .lease c => some c
  | .gateway c _ => some c
  | .operation c _ => some c
  | _ => none

/-- `error.code == "operation_deadline"` -/
def Exn.isDeadline (e : Exn) : Bool := e.code? == some "operation_deadline"

def Exn.isGateway : Exn → Bool
  | .gateway _ _ => true
  | _ => false

/-! ### Inventories -/

/-- `_normalize_s3_timestamp` -/
def normalizeS3Timestamp (value : Option Datetime) : Option Instant :=
  value.bind fun d => if d.utcoffset = some 0 then some d.wall else none

def inventoryItem (keyPrefix : Str) (item : Option ListItem) : Except Exn ObjectRecord := do
  let item ← orElse item (gatewayFailure "inventory_record_invalid")
  let key ← orElse (Json.str? item.key) (gatewayFailure "inventory_prefix_escape")
  require (keyPrefix.isPrefixOf key && key != keyPrefix) (gatewayFailure "inventory_prefix_escape")
  let etag ← orElse (parseEtag item.etag) (gatewayFailure "inventory_record_invalid")
  match ObjectRecord.create (.str key) (.str etag) item.size (normalizeS3Timestamp item.lastModified) with
  | .ok record => .ok record
  | .error _ => .error (gatewayFailure "inventory_record_invalid")

/-- The items of one page after `count` records of `total` bytes. -/
def inventoryItems (bounds : OperationBounds) (keyPrefix : Str) : List (Option ListItem) → Nat → Nat →
    Except Exn (List ObjectRecord)
  | [], _, _ => .ok []
  | item :: items, count, total => do
      let record ← inventoryItem keyPrefix item
      require (count + 1 ≤ bounds.maxObjects) (gatewayFailure "inventory_object_bound")
      require (total + record.sizeBytes ≤ bounds.maxBytes) (gatewayFailure "inventory_byte_bound")
      let records ← inventoryItems bounds keyPrefix items (count + 1) (total + record.sizeBytes)
      return record :: records

def totalBytes (records : List ObjectRecord) : Nat := (records.map (·.sizeBytes)).sum

/-- What one page adds, and the token of the next one if there is one. -/
def inventoryPage (bounds : OperationBounds) (keyPrefix : Str) (token : Option Str)
    (seen : List Str) (records : List ObjectRecord) (page : Page) :
    Except Exn (List ObjectRecord × Option Str) := do
  let contents ← orElse page.contents (gatewayFailure "inventory_page_invalid")
  let added ← inventoryItems bounds keyPrefix contents records.length (totalBytes records)
  let truncated ← orElse page.isTruncated (gatewayFailure "inventory_page_invalid")
  if truncated then do
    let next ← orElse (page.nextToken.filter fun s => !s.isEmpty)
      (gatewayFailure "inventory_token_missing")
    require (some next != token && next ∉ seen) (gatewayFailure "inventory_token_nonprogress")
    return (records ++ added, some next)
  else return (records ++ added, none)

/-- A page of the data listing, or the failure of the call. -/
def listReply : Reply (Option Page) → Except Exn (Option Page)
  | .ok page => .ok page
  | .raised => .error (gatewayFailure "inventory_failed")
  | .interrupt => .error .interrupt

/-- `pages > max_pages` is tested before the page is looked at; `left` is how many may follow. -/
def pageOf (left : Nat) (page : Option Page) : Except Exn Page :=
  if left = 0 then .error (gatewayFailure "inventory_page_bound")
  else orElse page (gatewayFailure "inventory_page_invalid")

section
variable (policy : CheckpointPolicy) (d : Deadline)

def checkInventoryDeadline (started : Option Rat) : M Unit := do
  let reading ← perform .monotonic
  lift (inventoryReading started policy.bounds.maxActiveSeconds reading)

/-- One turn of the `while` loop of `inventory`; `left` pages may still be read. -/
def inventoryTurn (keyPrefix : Str) (started : Option Rat) (left : Nat) (token : Option Str)
    (seen : List Str) (records : List ObjectRecord) : M (List ObjectRecord × Option Str) := do
  checkInventoryDeadline policy started
  checkOperationDeadline d
  let reply ← perform (.listObjects keyPrefix token)
  let page ← lift (listReply reply)
  checkOperationDeadline d
  checkInventoryDeadline policy started
  let page ← lift (pageOf left page)
  lift (inventoryPage policy.bounds keyPrefix token seen records page)

/-- The loop.  A turn with no pages left fails, whatever it reads. -/
def inventoryPages (keyPrefix : Str) (started : Option Rat) : Nat → Option Str → List Str →
    List ObjectRecord → M (List ObjectRecord)
  | 0, token, seen, records => do
      let (records, _) ← inventoryTurn policy d keyPrefix started 0 token seen records
      return records
  | left + 1, token, seen, records => do
      let (records, next) ← inventoryTurn policy d keyPrefix started (left + 1) token seen records
      match next with
      | some next => inventoryPages keyPrefix started left (some next) (next :: seen) records
      | none => pure records

/-- `started = self._monotonic()`, unguarded. -/
def rawReading : Reply (Option Rat) → Except Exn (Option Rat)
  | .ok started => .ok started
  | .raised => .error .foreign
  | .interrupt => .error .interrupt

/-- `raise GatewayFailure(error.code)` for a failed record check. -/
def asGateway {α : Type} (x : Except Exn α) : Except Exn α :=
  match x with
  | .ok a => .ok a
  | .error (.record code) => .error (gatewayFailure code)
  | .error e => .error e

def inventory (keyPrefix : Str) : M (List ObjectRecord) := do
  lift (match policy.matchPrefix keyPrefix with
    | .ok _ => .ok ()
    | .error _ => .error (gatewayFailure "inventory_prefix_invalid"))
  let started ← perform .monotonic
  let started ← lift (rawReading started)
  let records ← inventoryPages policy d keyPrefix started policy.bounds.maxPages none [] []
  lift (asGateway (canonicalRecords records))

/-! ### Control records -/

def controlBound (key : ControlKey) : Nat :=
  if key.isShard then policy.bounds.maxManifestShardBytes else policy.bounds.maxSummaryBytes

/-- The outcome of `get_object` itself. -/
def getReply : GetReply → Except Exn GetResponse
  | .ok r => .ok r
  | .malformed => .error (gatewayFailure "control_response_invalid")
  | .clientError code => .error (gatewayFailure
      (if code.any fun c => c ∈ missingCodes then "control_missing" else "control_read_failed"))
  | .raised => .error (gatewayFailure "control_read_failed")
  | .interrupt => .error .interrupt

/-- The body of a response, read and checked against the length it declares. -/
def readBody (maxBytes : Nat) (r : GetResponse) : Except Exn (Bytes × Str) := do
  let stream ← orElse r.body (gatewayFailure "control_response_invalid")
  let length ← orElse r.contentLength (gatewayFailure "control_body_bound")
  require (length ≤ maxBytes) (gatewayFailure "control_body_bound")
  require (!r.readRaises) (gatewayFailure "control_read_failed")
  -- `stream.read(max_bytes + 1)`
  let body := stream.take (maxBytes + 1)
  require (body.length == length && body.length ≤ maxBytes) (gatewayFailure "control_body_invalid")
  let etag ← orElse (parseEtag r.etag) (gatewayFailure "control_read_failed")
  return (body, etag)

/-- The `try` around the body: a failed clock is reported as a failed read. -/
def bodyDeadline : M Unit :=
  tryCatch (checkOperationDeadline d) fun e =>
    if e = .interrupt ∨ e.isGateway ∨ e.isDeadline then throw e
    else throw (gatewayFailure "control_read_failed")

def readControl (key : ControlKey) (maxBytes : Nat) : M (Bytes × Str) := do
  lift (require key.valid (gatewayFailure "control_key_invalid"))
  lift (require (1 ≤ maxBytes && maxBytes ≤ controlBound policy key)
    (gatewayFailure "control_bound_invalid"))
  checkOperationDeadline d
  let reply ← perform (.getObject key)
  let response ← lift (getReply reply)
  bodyDeadline d
  let result ← lift (readBody maxBytes response)
  lift (require (!response.closeRaises) (gatewayFailure "control_close_failed"))
  checkOperationDeadline d
  return result

/-- The ETag of a write, or the failure of the call. -/
def putReply : Reply Json → Except Exn Str
  | .ok v => orElse (parseEtag v) (gatewayFailure "control_write_failed")
  | .raised => .error (gatewayFailure "control_write_failed")
  | .interrupt => .error .interrupt

def writeControl (key : ControlKey) (body : Bytes) (condition : PutCondition) : M Str := do
  lift (require key.valid (gatewayFailure "control_key_invalid"))
  lift (require (!body.isEmpty && body.length ≤ controlBound policy key)
    (gatewayFailure "control_body_bound"))
  checkOperationDeadline d
  let reply ← perform (.putObject key body condition)
  let writtenEtag ← lift (putReply reply)
  checkOperationDeadline d
  let (readBody, readEtag) ← readControl policy d key body.length
  lift (require (readBody == body && readEtag == writtenEtag)
    (gatewayFailure "control_readback_mismatch"))
  return writtenEtag

def createControl (key : ControlKey) (body : Bytes) : M Str :=
  writeControl policy d key body .ifNoneMatch

def replaceLease (key : ControlKey) (etag : Str) (body : Bytes) : M Str := do
  lift (require (isEtag etag) (gatewayFailure "control_etag_invalid"))
  writeControl policy d key body (.ifMatch etag)

def listControlsReply : Reply (Option AttemptPage) → Except Exn (Option AttemptPage)
  | .ok page => .ok page
  | .raised => .error (gatewayFailure "control_list_failed")
  | .interrupt => .error .interrupt

/-- One listed key: a string under the prefix, and a control key. -/
def listedAttempt (op : Str) (item : Option (Nat × Str)) : Except Exn (Nat × Str) := do
  let a ← orElse item (gatewayFailure "control_list_invalid")
  require (ControlKey.attempt op a.1 a.2).valid (gatewayFailure "control_key_invalid")
  return a

def listedAttempts (op : Str) (maxKeys : Nat) (page : Option AttemptPage) :
    Except Exn (List (Nat × Str)) := do
  let contents ← orElse (page.bind fun p => p.contents) (gatewayFailure "control_list_bound")
  require ((page.bind fun p => p.isTruncated) == some false && contents.length ≤ maxKeys)
    (gatewayFailure "control_list_bound")
  let keys ← checkAll (listedAttempt op) contents
  require (decide keys.Nodup) (gatewayFailure "control_list_invalid")
  return keys.insertionSort fun a b =>
    (ControlKey.attempt op a.1 a.2).path ≤ (ControlKey.attempt op b.1 b.2).path

/-- `list_controls` of the attempts of an operation, the one prefix it is used with. -/
def listControls (op : Str) (maxKeys : Nat) : M (List (Nat × Str)) := do
  lift (require (1 ≤ maxKeys && maxKeys ≤ 1024) (gatewayFailure "control_prefix_invalid"))
  checkOperationDeadline d
  let reply ← perform (.listAttempts op (maxKeys + 1))
  let page ← lift (listControlsReply reply)
  checkOperationDeadline d
  lift (listedAttempts op maxKeys page)

/-! ### Data objects -/

/-- The prefix an entry claims of a data key: `streaming_test/{36 characters}/`, the generation
prefix, or the fixed one. -/
def entryPrefix (entry : CheckpointEntry) (key : Str) : Option Str :=
  if entry.keyPrefix = scratchTemplate then
    let p := Pattern.text (lit "streaming_test/") ++ Pattern.times 36 (fun c => isHex c || c == 45) ++
      Pattern.text (lit "/")
    if p.fullmatch (key.take p.length) then some (key.take p.length) else none
  else if entry.keyPrefix = generationTemplate then
    (scaleNames.find? fun scale =>
      (generationPattern scale).fullmatch (key.take (generationPattern scale).length)).map fun scale =>
        key.take (generationPattern scale).length
  else if (lit entry.keyPrefix).isPrefixOf key then some (lit entry.keyPrefix) else none

def validateDataKey (key : Str) : Except Exn Str :=
  match policy.entries.findSome? fun entry => (entryPrefix entry key).filter fun p => p != key with
  | some keyPrefix =>
      match policy.matchPrefix keyPrefix with
      | .ok _ => .ok keyPrefix
      | .error _ => .error (gatewayFailure "data_key_invalid")
  | none => .error (gatewayFailure "data_key_invalid")

/-- The instant a `datetime` with a time zone stands for is this one. -/
def isInstant (value : Option Datetime) (t : Instant) : Bool :=
  match value with
  | some ⟨wall, microsecond, some offset⟩ =>
      ((wall.second * 1000000 + microsecond : Nat) : Int) - offset == t.second * 1000000
  | _ => false

def headReply : Reply HeadResponse → Except Exn (HeadResponse × Str)
  | .ok r => do
      let etag ← orElse (parseEtag r.etag) (gatewayFailure "head_failed")
      return (r, etag)
  | .raised => .error (gatewayFailure "head_failed")
  | .interrupt => .error .interrupt

/-- The response is of the object that was recorded. -/
def headMatches (record : ObjectRecord) (r : HeadResponse × Str) : Bool :=
  r.2 == record.etag && Json.isInt record.sizeBytes r.1.contentLength &&
    isInstant r.1.lastModified record.lastModified

def headRecord (record : ObjectRecord) : M Unit := do
  let _ ← lift (validateDataKey policy record.key)
  checkOperationDeadline d
  let reply ← perform (.headObject record.key)
  let response ← lift (headReply reply)
  checkOperationDeadline d
  lift (require (headMatches record response) (gatewayFailure "head_mismatch"))

def deleteReply : Reply (Option DeleteResponse) → Except Exn DeleteResponse
  | .ok r => orElse r (gatewayFailure "delete_response_invalid")
  | .raised => .error (gatewayFailure "delete_failed")
  | .interrupt => .error .interrupt

/-- The keys of one of the two lists of a response, each a string. -/
def reportedKeys (xs : Option (List (Option (Option Str)))) : Except Exn (List Str) := do
  let xs ← orElse xs (gatewayFailure "delete_response_invalid")
  checkAll (fun x => orElse (x.bind id) (gatewayFailure "delete_response_invalid")) xs

/-- The keys reported deleted, when every requested key is accounted for by at most one entry. -/
def deletedKeys (expected : List Str) (r : DeleteResponse) : Except Exn (List Str) := do
  let deleted ← reportedKeys r.deleted
  let errors ← reportedKeys r.errors
  require (decide deleted.Nodup && decide errors.Nodup && deleted.all (fun k => k ∉ errors) &&
    (deleted ++ errors).all fun k => k ∈ expected) (gatewayFailure "delete_response_invalid")
  require (errors.isEmpty && deleted.length == expected.length && expected.all fun k => k ∈ deleted)
    (.gateway "delete_partial" deleted)
  return expected

def deleteRecords (records : List ObjectRecord) : M (List Str) := do
  let ordered ← lift (asGateway (canonicalRecords records))
  lift (require (!ordered.isEmpty && ordered.length ≤ policy.bounds.maxDeleteKeys)
    (gatewayFailure "delete_batch_bound"))
  let prefixes ← lift (checkAll (fun r => validateDataKey policy r.key) ordered)
  lift (require (prefixes.all fun p => some p == prefixes.head?) (gatewayFailure "delete_prefix_mismatch"))
  checkOperationDeadline d
  let reply ← perform (.deleteObjects (ordered.map (·.key)))
  let response ← lift (deleteReply reply)
  lift (deletedKeys (ordered.map (·.key)) response)

end

end Checkpoints
