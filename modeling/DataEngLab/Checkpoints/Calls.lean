/-
Which calls each program makes.

Most of the service only reads.  What is left is: creating records of one operation, each
under a condition that nothing is there yet; deleting objects of the bucket; and taking
and releasing a lock.  These lemmas say so of every program but those of the lease
manager, which alone replaces records.
-/
import DataEngLab.Checkpoints.Service

namespace Checkpoints

open Lib

/-- A call that changes nothing. -/
def Call.reads : Call → Bool
  | .now => true
  | .monotonic => true
  | .uuid => true
  | .listObjects _ _ => true
  | .headObject _ => true
  | .listAttempts _ _ => true
  | .getObject _ => true
  | _ => false

/-- The operation a record belongs to. -/
def ControlKey.op : ControlKey → Option Str
  | .lease _ => none
  | .terminal _ => none
  | .prepared op => some op
  | .manifest op _ _ => some op
  | .attempt op _ _ => some op
  | .resultShard op _ => some op
  | .audit op _ => some op

/-- A call that reads, or creates a record of the operation where there is none. -/
def Call.appends (op : Str) (e : Call) : Prop :=
  e.reads = true ∨ ∃ key body, e = .putObject key body .ifNoneMatch ∧ key.op = some op

/-- A call that reads, appends, or deletes objects. -/
def Call.applies (op : Str) (e : Call) : Prop := e.appends op ∨ ∃ keys, e = .deleteObjects keys

/-- A call that no program but those of the lease manager goes beyond. -/
def Call.keeps (e : Call) : Prop :=
  (∃ op, e.applies op) ∨ (∃ c, e = .hold c) ∨ ∃ c, e = .release c

abbrev Reading {α : Type} (x : M α) : Prop := Only (fun e => Call.reads e = true) x

abbrev Appending {α : Type} (op : Str) (x : M α) : Prop := Only (Call.appends op) x

abbrev Applying {α : Type} (op : Str) (x : M α) : Prop := Only (Call.applies op) x

theorem Reading.appending {α : Type} {x : M α} {op : Str} (h : Reading x) : Appending op x :=
  Only.mono (fun _ he => Or.inl he) h

theorem Appending.applying {α : Type} {x : M α} {op : Str} (h : Appending op x) : Applying op x :=
  Only.mono (fun _ he => Or.inl he) h

theorem Applying.keeps {α : Type} {x : M α} {op : Str} (h : Applying op x) : Only Call.keeps x :=
  Only.mono (fun _ he => Or.inl ⟨op, he⟩) h

/-! ### The gateway -/

section
variable (policy : CheckpointPolicy) (d : Deadline)

theorem reading_checkOperationDeadline : Reading (checkOperationDeadline d) := by
  cases d with
  | none => exact Only.pure
  | service started maxSeconds => exact Only.bind (Only.perform rfl) fun _ => Only.lift
  | operation started maxSeconds => exact Only.bind (Only.perform rfl) fun _ => Only.lift

theorem reading_checkDeadline (started maxSeconds : Rat) : Reading (checkDeadline started maxSeconds) :=
  reading_checkOperationDeadline _

theorem reading_inventoryTurn (keyPrefix : Str) (started : Option Rat) (left : Nat)
    (token : Option Str) (seen : List Str) (records : List ObjectRecord) :
    Reading (inventoryTurn policy d keyPrefix started left token seen records) := by
  have hcheck : Reading (checkInventoryDeadline policy started) :=
    Only.bind (Only.perform rfl) fun _ => Only.lift
  exact Only.bind hcheck fun _ => Only.bind (reading_checkOperationDeadline d) fun _ =>
    Only.bind (Only.perform rfl) fun _ => Only.bind Only.lift fun _ =>
    Only.bind (reading_checkOperationDeadline d) fun _ => Only.bind hcheck fun _ =>
    Only.bind Only.lift fun _ => Only.lift

theorem reading_inventoryPages (keyPrefix : Str) (started : Option Rat) (left : Nat)
    (token : Option Str) (seen : List Str) (records : List ObjectRecord) :
    Reading (inventoryPages policy d keyPrefix started left token seen records) := by
  induction left generalizing token seen records with
  | zero => exact Only.bind (reading_inventoryTurn ..) fun _ => Only.pure
  | succ left ih =>
      refine Only.bind (reading_inventoryTurn ..) fun x => ?_
      obtain ⟨records, next⟩ := x
      cases next with
      | none => exact Only.pure
      | some next => exact ih _ _ _

theorem reading_inventory (keyPrefix : Str) : Reading (inventory policy d keyPrefix) :=
  Only.bind Only.lift fun _ => Only.bind (Only.perform rfl) fun _ => Only.bind Only.lift fun _ =>
    Only.bind (reading_inventoryPages ..) fun _ => Only.lift

theorem reading_bodyDeadline : Reading (bodyDeadline d) := by
  refine Only.handle (reading_checkOperationDeadline d) fun e => ?_
  split
  · exact Only.throw
  · exact Only.throw

theorem reading_readControl (key : ControlKey) (maxBytes : Nat) :
    Reading (readControl policy d key maxBytes) :=
  Only.bind Only.lift fun _ => Only.bind Only.lift fun _ =>
    Only.bind (reading_checkOperationDeadline d) fun _ => Only.bind (Only.perform rfl) fun _ =>
    Only.bind Only.lift fun _ => Only.bind (reading_bodyDeadline d) fun _ => Only.bind Only.lift fun _ =>
    Only.bind Only.lift fun _ => Only.bind (reading_checkOperationDeadline d) fun _ => Only.pure

theorem reading_listControls (op : Str) (maxKeys : Nat) : Reading (listControls d op maxKeys) :=
  Only.bind Only.lift fun _ => Only.bind (reading_checkOperationDeadline d) fun _ =>
    Only.bind (Only.perform rfl) fun _ => Only.bind Only.lift fun _ =>
    Only.bind (reading_checkOperationDeadline d) fun _ => Only.lift

theorem reading_headRecord (record : ObjectRecord) : Reading (headRecord policy d record) :=
  Only.bind Only.lift fun _ => Only.bind (reading_checkOperationDeadline d) fun _ =>
    Only.bind (Only.perform rfl) fun _ => Only.bind Only.lift fun _ =>
    Only.bind (reading_checkOperationDeadline d) fun _ => Only.lift

theorem appending_createControl {op : Str} {key : ControlKey} (h : key.op = some op) (body : Bytes) :
    Appending op (createControl policy d key body) :=
  Only.bind Only.lift fun _ => Only.bind Only.lift fun _ =>
    Only.bind (reading_checkOperationDeadline d).appending fun _ =>
    Only.bind (Only.perform (.inr ⟨key, body, rfl, h⟩)) fun _ => Only.bind Only.lift fun _ =>
    Only.bind (reading_checkOperationDeadline d).appending fun _ =>
    Only.bind (reading_readControl ..).appending fun _ => Only.bind Only.lift fun _ => Only.pure

theorem applying_deleteRecords (op : Str) (records : List ObjectRecord) :
    Applying op (deleteRecords policy d records) :=
  Only.bind Only.lift fun _ => Only.bind Only.lift fun _ => Only.bind Only.lift fun _ =>
    Only.bind Only.lift fun _ => Only.bind (reading_checkOperationDeadline d).appending.applying fun _ =>
    Only.bind (Only.perform (.inr ⟨_, rfl⟩)) fun _ => Only.bind Only.lift fun _ => Only.lift

/-! ### The planner -/

theorem reading_readSummary (key : ControlKey) : Reading (readSummary policy d key) :=
  reading_readControl ..

theorem reading_optionalControl {α : Type} (key : ControlKey) (decode : Bytes → Str → Except Exn α) :
    Reading (optionalControl policy d key decode) := by
  refine Only.bind (Only.attempt (reading_readSummary policy d key)) fun r => ?_
  cases r with
  | ok x => exact Only.bind Only.lift fun _ => Only.pure
  | error e =>
      dsimp only
      split
      · exact Only.pure
      · exact Only.throw

theorem reading_plan (request : PlanRequest) : Reading (plan policy d request) := by
  refine Only.bind Only.lift fun x => Only.bind (Only.handle (reading_inventory ..) fun _ => Only.throw)
    fun _ => Only.bind Only.lift fun _ => Only.bind (reading_optionalControl ..) fun lease =>
    Only.bind ?_ fun _ => Only.lift
  unfold planTerminal
  split
  · exact Only.pure
  · exact reading_optionalControl ..

/-! ### The operation manager -/

theorem reading_operationNow : Reading operationNow := Only.bind (Only.perform rfl) fun _ => Only.lift

theorem reading_startDeadline : Reading startDeadline := Only.bind (Only.perform rfl) fun _ => Only.lift

theorem reading_readOr (key : ControlKey) (bound : Nat) (code : String) :
    Reading (readOr policy d key bound code) :=
  Only.bind (Only.handle (reading_readControl ..) fun _ => Only.throw) fun _ => Only.pure

theorem reading_existing (key : ControlKey) (onError : Exn → Exn) :
    Reading (existing policy d key onError) := by
  refine Only.bind (Only.attempt (reading_readControl ..)) fun r => ?_
  cases r with
  | ok x => exact Only.pure
  | error e =>
      dsimp only
      split
      · exact Only.pure
      · exact Only.throw

theorem reading_existingPrepared (op : Str) : Reading (existingPrepared policy d op) := by
  refine Only.bind (reading_existing ..) fun body => ?_
  cases body with
  | none => exact Only.pure
  | some body => exact Only.bind Only.lift fun _ => Only.pure

theorem reading_readBack (key : ControlKey) (body : Bytes) (bound : Nat) :
    Reading (readBack policy d key body bound) :=
  Only.bind (Only.handle (reading_readControl ..) fun _ => Only.throw) fun _ => Only.lift

theorem reading_acceptExisting (key : ControlKey) (body : Bytes) (bound : Nat) (e : Exn) :
    Reading (acceptExisting policy d key body bound e) := by
  unfold acceptExisting
  split
  · exact Only.throw
  · split
    · exact Only.throw
    · exact Only.bind (Only.handle (reading_readControl ..) fun _ => Only.throw) fun _ => Only.lift

theorem appending_createIdentical {op : Str} {key : ControlKey} (h : key.op = some op) (body : Bytes)
    (bound : Nat) : Appending op (createIdentical policy d key body bound) := by
  refine Only.bind (Only.attempt (appending_createControl policy d h body)) fun r => ?_
  cases r with
  | ok x => exact (reading_readBack ..).appending
  | error e =>
      exact Only.bind (reading_acceptExisting ..).appending fun _ => (reading_readBack ..).appending

theorem appending_ensureAudit (op : Str) (prepared : Prepared) (s : OperationStatus) :
    Appending op (ensureAudit policy d op prepared s) := by
  refine Only.bind Only.lift fun body => Only.bind (reading_existing ..).appending fun found => ?_
  cases found with
  | some existing => exact Only.lift
  | none => exact appending_createIdentical policy d rfl _ _

theorem reading_readManifestShards (op : Str) (index : Nat) (digests : List Str) :
    Reading (readManifestShards policy d op index digests) := by
  induction digests generalizing index with
  | nil => exact Only.pure
  | cons digest digests ih =>
      exact Only.bind (reading_readOr ..) fun _ => Only.bind Only.lift fun _ =>
        Only.bind (ih _) fun _ => Only.pure

theorem reading_readBoundManifest (op : Str) (prepared : Prepared) :
    Reading (readBoundManifest policy d op prepared) :=
  Only.bind (Only.bind (reading_readManifestShards ..) fun _ => Only.bind Only.lift fun _ => Only.pure)
    fun _ => Only.bind Only.lift fun _ => Only.bind Only.lift fun _ => Only.pure

theorem reading_readResultShards (op : Str) (digests : List Str) (observed : Classification) :
    Reading (readResultShards policy d op digests observed) := by
  induction digests generalizing observed with
  | nil => exact Only.pure
  | cons digest digests ih =>
      exact Only.bind (reading_readOr ..) fun _ => Only.bind Only.lift fun _ => ih _

theorem reading_readResultClassification (op : Str) (a : Attempt) (records : List ObjectRecord) :
    Reading (readResultClassification policy d op a records) :=
  Only.bind (reading_readResultShards ..) fun _ => Only.bind Only.lift fun _ => Only.pure

theorem reading_readAttempt (op : Str) (prepared : Prepared) (records : List ObjectRecord)
    (key : Nat × Str) : Reading (readAttempt policy d op prepared records key) :=
  Only.bind (reading_readOr ..) fun _ => Only.bind Only.lift fun _ =>
    Only.bind (reading_readResultClassification ..) fun _ => Only.bind Only.lift fun _ => Only.pure

theorem reading_readAttempts (op : Str) (prepared : Prepared) (records : List ObjectRecord)
    (keys : List (Nat × Str)) : Reading (readAttempts policy d op prepared records keys) := by
  induction keys with
  | nil => exact Only.pure
  | cons key keys ih =>
      exact Only.bind (reading_readAttempt ..) fun _ => Only.bind ih fun _ => Only.pure

theorem reading_attemptKeys (op : Str) : Reading (attemptKeys d op) :=
  Only.handle (reading_listControls ..) fun _ => Only.throw

theorem reading_readLog (op : Str) (prepared : Prepared) (records : List ObjectRecord) :
    Reading (readLog policy d op prepared records) :=
  Only.bind (reading_attemptKeys ..) fun _ => Only.bind (reading_readAttempts ..) fun _ => Only.lift

theorem reading_latestStatus (op : Str) (prepared : Prepared) (records : List ObjectRecord) :
    Reading (latestStatus policy d op prepared records) :=
  Only.bind (reading_readLog ..) fun _ => Only.pure

theorem appending_ensureAudits (op : Str) (prepared : Prepared) (log : List ReadAttempt) :
    Appending op (ensureAudits policy d op prepared log) := by
  induction log with
  | nil => exact Only.pure
  | cons r rs ih => exact Only.bind (appending_ensureAudit ..) fun _ => ih

theorem appending_requiredStatus (op : Str) (prepared : Prepared) (records : List ObjectRecord)
    (repair : Bool) : Appending op (requiredStatus policy d op prepared records repair) := by
  refine Only.bind (reading_readLog ..).appending fun log => ?_
  split
  · exact Only.throw
  · exact Only.bind (appending_ensureAudits ..) fun _ => Only.pure

theorem reading_requiredStatus (op : Str) (prepared : Prepared) (records : List ObjectRecord) :
    Reading (requiredStatus policy d op prepared records false) := by
  refine Only.bind (reading_readLog ..) fun log => ?_
  split
  · exact Only.throw
  · exact Only.bind Only.pure fun _ => Only.pure

theorem reading_status (op : Str) : Reading (status policy d op) :=
  Only.bind Only.lift fun _ => Only.bind (reading_readOr ..) fun _ => Only.bind Only.lift fun _ =>
    Only.bind (reading_readBoundManifest ..) fun _ => reading_requiredStatus ..

theorem appending_writeResultShards (op : Str) (started maxSeconds : Rat)
    (chunks : List Classification) :
    Appending op (writeResultShards policy d op started maxSeconds chunks) := by
  induction chunks with
  | nil => exact Only.pure
  | cons chunk chunks ih =>
      exact Only.bind Only.lift fun _ => Only.bind (appending_createIdentical policy d rfl _ _) fun _ =>
        Only.bind (reading_checkDeadline ..).appending fun _ => Only.bind ih fun _ => Only.pure

theorem appending_recordStatus (t : AttemptDraft) (started maxSeconds : Rat) :
    Appending t.operationId (recordStatus policy d t started maxSeconds) := by
  have htime : ∀ o, Reading (attemptTime o) := by
    intro o
    cases o with
    | none => exact reading_operationNow
    | some t => exact Only.pure
  exact Only.bind Only.lift fun _ => Only.bind (appending_writeResultShards ..) fun _ =>
    Only.bind (reading_attemptKeys ..).appending fun _ => Only.bind Only.lift fun _ =>
    Only.bind (htime _).appending fun _ => Only.bind Only.lift fun _ =>
    Only.bind (appending_createIdentical policy d rfl _ _) fun _ =>
    Only.bind (reading_checkDeadline ..).appending fun _ => Only.pure

theorem appending_recordAudited (prepared : Prepared) (t : AttemptDraft) (started maxSeconds : Rat) :
    Appending t.operationId (recordAudited policy d prepared t started maxSeconds) :=
  Only.bind (appending_recordStatus ..) fun _ => Only.bind (appending_ensureAudit ..) fun _ => Only.pure

theorem appending_recordPrepared (prepared : Prepared) (records : List ObjectRecord) (started : Rat) :
    Appending prepared.operationId (recordPrepared policy d prepared records started) :=
  appending_recordAudited policy d prepared (prepared.draft records .prepared none none []) _ _

theorem reading_proveIfCompleted (keyPrefix : Str) (s : OperationStatus) (started : Rat) :
    Reading (proveIfCompleted policy d keyPrefix s started) := by
  unfold proveIfCompleted
  split
  · exact Only.bind (reading_inventory ..) fun _ => Only.bind (reading_checkDeadline ..) fun _ =>
      Only.lift
  · exact Only.pure

theorem appending_latestOrReconstruct (prepared : Prepared) (records : List ObjectRecord)
    (started : Rat) :
    Appending prepared.operationId (latestOrReconstruct policy d prepared records started) := by
  refine Only.bind (reading_latestStatus ..).appending fun prior => ?_
  cases prior with
  | some prior => exact Only.pure
  | none =>
      exact Only.bind Only.lift fun x => appending_recordAudited policy d prepared
        (prepared.draft records .prepared (some x.1) none []) _ _

theorem appending_applyEarly (prepared : Prepared) (started : Rat) (now : Instant) :
    Appending prepared.operationId (applyEarly policy d prepared started now) := by
  refine Only.bind (reading_readBoundManifest ..).appending fun records =>
    Only.bind (appending_latestOrReconstruct ..) fun prior =>
    Only.bind (reading_proveIfCompleted ..).appending fun _ =>
    Only.bind (appending_requiredStatus ..) fun repaired => ?_
  split
  · exact Only.pure
  · exact appending_recordAudited policy d prepared (prepared.draft records .notReady (some now)
      (some "quiescence_not_ready") []) _ _

theorem appending_createManifest (op : Str) (shards : List ManifestShard) :
    Appending op (createManifest policy d op shards) := by
  induction shards with
  | nil => exact Only.pure
  | cons shard shards ih => exact Only.bind (appending_createIdentical policy d rfl _ _) fun _ => ih

theorem appending_prepareAgain (prepared : Prepared) (records : List ObjectRecord) (started : Rat) :
    Appending prepared.operationId (prepareAgain policy d prepared records started) := by
  refine Only.bind (reading_latestStatus ..).appending fun prior => ?_
  cases prior with
  | some prior =>
      exact Only.bind (reading_proveIfCompleted ..).appending fun _ => appending_requiredStatus ..
  | none => exact appending_recordPrepared ..

theorem appending_prepareNew (identity : PreparedIdentity) (records : List ObjectRecord)
    (started : Rat) :
    Appending identity.operationId (prepareNew policy d identity records started) :=
  Only.bind reading_operationNow.appending fun now => Only.bind Only.lift fun _ =>
    Only.bind (appending_createIdentical policy d rfl _ _) fun _ =>
    appending_recordPrepared policy d { identity with preparedAt := formatUtc now } records started

theorem appending_recordRefused (r : ApplyRun) (category : String) (deleted : List ObjectRecord) :
    Appending r.prepared.operationId (recordRefused policy d r category deleted) :=
  Only.bind (appending_recordAudited policy d r.prepared
    (r.prepared.draft r.records .refused (some r.now) (some category) deleted) _ _) fun _ => Only.pure

theorem reading_currentPlan (keyPrefix : Str) : Reading (currentPlan policy d keyPrefix) :=
  Only.bind reading_operationNow fun _ => Only.bind Only.lift fun _ => Only.bind (Only.perform rfl)
    fun _ => Only.bind Only.lift fun _ => reading_plan ..

theorem appending_revalidateRemaining (r : ApplyRun) :
    Appending r.prepared.operationId (revalidateRemaining policy d r) := by
  refine Only.bind (Reading.appending (Only.attempt (reading_currentPlan ..))) fun outcome => ?_
  cases outcome with
  | ok current =>
      refine Only.bind (reading_checkDeadline ..).appending fun _ => Only.bind Only.lift fun same => ?_
      split
      · exact Only.pure
      · exact Only.bind (appending_recordRefused ..) fun _ => Only.throw
  | error e =>
      dsimp only
      unfold revalidationFailed
      split
      · exact Only.throw
      · exact Only.throw
      · exact Only.throw
      · exact Only.bind (appending_recordRefused ..) fun _ => Only.throw

theorem appending_confirmEmpty (r : ApplyRun) :
    Appending r.prepared.operationId (confirmEmpty policy d r) := by
  have hempty : Reading (inventoryEmpty policy d r.prepared.keyPrefix) :=
    Only.bind (reading_inventory ..) fun _ => Only.lift
  refine Only.bind (Reading.appending (Only.attempt hempty)) fun outcome => ?_
  split
  · exact Only.pure
  · exact Only.bind (appending_recordRefused ..) fun _ => Only.throw
  · exact Only.throw
  · exact Only.throw

/-! ### Deleting -/

theorem applying_headAll (op : Str) (started : Rat) (records : List ObjectRecord) (p : Progress) :
    Only (Call.applies op) (headAll policy d started records p) := by
  induction records generalizing p with
  | nil => exact Only.pure
  | cons r rs ih =>
      exact Only.bind (Only.mapError (reading_headRecord ..).appending.applying) fun _ =>
        Only.bind (Only.mapError (reading_checkDeadline ..).appending.applying) fun _ => ih _

theorem applying_deleteBatch (op : Str) (started : Rat) (batch : List ObjectRecord) (p : Progress) :
    Only (Call.applies op) (deleteBatch policy d started batch p) :=
  Only.bind (Only.mapError (reading_checkDeadline ..).appending.applying) fun _ =>
    Only.bind (applying_headAll ..) fun _ =>
    Only.bind (Only.mapError (applying_deleteRecords ..)) fun _ =>
    Only.bind (Only.mapError (reading_checkDeadline ..).appending.applying) fun _ => Only.pure

theorem applying_deleteBatches (op : Str) (started : Rat) (batches : List (List ObjectRecord))
    (p : Progress) : Only (Call.applies op) (deleteBatches policy d started batches p) := by
  induction batches generalizing p with
  | nil => exact Only.pure
  | cons batch batches ih => exact Only.bind (applying_deleteBatch ..) fun _ => ih _

theorem applying_deletion (r : ApplyRun) (op : Str) : Only (Call.applies op) (deletion policy d r) :=
  Only.bind (applying_deleteBatches ..) fun _ =>
    Only.bind (Only.mapError (reading_inventory ..).appending.applying) fun _ =>
    Only.bind (Only.mapError Only.lift) fun _ =>
    Only.bind (Only.mapError (reading_checkDeadline ..).appending.applying) fun _ =>
    Only.bind (Only.mapError Only.lift) fun _ => Only.pure

theorem appending_persistFailure (r : ApplyRun) (p : Progress) (code : String) :
    Appending r.prepared.operationId (persistFailure policy r p code) :=
  Only.bind reading_startDeadline.appending fun _ =>
    Only.bind (reading_checkDeadline ..).appending fun _ =>
    Only.bind (appending_recordAudited policy _ r.prepared
      (r.outcome p (if p.deleted.isEmpty then .refused else .partly) (some code) (failedRecords p code))
      _ _) fun _ => (reading_checkDeadline ..).appending

theorem appending_abandon (r : ApplyRun) (p : Progress) (e : Exn) :
    Appending r.prepared.operationId (abandon policy r p e) := by
  unfold abandon
  split
  · exact Only.throw
  · refine Only.bind Only.lift fun p => Only.bind (Only.attempt (appending_persistFailure ..)) fun o => ?_
    split
    · exact Only.throw
    · exact Only.throw

theorem appending_complete (r : ApplyRun) (p : Progress) :
    Appending r.prepared.operationId (complete policy d r p) :=
  Only.handle (Only.bind (appending_recordAudited policy d r.prepared (r.outcome p .completed none []) _ _)
    fun _ => Only.bind (reading_checkDeadline ..).appending fun _ => Only.pure) fun _ => Only.throw

theorem applying_deleteRemaining (r : ApplyRun) :
    Applying r.prepared.operationId (deleteRemaining policy d r) := by
  unfold deleteRemaining
  split
  case' isTrue => refine Only.bind (appending_confirmEmpty ..).applying fun _ => ?_
  case' isFalse => refine Only.bind (appending_revalidateRemaining ..).applying fun _ => ?_
  all_goals
    refine Only.bind (Only.attempt (applying_deletion ..)) fun outcome => ?_
    rcases outcome with ⟨e, p⟩ | p
    · exact (appending_abandon ..).applying
    · exact (appending_complete ..).applying

theorem appending_settlePrior (prepared : Prepared) (records : List ObjectRecord) (started : Rat)
    (now : Instant) (prior : OperationStatus) :
    Appending prepared.operationId (settlePrior policy d prepared records started now prior) := by
  refine Only.bind Only.lift fun _ => ?_
  split
  · have hprove : Reading (proveCompletedAbsence policy d prepared.keyPrefix prior started) :=
      Only.bind (reading_inventory ..) fun _ => Only.bind (reading_checkDeadline ..) fun _ => Only.lift
    exact Only.bind hprove.appending fun _ => Only.bind (appending_requiredStatus ..) fun _ => Only.pure
  · split
    · exact Only.pure
    · exact Only.bind (appending_requiredStatus ..) fun _ =>
        Only.bind (reading_readResultClassification ..).appending fun _ => Only.pure

theorem applying_applyLocked (prepared : Prepared) (started : Rat) (now : Instant) :
    Applying prepared.operationId (applyLocked policy d prepared started now) := by
  refine Only.bind (reading_checkDeadline ..).appending.applying fun _ =>
    Only.bind (reading_readBoundManifest ..).appending.applying fun records =>
    Only.bind (reading_checkDeadline ..).appending.applying fun _ =>
    Only.bind (appending_latestOrReconstruct ..).applying fun prior =>
    Only.bind (Only.handle (appending_settlePrior ..).applying fun _ => Only.throw) fun answer => ?_
  cases answer with
  | inl s => exact Only.pure
  | inr priorDeleted => exact applying_deleteRemaining policy d ⟨prepared, records, started, now, priorDeleted⟩

/-! ### Requests -/

theorem keeps_withLock {α : Type} (c : Str) {body : M α} (h : Only Call.keeps body) :
    Only Call.keeps (withLock c body) :=
  Only.bind Only.lift fun _ => Only.bind (Only.perform (.inr (.inl ⟨c, rfl⟩))) fun _ =>
    Only.bind (Only.attempt h) fun _ => Only.bind (Only.perform (.inr (.inr ⟨c, rfl⟩))) fun _ => Only.lift

theorem keeps_applyRequest (request : ApplyRequest) (started : Rat) :
    Only Call.keeps (applyRequest policy d request started) := by
  have hconfirmed : Reading (confirmedPrepared policy d request) :=
    Only.bind Only.lift fun _ => Only.bind (reading_readOr ..) fun _ => Only.bind Only.lift fun _ =>
      Only.bind Only.lift fun _ => Only.pure
  have hk {α : Type} {x : M α} (h : Reading x) : Only Call.keeps x :=
    (show Appending [] x from h.appending).applying.keeps
  refine Only.bind (hk hconfirmed) fun prepared => Only.bind (hk reading_operationNow) fun now =>
    Only.bind Only.lift fun _ => Only.bind Only.lift fun _ => ?_
  split
  · exact (appending_applyEarly ..).applying.keeps
  · exact Only.bind Only.lift fun _ => keeps_withLock _ (applying_applyLocked ..).keeps

theorem keeps_prepare (request : PrepareRequest) :
    Only Call.keeps (prepare policy d request) := by
  have hk (op : Str) {α : Type} {x : M α} (h : Appending op x) : Only Call.keeps x :=
    h.applying.keeps
  refine Only.bind (hk [] reading_startDeadline.appending) fun _ => Only.bind Only.lift fun _ =>
    Only.bind (hk _ (appending_createManifest ..)) fun _ => Only.bind Only.lift fun identity =>
    Only.bind (hk [] (reading_existingPrepared ..).appending) fun found => ?_
  cases found with
  | some prepared => exact Only.bind Only.lift fun _ => hk _ (appending_prepareAgain ..)
  | none => exact hk _ (appending_prepareNew ..)

end

end Checkpoints
