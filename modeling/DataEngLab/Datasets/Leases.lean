/-
Dataset leases.

One control object per dataset says who publishes it, from when and until when.  A lease is
taken when the object is absent, released or past its end; it is renewed and released by
the owner whose version is stored.  Each of the three reads the object with the server's
date, proposes what to store from that date, and writes under the ETag it read, provided
the proposal has not grown old meanwhile; what is read back afterwards is the lease.

The loops of the source that retry when a proposal has grown old are bounded by fuel here;
a loop that runs out of it makes a call that is never answered.
-/
import DataEngLab.Datasets.S3

namespace Datasets

open Lib

/-- `_PROPOSAL_WINDOW_SECONDS` -/
def proposalWindowSeconds : Rat := 5

/-- `_MAX_LEASE_SECONDS` -/
def maxLeaseSeconds : Nat := 300

/-- `_MAX_RENEW_OBSERVATIONS` -/
def maxRenewObservations : Nat := 5

/-- `_UUID4_HEX_RE` -/
def isUuid4Hex (s : Str) : Bool :=
  (Pattern.times 12 isHex ++ (· == 52) :: (Pattern.times 3 isHex ++ isVariant :: Pattern.times 15 isHex)).fullmatch s

/-- `[0-9a-f]{32}` -/
def isNonce (s : Str) : Bool := (Pattern.times 32 isHex).fullmatch s

inductive LeaseState where
  | active
  | released
deriving DecidableEq

def LeaseState.text : LeaseState → Str
  | .active => lit "active"
  | .released => lit "released"

/-- A lease; its instants are in UTC. -/
structure Lease where
  dataset : Str
  publicationId : Str
  ownerNonce : Str
  state : LeaseState
  createdAt : Moment
  expiresAt : Moment
  etag : Str
  bucket : Str
  key : Str

def Lease.location (l : Lease) : Location := ⟨l.bucket, l.key⟩

def leaseKey (dataset : Str) : Str := lit "_data-eng-locks/leases/" ++ dataset ++ lit ".json"

/-! ### The record -/

/-- `_format_instant`: a fraction of a second is dropped. -/
def formatInstant (m : Moment) : Str := formatUtc m.instant

/-- `_parse_instant`; `none` is the `ValueError`. -/
def parseInstant (value : Option Json) : Option Moment :=
  match value with
  | some (.str s) =>
      match fromIsoFormat (zuluAsOffset s) with
      | some (m, some 0) => some m
      | _ => none
  | _ => none

def validateLeaseIdentity (publicationId ownerNonce : Str) : Except Exn Unit := do
  require (isUuid4Hex publicationId)
    (.valueError "publication identifier must be a uuid4-style 128-bit lowercase hexadecimal value")
  require (isNonce ownerNonce) (.valueError "owner nonce must be a 128-bit lowercase hexadecimal value")

def validateLeaseDuration (leaseSeconds : Int) : Except Exn Unit :=
  require (decide (1 ≤ leaseSeconds ∧ leaseSeconds ≤ maxLeaseSeconds))
    (.valueError "lease duration must be an integer from 1 to 300 seconds")

/-- What `_validate_lease` asks when the server's date is known. -/
def Lease.validateObserved (l : Lease) : Option Instant → Except Exn Unit
  | none => .ok ()
  | some observedAt => do
      require (decide (l.createdAt ≤ observedAt.moment))
        (.valueError "lease creation is after the server observation")
      require (decide (l.state = .released → l.expiresAt ≤ observedAt.moment))
        (.valueError "released lease is not expired at the server observation")

def Lease.validate (l : Lease) (observedAt : Option Instant) : Except Exn Unit := do
  validateLeaseIdentity l.publicationId l.ownerNonce
  require (decide (l.state = .active → l.createdAt < l.expiresAt))
    (.valueError "active lease creation must precede expiry")
  require (decide (l.state = .released → l.createdAt ≤ l.expiresAt))
    (.valueError "released lease creation must not follow expiry")
  require (decide (l.expiresAt.micros ≤ l.createdAt.micros + maxLeaseSeconds * 1000000))
    (.valueError "lease duration exceeds the allowed maximum")
  l.validateObserved observedAt
  require (l.key == leaseKey l.dataset) (.valueError "lease key does not match its dataset")

def Lease.fields (l : Lease) : List (String × Json) :=
  [("created_at", .str (formatInstant l.createdAt)), ("dataset", .str l.dataset),
    ("expires_at", .str (formatInstant l.expiresAt)), ("owner_nonce", .str l.ownerNonce),
    ("publication_id", .str l.publicationId), ("state", .str l.state.text)]

/-- `_lease_body` -/
def Lease.body (l : Lease) : Except Exn Bytes := do
  l.validate none
  orElse (canonicalJson (.obj (members l.fields))) (.valueError "lease is not encodable")

def leaseFieldNames : List String :=
  ["created_at", "dataset", "expires_at", "owner_nonce", "publication_id", "state"]

def leaseStateOf : Option Json → Option LeaseState
  | some (.str s) =>
      if s = lit "active" then some .active else if s = lit "released" then some .released else none
  | _ => none

def textOf : Option Json → Option Str
  | some (.str s) => some s
  | _ => none

def malformedLease : Exn := .ambiguousWrite "stored lease is malformed" none

/-- The document is stored as its canonical bytes. -/
def requireCanonical (kvs : List (Str × Json)) (body : Bytes) : Except Exn Unit :=
  match canonicalJson (.obj kvs) with
  | none => .error malformedLease
  | some canonical =>
      require (canonical == body) (.ambiguousWrite "stored lease is not canonical JSON" none)

/-- The lease of a stored document; its ETag is the snapshot's. -/
def leaseOfDocument (kvs : List (Str × Json)) (snapshot : ControlSnapshot) (dataset bucket key : Str) :
    Except Exn Lease := do
  require (Json.hasExactly leaseFieldNames kvs) malformedLease
  require (textOf (Json.get "dataset" kvs) == some dataset) malformedLease
  let state ← orElse (leaseStateOf (Json.get "state" kvs)) malformedLease
  let createdAt ← orElse (parseInstant (Json.get "created_at" kvs)) malformedLease
  let expiresAt ← orElse (parseInstant (Json.get "expires_at" kvs)) malformedLease
  requireCanonical kvs snapshot.body
  let publicationId ← orElse (textOf (Json.get "publication_id" kvs)) malformedLease
  let ownerNonce ← orElse (textOf (Json.get "owner_nonce" kvs)) malformedLease
  let lease : Lease := ⟨dataset, publicationId, ownerNonce, state, createdAt, expiresAt, snapshot.etag,
    bucket, key⟩
  (lease.validate (some snapshot.serverDate)).mapError fun _ => malformedLease
  return lease

/-- `_lease_from_snapshot` -/
def leaseFromSnapshot (snapshot : ControlSnapshot) (dataset bucket key : Str) : Except Exn Lease :=
  match loadsBytes .plain snapshot.body with
  | .error .recursion => .error .recursionError
  | .ok (.obj kvs) => leaseOfDocument kvs snapshot dataset bucket key
  | _ => .error malformedLease

/-! ### Reading and writing -/

/-- `_read_lease_observation`: the object if there is one, the server's date, and when this was seen. -/
def readLeaseObservation (loc : Location) : S (Option ControlSnapshot × Instant × Rat) := do
  match ← perform (.getObject loc) with
  | .raised f =>
      match f with
      | .clientError status code date => do
          let observedAt ← monotonic
          if isNotFound status code then do
            let serverDate ← responseServerDate date
            return (none, serverDate, observedAt)
          else throw (ambiguousRead (some f))
      | .botoCoreError => throw (ambiguousRead (some f))
      | _ => throw (.raised f)
  | .malformed => do
      let _ ← monotonic
      throw (ambiguousRead none)
  | .ok r => do
      let observedAt ← monotonic
      let snapshot ← controlSnapshot r
      return (some snapshot, snapshot.serverDate, observedAt)

/-- The date of what was read back agrees with what was proposed. -/
def checkReconciled (proposed written : Lease) (serverDate : Moment) : Except Exn Unit := do
  require (decide (written.state = .active →
      proposed.createdAt ≤ serverDate ∧ serverDate < proposed.expiresAt))
    (.ambiguousWrite "reconciled lease is expired or outside its proposal" none)
  require (decide (written.state = .released → proposed.expiresAt ≤ serverDate))
    (.ambiguousWrite "reconciled release precedes its proposed expiry" none)

/-- So does the date of the write's own answer, when there is one. -/
def checkWriteDate (proposed written : Lease) : Option DateHeader → S Unit
  | none => return ()
  | some header => do
      let writeDate ← (responseServerDate header).mapError fun _ =>
        Exn.ambiguousWrite "lease write response Date cannot prove the proposal window" none
      lift (require (decide (written.state = .active →
          proposed.createdAt ≤ writeDate.moment ∧ writeDate.moment < proposed.expiresAt))
        (.ambiguousWrite "lease write Date falls outside its proposal" none))
      lift (require (decide (written.state = .released → proposed.expiresAt ≤ writeDate.moment))
        (.ambiguousWrite "lease release Date precedes its expiry" none))

/-- `_write_lease` -/
def writeLease (proposed : Lease) (observedAt : Rat) (condition : PutCondition) : S Lease := do
  lift (proposed.validate none)
  let body ← lift proposed.body
  let now ← monotonic
  lift (require (decide (now - observedAt ≤ proposalWindowSeconds)) .proposalExpired)
  let (snapshot, response) ← putControlRequest proposed.location body condition
  let written ← lift (leaseFromSnapshot snapshot proposed.dataset proposed.bucket proposed.key)
  lift (checkReconciled proposed written snapshot.serverDate.moment)
  checkWriteDate proposed written response
  return written

/-- `_new_lease` -/
def newLease (dataset publicationId ownerNonce : Str) (serverDate : Instant) (bucket key : Str)
    (leaseSeconds : Int) : Except Exn Lease := do
  validateLeaseDuration leaseSeconds
  validateLeaseIdentity publicationId ownerNonce
  let expiresAt ← orElse (serverDate.add leaseSeconds.toNat) .overflowError
  let lease : Lease := ⟨dataset, publicationId, ownerNonce, .active, serverDate.moment, expiresAt.moment,
    [], bucket, key⟩
  lease.validate none
  return lease

/-! ### Acquiring -/

/-- An object lets a new lease in when it is released or past its end. -/
def admitAcquire (snapshot : Option ControlSnapshot) (serverDate : Instant) (dataset bucket key : Str) :
    Except Exn PutCondition :=
  match snapshot with
  | none => .ok .ifNoneMatch
  | some snapshot => do
      let current ← leaseFromSnapshot snapshot dataset bucket key
      require (decide ¬ (current.state = .active ∧ serverDate.moment < current.expiresAt))
        (.conditionalConflict "dataset lease is already active")
      return .ifMatch snapshot.etag

/-- A loop that has used up its fuel. -/
def outOfFuel {α : Type} : S α := do
  let _ ← perform .hang
  throw (.raised .other)

section
variable (dataset publicationId ownerNonce bucket : Str) (leaseSeconds : Int)

def acquireLoop : Nat → S Lease
  | 0 => outOfFuel
  | fuel + 1 => do
      let (snapshot, serverDate, observedAt) ← readLeaseObservation ⟨bucket, leaseKey dataset⟩
      let condition ← lift (admitAcquire snapshot serverDate dataset bucket (leaseKey dataset))
      let proposed ← lift (newLease dataset publicationId ownerNonce serverDate bucket (leaseKey dataset)
        leaseSeconds)
      let now ← monotonic
      if proposalWindowSeconds < now - observedAt then acquireLoop fuel
      else
        match ← (writeLease proposed observedAt condition).attempt with
        | .ok lease => return lease
        | .error .proposalExpired => acquireLoop fuel
        | .error e => throw e

def acquireLease (fuel : Nat) : S Lease := do
  lift (validateLeaseIdentity publicationId ownerNonce)
  lift (validateLeaseDuration leaseSeconds)
  acquireLoop dataset publicationId ownerNonce bucket leaseSeconds fuel

end

/-! ### Renewing and releasing -/

def sameLeaseOwner (left right : Lease) : Bool :=
  left.dataset == right.dataset && left.publicationId == right.publicationId &&
    left.ownerNonce == right.ownerNonce

/-- The stored object is the version the owner holds, and it has not ended. -/
def requireHeld (lease : Lease) (snapshot : Option ControlSnapshot) (serverDate : Instant) :
    Except Exn (Lease × ControlSnapshot) :=
  match snapshot with
  | none => .error (.conditionalConflict "dataset lease no longer exists")
  | some snapshot => do
      let current ← leaseFromSnapshot snapshot lease.dataset lease.bucket lease.key
      require (snapshot.etag == lease.etag && sameLeaseOwner current lease &&
          decide (current.state = .active) && decide (serverDate.moment < current.expiresAt))
        (.conditionalConflict "dataset lease has been lost")
      return (current, snapshot)

section
variable (lease : Lease)

/-- A renewal has to end later than what it replaces. -/
def checkRenewed (current written : Lease) : Except Exn Unit :=
  require (decide (current.expiresAt < written.expiresAt) && written.etag != lease.etag)
    (.ambiguousWrite "lease renewal did not establish a changed canonical version" none)

def renewLoop (leaseSeconds : Int) : Nat → S Lease
  | 0 => throw (.ambiguousWrite "lease renewal could not establish a changed canonical version" none)
  | observations + 1 => do
      let (observed, serverDate, observedAt) ← readLeaseObservation lease.location
      let (current, snapshot) ← lift (requireHeld lease observed serverDate)
      let proposed ← lift (newLease lease.dataset lease.publicationId lease.ownerNonce serverDate
        lease.bucket lease.key leaseSeconds)
      let proposedBody ← lift proposed.body
      if proposed.expiresAt ≤ current.expiresAt ∨ proposedBody = snapshot.body then
        renewLoop leaseSeconds observations
      else
        let now ← monotonic
        if proposalWindowSeconds < now - observedAt then renewLoop leaseSeconds observations
        else
          match ← (writeLease proposed observedAt (.ifMatch lease.etag)).attempt with
          | .error .proposalExpired => renewLoop leaseSeconds observations
          | .error e => throw e
          | .ok written => do
              lift (checkRenewed lease current written)
              return written

def renewLease (leaseSeconds : Int) : S Lease := do
  lift (lease.validate none)
  lift (validateLeaseDuration leaseSeconds)
  renewLoop lease leaseSeconds maxRenewObservations

def releaseLoop : Nat → S Lease
  | 0 => outOfFuel
  | fuel + 1 => do
      let (observed, serverDate, observedAt) ← readLeaseObservation lease.location
      let (current, _) ← lift (requireHeld lease observed serverDate)
      let proposed : Lease := { current with state := .released, expiresAt := serverDate.moment, etag := [] }
      let now ← monotonic
      if proposalWindowSeconds < now - observedAt then releaseLoop fuel
      else
        match ← (writeLease proposed observedAt (.ifMatch lease.etag)).attempt with
        | .ok released => return released
        | .error .proposalExpired => releaseLoop fuel
        | .error e => throw e

def releaseLease (fuel : Nat) : S Lease := do
  lift (lease.validate none)
  releaseLoop lease fuel

end

end Datasets
