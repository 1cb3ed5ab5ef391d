/-
Records and their canonical JSON.

Everything the service stores is one JSON value in one canonical form: keys sorted, no
spaces, ASCII only, and within bounds on its bytes, its nodes and its depth.
`canonicalJsonBytes` writes that form; the readers load what they find and accept it only
when writing it again gives the same bytes.

An object of the bucket is an `ObjectRecord`, which cannot be built with an unsafe key, a
malformed ETag or an empty size.  An inventory is a list of them in the order of their
keys; it is cut into manifest shards by size, and a plan carries the shards and a summary.
-/
import DataEngLab.Lib.Utc
import DataEngLab.Lib.JsonDumps
import DataEngLab.Lib.Digest
import DataEngLab.Lib.Checks

namespace Checkpoints

open Lib

/-- Everything the service's own code raises, and the runtime's errors it lets through. -/
inductive Exn where
  | record (code : String)
  | policy (code : String)
  | plan (code : String)
  | lease (code : String)
  | gateway (code : String) (deletedKeys : List Str)
  | operation (code : String) (isPartial : Bool)
  | keyError
  | typeError
  | valueError
  | attributeError
  | overflowError
  | assertionError
  /-- whatever a function handed in by the caller raised -/
  | foreign
  /-- `KeyboardInterrupt` or `SystemExit` -/
  | interrupt
deriving DecidableEq

/-! ### Canonical JSON -/

def maxJsonBytes : Nat := 65536
def maxJsonDepth : Nat := 16
def maxJsonNodes : Nat := 4096

/-- A JSON object from its fields. -/
def object (fields : List (String × Json)) : Json := .obj (fields.map fun f => (lit f.1, f.2))

def textJson (s : String) : Json := .str (lit s)

/-- `value == n`, which a Boolean can satisfy too. -/
def Json.isInt (n : Int) : Json → Bool
  | .int m => m == n
  | .bool b => (if b then 1 else 0) == n
  | _ => false

def Json.str? : Json → Option Str
  | .str s => some s
  | _ => none

/-- The limits of a walk over a value, and what it raises at a float. -/
structure WalkLimits where
  maxNodes : Nat
  maxDepth : Nat
  floatCode : String

mutual
/-- The number of nodes met so far, after the value.  `_normalize_json` and
`_check_decoded_bounds` both walk like this. -/
def walk (l : WalkLimits) : Nat → Json → Nat → Except Exn Nat
  | depth, v, nodes =>
      if l.maxNodes < nodes + 1 ∨ l.maxDepth < depth then .error (.record "json_structure_bound")
      else
        match v with
        | .float _ => .error (.record l.floatCode)
        | .arr xs => walkElems l (depth + 1) xs (nodes + 1)
        | .obj kvs => walkMembers l (depth + 1) kvs (nodes + 1)
        | _ => .ok (nodes + 1)

def walkElems (l : WalkLimits) : Nat → List Json → Nat → Except Exn Nat
  | _, [], nodes => .ok nodes
  | depth, x :: xs, nodes =>
      match walk l depth x nodes with
      | .error e => .error e
      | .ok n => walkElems l depth xs n

def walkMembers (l : WalkLimits) : Nat → List (Str × Json) → Nat → Except Exn Nat
  | _, [], nodes => .ok nodes
  | depth, (_, v) :: kvs, nodes =>
      match walk l depth v nodes with
      | .error e => .error e
      | .ok n => walkMembers l depth kvs n
end

/-- `_normalize_json`, which gives the value back. -/
def normalizeJson (maxNodes : Nat) (v : Json) : Except Exn Unit :=
  (fun _ => ()) <$> walk ⟨maxNodes, maxJsonDepth, "json_number_invalid"⟩ 0 v 0

def checkDecodedBounds (maxDepth maxNodes : Nat) (v : Json) : Except Exn Unit :=
  (fun _ => ()) <$> walk ⟨maxNodes, maxDepth, "json_value_invalid"⟩ 0 v 0

def canonicalJsonBytes (v : Json) (maxBytes : Nat) (maxNodes : Nat) : Except Exn Bytes := do
  require (2 ≤ maxBytes && 1 ≤ maxNodes) (.record "json_bound_invalid")
  normalizeJson maxNodes v
  let text ← orElse (dumps v) (.record "json_value_invalid")
  require (text.length ≤ maxBytes) (.record "json_body_too_large")
  return asciiBytes text

/-- `canonical_json_bytes` with its default bounds. -/
def canonicalJson (v : Json) : Except Exn Bytes := canonicalJsonBytes v maxJsonBytes maxJsonNodes

/-! ### Exact objects -/

inductive JsonType where
  | str
  | int
  | bool
  | dict
  | none
deriving DecidableEq

/-- `type(value) is t` -/
def JsonType.admits : JsonType → Json → Bool
  | .str, .str _ => true
  | .int, .int _ => true
  | .bool, .bool _ => true
  | .dict, .obj _ => true
  | .none, .null => true
  | _, _ => false

abbrev Schema := List (String × List JsonType)

/-- The errors of the reader as `decode_exact_json` passes them on.  An integer too long to read
is the one that is not turned into a code. -/
def exactValue (r : Except LoadsError Json) : Except Exn Json :=
  match r with
  | .ok v => .ok v
  | .error .duplicateKey => .error (.record "json_duplicate_key")
  | .error .constant => .error (.record "json_number_invalid")
  | .error .value => .error .valueError
  | .error _ => .error (.record "json_invalid")

/-- The shape and the field types of a decoded object. -/
def exactFields (schema : Schema) (decoded : Json) : Except Exn (List (Str × Json)) :=
  match decoded with
  | .obj kvs => do
      require (Json.hasExactly (schema.map Prod.fst) kvs) (.record "json_unknown_or_missing_field")
      require (schema.all fun f => (Json.get f.1 kvs).any fun v => f.2.any fun t => t.admits v)
        (.record "json_field_type_invalid")
      return kvs
  | _ => .error (.record "json_shape_invalid")

def decodeExactJson (body : Bytes) (schema : Schema) (maxBytes : Nat) :
    Except Exn (List (Str × Json)) := do
  require (body.length ≤ maxBytes) (.record "json_body_too_large")
  let decoded ← exactValue (loadsUtf8 ⟨true, true⟩ body)
  checkDecodedBounds maxJsonDepth maxJsonNodes decoded
  exactFields schema decoded

/-- The text of a field that a schema has found to be a string. -/
def textOf (key : String) (kvs : List (Str × Json)) : Str := ((Json.get key kvs).bind Json.str?).getD []

/-- `_parse_utc` of any value. -/
def parseUtcValue (v : Option Json) : Option Instant := (v.bind Json.str?).bind parseUtc

/-! ### Object records -/

/-- The `(?:-[1-9][0-9]{0,9})?` at the end of a multipart ETag. -/
def isPartSuffix : Str → Bool
  | [] => true
  | 45 :: c :: rest => isDigit c && c != 48 && rest.length ≤ 9 && rest.all isDigit
  | _ => false

/-- `_ETAG` -/
def isEtag (s : Str) : Bool :=
  (Pattern.times 32 isHex).fullmatch (s.take 32) && isPartSuffix (s.drop 32)

def safeKey (key : Str) : Bool :=
  !key.isEmpty && key.head? != some 47 && key.getLast? != some 47 &&
    (match utf8Encode key with
      | none => false
      | some encoded => encoded.length ≤ 1024) &&
    ((key.splitOn 47).all fun part => part ∉ [[], lit ".", lit ".."]) &&
    key.all fun c => c != 92 && 32 ≤ c && c != 127

/-- One object of the bucket. -/
structure ObjectRecord where
  key : Str
  etag : Str
  sizeBytes : Nat
  lastModified : Instant
  key_safe : safeKey key = true
  etag_valid : isEtag etag = true
  size_pos : 0 < sizeBytes

instance : DecidableEq ObjectRecord := fun a b =>
  decidable_of_iff (a.key = b.key ∧ a.etag = b.etag ∧ a.sizeBytes = b.sizeBytes ∧
    a.lastModified = b.lastModified) (by cases a; cases b; simp)

/-- `ObjectRecord(key, etag, size_bytes, last_modified)`; a timestamp that did not parse is
`none`. -/
def ObjectRecord.create (key etag sizeBytes : Json) (lastModified : Option Instant) :
    Except Exn ObjectRecord :=
  match key with
  | .str k =>
      if hk : safeKey k = true then
        match etag with
        | .str t =>
            if ht : isEtag t = true then
              match sizeBytes with
              | .int n =>
                  if hn : 0 < n.toNat then
                    match lastModified with
                    | some at' => .ok ⟨k, t, n.toNat, at', hk, ht, hn⟩
                    | none => .error (.record "object_timestamp_invalid")
                  else .error (.record "object_size_invalid")
              | _ => .error (.record "object_size_invalid")
            else .error (.record "object_etag_invalid")
        | _ => .error (.record "object_etag_invalid")
      else .error (.record "object_key_invalid")
  | _ => .error (.record "object_key_invalid")

def ObjectRecord.asJson (r : ObjectRecord) : Json :=
  object [("etag", .str r.etag), ("key", .str r.key),
    ("last_modified", .str (formatUtc r.lastModified)), ("size_bytes", .int r.sizeBytes)]

/-- `record.key.encode("utf-8")` -/
def ObjectRecord.keyBytes (r : ObjectRecord) : List Nat :=
  ((utf8Encode r.key).getD []).map UInt8.toNat

def adjacentDuplicate : List ObjectRecord → Bool
  | a :: b :: rest => a.key == b.key || adjacentDuplicate (b :: rest)
  | _ => false

def canonicalRecords (records : List ObjectRecord) : Except Exn (List ObjectRecord) := do
  let ordered := records.insertionSort fun a b => a.keyBytes ≤ b.keyBytes
  require (!adjacentDuplicate ordered) (.record "duplicate_object")
  return ordered

/-- The bytes of a list of encoded values, as they are fed to a digest one after the other. -/
def joinBodies (bodies : List Bytes) : Bytes :=
  asciiBytes (lit "[") ++ (bodies.intersperse (asciiBytes (lit ","))).flatten ++ asciiBytes (lit "]")

def inventorySha256 (records : List ObjectRecord) : Except Exn Str := do
  let ordered ← canonicalRecords records
  let bodies ← checkAll (fun r => canonicalJson r.asJson) ordered
  return sha256 (joinBodies bodies)

/-! ### Manifests and plans -/

structure ManifestShard where
  index : Nat
  records : List ObjectRecord
  body : Bytes
  sha256 : Str

/-- The greedy grouping of encoded values into arrays of at most `maxBytes`: `current` is the
group being filled, newest first, and `size` the bytes it would take.  `shard_inventory` and
`_write_result_shards` both group like this, each with its own error. -/
def groupBySize {α : Type} (tooLarge : Exn) (maxBytes : Nat) : List (α × Bytes) → List α → Nat →
    Except Exn (List (List α))
  | [], current, _ => .ok (if current.isEmpty then [] else [current.reverse])
  | (r, body) :: rest, current, size =>
      if maxBytes < body.length + 2 then .error tooLarge
      else
        let added := body.length + if current.isEmpty then 0 else 1
        if !current.isEmpty ∧ maxBytes < size + added then do
          let groups ← groupBySize tooLarge maxBytes rest [r] (2 + body.length)
          return current.reverse :: groups
        else groupBySize tooLarge maxBytes rest (r :: current) (size + added)

def shardOf (maxBytes index : Nat) (group : List ObjectRecord) : Except Exn ManifestShard := do
  let body ← canonicalJsonBytes (.arr (group.map ObjectRecord.asJson)) maxBytes
    (max 4096 (group.length * 6 + 1))
  return ⟨index, group, body, sha256 body⟩

def shardsOf (maxBytes : Nat) : Nat → List (List ObjectRecord) → Except Exn (List ManifestShard)
  | _, [] => .ok []
  | index, group :: groups => do
      let shard ← shardOf maxBytes index group
      let shards ← shardsOf maxBytes (index + 1) groups
      return shard :: shards

def shardInventory (records : List ObjectRecord) (maxBytes : Nat) : Except Exn (List ManifestShard) := do
  require (2 ≤ maxBytes) (.record "shard_bound_invalid")
  let ordered ← canonicalRecords records
  let encoded ← checkAll (fun r => canonicalJson r.asJson) ordered
  let groups ← groupBySize (.record "record_exceeds_shard_bound") maxBytes (ordered.zip encoded) [] 2
  shardsOf maxBytes 0 groups

/-- A plan: its summary, its shards, and the body that is confirmed by digest. -/
structure PlanArtifact where
  summary : List (Str × Json)
  shards : List ManifestShard
  body : Bytes
  sha256 : Str
  digest : sha256 = Lib.sha256 body

theorem digest_self (body : Bytes) : sha256 body = sha256 body := rfl

/-- `artifact.summary.get(key)` -/
def PlanArtifact.get (a : PlanArtifact) (key : String) : Option Json := Json.get key a.summary

/-- The records of all shards, in order. -/
def PlanArtifact.records (a : PlanArtifact) : List ObjectRecord := a.shards.flatMap (·.records)

def recordFields : List String := ["etag", "key", "last_modified", "size_bytes"]

def decodePlanRecord (raw : Json) : Except Exn ObjectRecord :=
  match raw with
  | .obj kvs => do
      require (Json.hasExactly recordFields kvs) (.record "object_record_invalid")
      let timestamp ← orElse (parseUtcValue (Json.get "last_modified" kvs))
        (.record "object_timestamp_invalid")
      ObjectRecord.create ((Json.get "key" kvs).getD .null) ((Json.get "etag" kvs).getD .null)
        ((Json.get "size_bytes" kvs).getD .null) (some timestamp)
  | _ => .error (.record "object_record_invalid")

def decodePlanShard (maxShardBytes maxNodes index : Nat) (raw : Json) : Except Exn ManifestShard :=
  match raw with
  | .arr (x :: xs) => do
      let records ← checkAll decodePlanRecord (x :: xs)
      let ordered ← canonicalRecords records
      require (records == ordered) (.record "plan_shard_order_invalid")
      let body ← canonicalJsonBytes raw maxShardBytes maxNodes
      return ⟨index, ordered, body, sha256 body⟩
  | _ => .error (.record "plan_shards_invalid")

def decodePlanShards (maxShardBytes maxNodes : Nat) : Nat → List Json →
    Except Exn (List ManifestShard)
  | _, [] => .ok []
  | index, raw :: raws => do
      let shard ← decodePlanShard maxShardBytes maxNodes index raw
      let shards ← decodePlanShards maxShardBytes maxNodes (index + 1) raws
      return shard :: shards

/-- The three parts of a plan body, found to have the right shape. -/
def planParts (v : Json) : Except Exn (List (Str × Json) × List Json) :=
  match v with
  | .obj kvs =>
      match Json.get "summary" kvs, Json.get "shards" kvs with
      | some (.obj summary), some (.arr (x :: xs)) => do
          require (Json.hasExactly ["schema_version", "shards", "summary"] kvs &&
            (Json.get "schema_version" kvs).any (Json.isInt 1)) (.record "plan_shape_invalid")
          return (summary, x :: xs)
      | _, _ => .error (.record "plan_shape_invalid")
  | _ => .error (.record "plan_shape_invalid")

def planValue (r : Except LoadsError Json) : Except Exn Json :=
  match r with
  | .ok v => .ok v
  | .error .duplicateKey => .error (.record "json_duplicate_key")
  | .error _ => .error (.record "plan_body_invalid")

/-- The summary names the shards by their digests, in order. -/
def namesShards (shards : List ManifestShard) (v : Option Json) : Bool :=
  match v with
  | some (.arr xs) => xs.map Json.str? == shards.map fun s => some s.sha256
  | _ => false

def decodePlanArtifact (body : Bytes) (maxBodyBytes maxShardBytes maxNodes : Nat) :
    Except Exn PlanArtifact := do
  require (body.length ≤ maxBodyBytes) (.record "plan_body_invalid")
  let value ← planValue (loadsUtf8 ⟨true, false⟩ body)
  let parts ← planParts value
  checkDecodedBounds maxJsonDepth maxNodes value
  let canonical ← canonicalJsonBytes value maxBodyBytes maxNodes
  require (canonical == body) (.record "plan_canonical_invalid")
  let shards ← decodePlanShards maxShardBytes maxNodes 0 parts.2
  require (namesShards shards (Json.get "manifest_shards" parts.1)) (.record "plan_manifest_mismatch")
  return ⟨parts.1, shards, body, sha256 body, rfl⟩

end Checkpoints
