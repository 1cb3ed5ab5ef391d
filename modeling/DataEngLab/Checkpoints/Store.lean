/-
The bucket and the rest of what the service calls on.

The service keeps its own records under `_retention/` in the same bucket as the data, each
under a key built from validated parts.  A `ControlKey` is such a key by its parts, so two
keys are equal when their parts are.

Calls are the requests of the S3 client, the two clocks, the identifier source and the
checkpoint locks.  `Answers` is what may come back.  It is deliberately generous: a call
may raise, a response may be malformed, a write may take effect and still report failure,
and listings and heads of data objects are not constrained at all, since others may change
the data between any two calls.  What is promised is only what the service relies on: each
call is atomic, a well-formed read returns what is stored, a conditional write takes
effect only when its condition holds, and a lock has one owner.
-/
import DataEngLab.Checkpoints.Records
import DataEngLab.Lib.Pool
import Mathlib.Data.Rat.Defs

namespace Checkpoints

open Lib

/-! ### Control keys -/

/-- The keys of the service's own records; `op` is an operation identifier. -/
inductive ControlKey where
  | lease (checkpointId : Str)
  | terminal (checkpointId : Str)
  | prepared (op : Str)
  | manifest (op : Str) (index : Nat) (digest : Str)
  | attempt (op : Str) (sequence : Nat) (digest : Str)
  | resultShard (op : Str) (digest : Str)
  | audit (op : Str) (attemptId : Str)
deriving DecidableEq

/-- `[a-z0-9][a-z0-9_-]{0,127}` -/
def isLeaseName (s : Str) : Bool :=
  let lowerAlnum := fun c => isDigit c || (97 ≤ c && c ≤ 122)
  match s with
  | [] => false
  | c :: rest => lowerAlnum c && rest.length ≤ 127 &&
      rest.all fun d => lowerAlnum d || d == 95 || d == 45

/-- `[0-9a-f-]{36}` -/
def isTombstone (s : Str) : Bool := (Pattern.times 36 fun c => isHex c || c == 45).fullmatch s

/-- `_CONTROL_KEY.fullmatch`, part by part. -/
def ControlKey.valid : ControlKey → Bool
  | .lease c => isLeaseName c
  | .terminal c => isLeaseName c
  | .prepared op => isTombstone op
  | .manifest op _ digest => isTombstone op && isSha256 digest
  | .attempt op sequence digest => isTombstone op && sequence < 1000000 && isSha256 digest
  | .resultShard op digest => isTombstone op && isSha256 digest
  | .audit op attemptId => uuid.fullmatch op && (uuidPattern (· == 53) isVariant).fullmatch attemptId

/-- `"/manifest/" in key or "/results/shards/" in key` -/
def ControlKey.isShard : ControlKey → Bool
  | .manifest .. => true
  | .resultShard .. => true
  | _ => false

/-- `f"{sequence:06d}"` -/
def paddedSequence (n : Nat) : Str := if n < 1000000 then padDigits 6 n else decDigits n

/-- The key as the bucket sees it. -/
def ControlKey.path : ControlKey → Str
  | .lease c => lit "_retention/leases/" ++ c ++ lit ".json"
  | .terminal c => lit "_retention/terminals/" ++ c ++ lit ".json"
  | .prepared op => lit "_retention/tombstones/" ++ op ++ lit "/prepared.json"
  | .manifest op index digest => lit "_retention/tombstones/" ++ op ++ lit "/manifest/" ++
      decDigits index ++ lit "-" ++ digest ++ lit ".json"
  | .attempt op sequence digest => lit "_retention/tombstones/" ++ op ++ lit "/results/attempts/" ++
      paddedSequence sequence ++ lit "-" ++ digest ++ lit ".json"
  | .resultShard op digest => lit "_retention/tombstones/" ++ op ++ lit "/results/shards/" ++ digest ++
      lit ".json"
  | .audit op attemptId => lit "_retention/audits/" ++ op ++ lit "/" ++ attemptId ++ lit ".json"

/-- The sequence number and the digest of an attempt of `op`. -/
def ControlKey.attemptOf (op : Str) : ControlKey → Option (Nat × Str)
  | .attempt op' sequence digest => if op' = op then some (sequence, digest) else none
  | _ => none

theorem ControlKey.attemptOf_eq_some {op : Str} {key : ControlKey} {a : Nat × Str} :
    key.attemptOf op = some a ↔ key = .attempt op a.1 a.2 := by
  obtain ⟨n, d⟩ := a
  cases key with
  | attempt op' n' d' =>
      simp only [attemptOf, Option.ite_none_right_eq_some, Option.some.injEq, Prod.mk.injEq,
        attempt.injEq]
  | _ => simp [attemptOf]

/-- The two records that are replaced rather than written once. -/
def ControlKey.isMutable : ControlKey → Bool
  | .lease _ => true
  | .terminal _ => true
  | _ => false

/-! ### The control records -/

structure Stored where
  body : Bytes
  etag : Str
deriving DecidableEq

/-- The control objects, each key once. -/
structure Store where
  objects : List (ControlKey × Stored)
  nodup : (objects.map Prod.fst).Nodup

namespace Store

def empty : Store := ⟨[], by simp⟩

def get (s : Store) (key : ControlKey) : Option Stored :=
  (s.objects.find? fun o => o.1 = key).map Prod.snd

def putList (key : ControlKey) (v : Stored) : List (ControlKey × Stored) → List (ControlKey × Stored)
  | [] => [(key, v)]
  | o :: os => if o.1 = key then (key, v) :: os else o :: putList key v os

theorem putList_keys (key : ControlKey) (v : Stored) (os : List (ControlKey × Stored)) :
    (putList key v os).map Prod.fst =
      if key ∈ os.map Prod.fst then os.map Prod.fst else os.map Prod.fst ++ [key] := by
  induction os with
  | nil => simp [putList]
  | cons o os ih =>
      simp only [putList]
      by_cases ho : o.1 = key
      · simp [ho]
      · rw [if_neg ho, List.map_cons, ih, List.map_cons]
        have hne : ¬ key = o.1 := fun hc => ho hc.symm
        by_cases hmem : key ∈ os.map Prod.fst
        · simp [hmem]
        · simp [hmem, hne]

def put (s : Store) (key : ControlKey) (v : Stored) : Store where
  objects := putList key v s.objects
  nodup := by
    rw [putList_keys]
    split
    · exact s.nodup
    · rename_i h
      exact List.nodup_append.mpr ⟨s.nodup, by simp, fun a ha b hb hab => h (by
        rw [List.mem_singleton.mp hb] at hab
        exact hab ▸ ha)⟩

theorem get_putList (key key' : ControlKey) (v : Stored) (os : List (ControlKey × Stored)) :
    ((putList key v os).find? fun o => o.1 = key').map Prod.snd =
      if key = key' then some v else (os.find? fun o => o.1 = key').map Prod.snd := by
  induction os with
  | nil => by_cases h : key = key' <;> simp [putList, h]
  | cons o os ih =>
      simp only [putList]
      by_cases ho : o.1 = key
      · rw [if_pos ho]
        by_cases h : key = key'
        · simp [h]
        · have hne : ¬ o.1 = key' := fun hc => h (ho.symm.trans hc)
          simp [h, hne]
      · rw [if_neg ho]
        by_cases h : o.1 = key'
        · have hne : ¬ key = key' := fun hc => ho (h.trans hc.symm)
          simp [h, hne]
        · simp only [List.find?_cons, h, decide_false]
          exact ih

@[simp] theorem get_put (s : Store) (key key' : ControlKey) (v : Stored) :
    (s.put key v).get key' = if key = key' then some v else s.get key' :=
  get_putList key key' v s.objects

@[simp] theorem get_empty (key : ControlKey) : empty.get key = none := rfl

/-- The sequence numbers and digests of the attempts of an operation. -/
def attempts (s : Store) (op : Str) : List (Nat × Str) :=
  (s.objects.map Prod.fst).filterMap (ControlKey.attemptOf op)

theorem mem_keys {s : Store} {key : ControlKey} :
    key ∈ s.objects.map Prod.fst ↔ (s.get key).isSome = true := by
  simp only [get, Option.isSome_map, List.find?_isSome, decide_eq_true_eq, List.mem_map]

theorem mem_attempts {s : Store} {op : Str} {a : Nat × Str} :
    a ∈ s.attempts op ↔ (s.get (.attempt op a.1 a.2)).isSome = true := by
  rw [← mem_keys]
  simp only [attempts, List.mem_filterMap, ControlKey.attemptOf_eq_some, exists_eq_right]

theorem attempts_nodup (s : Store) (op : Str) : (s.attempts op).Nodup := by
  refine s.nodup.filterMap fun a a' b hb hb' => ?_
  rw [ControlKey.attemptOf_eq_some.mp hb, ControlKey.attemptOf_eq_some.mp hb']

/-- Only a new attempt of the operation changes its list. -/
theorem attempts_put_other (s : Store) {key : ControlKey} (v : Stored) {op : Str}
    (h : key.attemptOf op = none) : (s.put key v).attempts op = s.attempts op := by
  simp only [attempts, put, putList_keys]
  split
  · rfl
  · rw [List.filterMap_append]
    simp [h]

theorem attempts_put_new (s : Store) (v : Stored) {op digest : Str} {sequence : Nat}
    (h : s.get (.attempt op sequence digest) = none) :
    (s.put (.attempt op sequence digest) v).attempts op = s.attempts op ++ [(sequence, digest)] := by
  have hnot : ControlKey.attempt op sequence digest ∉ s.objects.map Prod.fst := by
    rw [mem_keys, h]
    simp
  simp only [attempts, put, putList_keys, if_neg hnot, List.filterMap_append]
  simp [ControlKey.attemptOf]

end Store

/-! ### Calls -/

/-- The condition of a write: the object is absent, or it still has this ETag. -/
inductive PutCondition where
  | ifNoneMatch
  | ifMatch (etag : Str)
deriving DecidableEq

inductive Call where
  | now
  | monotonic
  | uuid
  | hold (checkpointId : Str)
  | release (checkpointId : Str)
  | listObjects (keyPrefix : Str) (token : Option Str)
  | headObject (key : Str)
  | deleteObjects (keys : List Str)
  | listAttempts (op : Str) (maxKeys : Nat)
  | getObject (key : ControlKey)
  | putObject (key : ControlKey) (body : Bytes) (condition : PutCondition)
deriving DecidableEq

/-- A value, an exception, or a `KeyboardInterrupt` or `SystemExit`. -/
inductive Reply (α : Type) where
  | ok (a : α)
  | raised
  | interrupt

/-- One entry of `Contents`, with the values under the keys that are read. -/
structure ListItem where
  key : Json
  etag : Json
  size : Json
  lastModified : Option Datetime

/-- A page of a listing.  What is not of its documented type is `none`. -/
structure Page where
  contents : Option (List (Option ListItem))
  isTruncated : Option Bool
  nextToken : Option Str

structure AttemptPage where
  contents : Option (List (Option (Nat × Str)))
  isTruncated : Option Bool

structure HeadResponse where
  etag : Json
  contentLength : Json
  lastModified : Option Datetime

/-- The `Key` of each entry of the two lists of a deletion: `none` for an entry that is not a
mapping, and inside it `none` for a key that is not a string. -/
structure DeleteResponse where
  deleted : Option (List (Option (Option Str)))
  errors : Option (List (Option (Option Str)))

/-- What `get_object` returned, read to the end: the bytes, the length it declared and its ETag. -/
structure GetResponse where
  body : Option Bytes
  contentLength : Option Nat
  etag : Json
  readRaises : Bool
  closeRaises : Bool

inductive GetReply where
  | ok (r : GetResponse)
  /-- the response is not a mapping -/
  | malformed
  /-- `ClientError`, with its code -/
  | clientError (code : Option String)
  | raised
  | interrupt

/-- The type of the answer to each call. -/
def Answer : Call → Type
  | .now => Reply (Option Datetime)
  | .monotonic => Reply (Option Rat)
  | .uuid => Reply (Option Str)
  | .hold _ => Unit
  | .release _ => Unit
  | .listObjects _ _ => Reply (Option Page)
  | .headObject _ => Reply HeadResponse
  | .deleteObjects _ => Reply (Option DeleteResponse)
  | .listAttempts _ _ => Reply (Option AttemptPage)
  | .getObject _ => GetReply
  | .putObject _ _ _ => Reply Json

/-- `_parse_etag`: the quotes are dropped, and what is left has the form of an ETag. -/
def parseEtag (value : Json) : Option Str :=
  match value with
  | .str s =>
      let normalized := if 2 ≤ s.length ∧ s.head? = some 34 ∧ s.getLast? = some 34
        then (s.drop 1).dropLast else s
      if isEtag normalized then some normalized else none
  | _ => none

/-! ### What may come back -/

structure World where
  store : Store
  /-- The owner of each held lock, and how many times it holds it. -/
  locks : Str → Option (Nat × Nat)

/-- The state of the service: the world and everything that was called. -/
abbrev State := Sys World Call Answer

/-- The service has just started: nothing is held. -/
def World.restarted (w : World) : World := ⟨w.store, fun _ => none⟩

/-- The thread that holds a lock. -/
def World.owner (w : World) (c : Str) : Option Nat := (w.locks c).map Prod.fst

def World.setLock (w : World) (c : Str) (v : Option (Nat × Nat)) : World :=
  ⟨w.store, fun d => if d = c then v else w.locks d⟩

def World.put (w : World) (key : ControlKey) (v : Stored) : World := ⟨w.store.put key v, w.locks⟩

/-- The bytes were read to the declared length and the ETag has its form. -/
def GetResponse.complete (r : GetResponse) : Prop :=
  r.readRaises = false ∧ ∃ body etag, r.body = some body ∧ r.contentLength = some body.length ∧
    parseEtag r.etag = some etag

/-- A complete response is what is stored. -/
def GetResponse.genuine (r : GetResponse) (o : Option Stored) : Prop :=
  ∀ body etag, r.body = some body → parseEtag r.etag = some etag → o = some ⟨body, etag⟩

def missingCodes : List String := ["NoSuchKey", "NoSuchObject", "404"]

/-- The condition of a write holds of what is stored. -/
def PutCondition.Holds (c : PutCondition) (o : Option Stored) : Prop :=
  match c with
  | .ifNoneMatch => o = none
  | .ifMatch etag => ∃ v, o = some v ∧ v.etag = etag

/-- A page that says it is the last one lists every attempt, and at most 1000 of them. -/
def AttemptPage.genuine (p : AttemptPage) (attempts : List (Nat × Str)) (maxKeys : Nat) : Prop :=
  ∀ keys : List (Nat × Str), p.contents = some (keys.map some) → p.isTruncated = some false →
    keys.Perm attempts ∧ keys.length ≤ min maxKeys 1000

/-- How the world may answer thread `t`. -/
def answers : Answers World Call Answer := fun t s e r w' =>
  let w := s.world
  match e, r with
  | .hold c, _ =>
      match w.locks c with
      | none => w' = w.setLock c (some (t, 1))
      | some (u, n) => u = t ∧ w' = w.setLock c (some (t, n + 1))
  | .release c, _ =>
      match w.locks c with
      | none => False
      | some (u, n) => u = t ∧ w' = w.setLock c (if n ≤ 1 then none else some (t, n - 1))
  | .getObject key, .ok r => w' = w ∧ (r.complete → r.genuine (w.store.get key))
  | .getObject key, .clientError (some code) =>
      w' = w ∧ (code ∈ missingCodes → w.store.get key = none)
  | .listAttempts op maxKeys, .ok (some page) =>
      w' = w ∧ page.genuine (w.store.attempts op) maxKeys
  | .putObject key body condition, r =>
      let written := fun etag => condition.Holds (w.store.get key) ∧ w' = w.put key ⟨body, etag⟩
      match r with
      | .ok v =>
          match parseEtag v with
          | some etag => written etag
          | none => w' = w ∨ ∃ etag, isEtag etag = true ∧ written etag
      | _ => w' = w ∨ ∃ etag, isEtag etag = true ∧ written etag
  | _, _ => w' = w

end Checkpoints
