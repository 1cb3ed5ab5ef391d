/-
A store that answers as it should.

What the functions do in a run is shown by playing it.  The scene holds the world, the
identifiers and nonces that are still to be given out, the files that the fetcher leaves
behind, and the keys whose reads fail.  Every ETag spells the bytes it stands for.
-/
import DataEngLab.Datasets.Rules
import DataEngLab.Lib.Play

namespace Datasets

open Lib

structure Scene where
  world : World
  identifiers : List Str
  nonces : List Str
  /-- what the fetcher returns, with the bytes of each file -/
  files : List (VerifiedFile × Bytes)
  /-- reads of these fail -/
  broken : List Location

/-- The bytes that an ETag of the scene stands for. -/
def spelled (etag : Str) : Bytes := etag.map UInt8.ofNat

def etagOf (body : Bytes) : Str := body.map UInt8.toNat

theorem spelled_etagOf (body : Bytes) : spelled (etagOf body) = body := by
  simp only [spelled, etagOf, List.map_map]
  exact List.map_id'' (fun b => UInt8.ofNat_toNat) body

instance (c : PutCondition) (o : Option StoredObject) : Decidable (c.Holds o) :=
  match c, o with
  | .ifNoneMatch, o => inferInstanceAs (Decidable (o = none))
  | .ifMatch _, none => isFalse fun ⟨_, h, _⟩ => nomatch h
  | .ifMatch etag, some v => decidable_of_iff (v.etag = etag)
      ⟨fun h => ⟨v, rfl, h⟩, fun ⟨_, hv, h⟩ => by cases hv; exact h⟩

/-- The identifier that a call was answered with. -/
def identifierOf : Event Call Answer → Option Str
  | ⟨.uuid4, id⟩ => some id
  | _ => none

/-- An identifier of the scene that nobody has used. -/
def unusedIn (s : State) (id : Str) : Bool :=
  decide (id ∉ s.world.used) && s.log.all fun x => decide (identifierOf x.2 ≠ some id)

theorem unused_of_unusedIn {s : State} {id : Str} (h : unusedIn s id = true) : Unused s id := by
  simp only [unusedIn, Bool.and_eq_true, decide_eq_true_eq, List.all_eq_true] at h
  refine ⟨h.1, fun t hissued => ?_⟩
  exact h.2 _ hissued rfl

namespace Scene

def getReply (s : Scene) (loc : Location) : GetReply :=
  if loc ∈ s.broken then .raised .botoCoreError
  else
    match s.world.objects loc with
    | some o => .ok ⟨.date s.world.now, some o.etag, some o.metadata, .bytes o.body, none⟩
    | none => .raised (.clientError (some 404) (lit "NoSuchKey") (.date s.world.now))

def fileBytes (s : Scene) (path : Str) : Except Failure Bytes :=
  match s.files.find? fun f => f.1.path = path with
  | some f => .ok f.2
  | none => .error .osError

def answer (t : Nat) (x : State) (s : Scene) : (e : Call) → Option (Answer e × Scene)
  | .getObject loc => some (s.getReply loc, s)
  | .putObject loc body metadata condition =>
      if condition.Holds (s.world.objects loc) then
        some (.ok (.date s.world.now), { s with world := s.world.put t loc ⟨body, etagOf body, metadata⟩ })
      else some (.raised (.clientError (some 412) (lit "PreconditionFailed") .missing), s)
  | .utcNow => some (s.world.now.moment, s)
  | .monotonic => some ((0 : Rat), s)
  | .uuid4 =>
      match s.identifiers with
      | [] => none
      | id :: rest => if unusedIn x id then some (id, { s with identifiers := rest }) else none
  | .tokenHex =>
      match s.nonces with
      | [] => none
      | nonce :: rest => some (nonce, { s with nonces := rest })
  | .turn => some (true, s)
  | .wait _ => some (.completed, s)
  | .fetch => some (.ok (s.files.map Prod.fst), s)
  | .legacyCandidates => some (.ok none, s)
  | .readFile path => some (s.fileBytes path, s)
  | .localStep _ => some (.ok (), s)
  | .inventory => some (.ok (), s)
  | .hang => none

theorem answer_allowed {t : Nat} {x : State} {s s' : Scene} {e : Call} {r : Answer e} (hx : x.world = s.world)
    (h : s.answer t x e = some (r, s')) : answers spelled t x e r s'.world := by
  cases e with
  | getObject loc =>
      cases h
      unfold getReply
      split
      · exact ⟨hx.symm, trivial⟩
      split
      · rename_i o ho
        rw [← hx] at ho
        refine ⟨hx.symm, o, ho, ?_⟩
        rw [hx]
        exact ⟨fun d hd => by cases hd; rfl, fun e he => by cases he; rfl, fun m hm => by cases hm; rfl,
          fun b hb => by cases hb; rfl⟩
      · rename_i hnone
        rw [← hx] at hnone
        exact ⟨hx.symm, fun d hd => by cases hd; rw [hx], fun _ => hnone⟩
  | putObject loc body metadata condition =>
      simp only [answer] at h
      split at h
      · rename_i hholds
        cases h
        rw [← hx] at hholds ⊢
        exact ⟨⟨hholds, etagOf body, spelled_etagOf body, rfl⟩, fun d hd => by cases hd; rfl⟩
      · cases h
        exact .inl hx.symm
  | uuid4 =>
      simp only [answer] at h
      split at h
      · cases h
      split at h
      · rename_i hunused
        cases h
        exact ⟨hx.symm, unused_of_unusedIn hunused⟩
      · cases h
  | tokenHex =>
      simp only [answer] at h
      split at h
      · cases h
      · cases h
        exact hx.symm
  | hang => cases h
  | utcNow => cases h; exact hx.symm
  | monotonic => cases h; exact hx.symm
  | turn => cases h; exact hx.symm
  | wait interval => cases h; exact hx.symm
  | fetch => cases h; exact hx.symm
  | legacyCandidates => cases h; exact hx.symm
  | readFile path => cases h; exact hx.symm
  | localStep step => cases h; exact hx.symm
  | inventory => cases h; exact hx.symm

end Scene

variable {Q A : Type}

def sceneCast (code : Q → Prog Call Answer A) : Cast (Discipline.machine spelled code) Scene where
  world := Scene.world
  answer t _ x s e := s.answer t x e
  allowed _ _ _ _ _ _ _ hx h := Scene.answer_allowed hx h

/-- An empty store at this second of the server's clock. -/
def Scene.empty (now : Instant) : Scene where
  world := ⟨fun _ => none, now, [], []⟩
  identifiers := []
  nonces := []
  files := []
  broken := []

theorem Scene.empty_init (now : Instant) : Init spelled (Scene.empty now).world :=
  ⟨(fun _ _ h => nomatch h), rfl⟩

/-- The server's clock goes on. -/
def tick (x : Stage Q World Call Answer A Scene) (now : Instant) : Stage Q World Call Answer A Scene :=
  ⟨{ x.scene with world := { x.scene.world with now := now } },
    ⟨x.pool.sys.withWorld { x.pool.sys.world with now := now }, x.pool.threads⟩⟩

theorem tick_step {code : Q → Prog Call Answer A} {x : Stage Q World Call Answer A Scene} {now : Instant}
    (hnow : x.scene.world.now ≤ now) (hx : (sceneCast code).Fits x) :
    PoolStep (Discipline.machine spelled code) x.pool (tick x now).pool ∧
      (sceneCast code).Fits (tick x now) := by
  have hworld : x.pool.sys.world = x.scene.world := hx
  refine ⟨.drift _ ⟨now, ?_, rfl⟩, ?_⟩
  · rw [hworld]
    exact hnow
  · show ({ x.pool.sys.world with now := now } : World) = { x.scene.world with now := now }
    rw [hworld]

end Datasets
