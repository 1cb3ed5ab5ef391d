/-
Fetching the outputs of a plan over HTTP.

`fetch_http` works in a directory of its own below the destination, and in the end links the outputs
beside it, one after the other.  What it has linked it records, for the rollback.

The download, the reading of an archive, its extraction, the inspection of a schema and the removal
of an owned entry are one call each; the first three happen inside the directory of the transaction.
-/
import DataEngLab.Datasets.Archives
import DataEngLab.Lib.Digest
import DataEngLab.Lib.Runs

namespace Datasets.Http

open Lib

abbrev Inode := Nat

/-! ### The plan -/

structure LandingObject where
  objectName : Str
  sizeBytes : Nat
  sha256 : Str
  schemaId : Str
  memberPath : Option Str
  rawIdentity : Bool

structure RawArtifact where
  name : Str
  sizeBytes : Nat
  sha256 : Str

structure HttpArtifact where
  id : Str
  url : Str
  raw : RawArtifact
  outputs : List LandingObject

structure ScalePlan where
  artifacts : List HttpArtifact
  /-- the names in `dataset.schemas` -/
  schemas : List Str

structure ExpectedObject where
  objectName : Str
  sizeBytes : Nat
  sha256 : Str
  schemaId : Str
deriving DecidableEq

def expectedOf (output : LandingObject) : ExpectedObject :=
  ⟨output.objectName, output.sizeBytes, output.sha256, output.schemaId⟩

def rawExpected (artifact : HttpArtifact) : ExpectedObject :=
  ⟨artifact.raw.name, artifact.raw.sizeBytes, artifact.raw.sha256, []⟩

inductive Exn where
  /-- the stage of its context, and the field -/
  | lockMismatch (stage field : Str)
  | valueError (message : Str)
  | fileExistsError (name : Str)
  | runtimeError (message : Str)
  /-- any other exception of a step -/
  | other (kind : Nat)
deriving DecidableEq

/-! ### Calls -/

/-- A path below the directory of the transaction, or a name in the destination. -/
inductive Path where
  | source (path : Str)
  | target (name : Str)
deriving DecidableEq

structure Status where
  isFile : Bool
  identity : Inode

/-- `_FileBinding`; the descriptor is that of its file. -/
structure Binding where
  identity : Inode
  sizeBytes : Nat
  sha256 : Str

/-- What a capability has to be asked to let go. -/
inductive Release where
  | download (path : Str)
  | members (directory : Str)
deriving DecidableEq

/-- What `_canonical_archive_entries` gives, and what the snapshot says of the archive. -/
structure ArchiveReading where
  entries : List Acquisition.ArchiveEntry
  identity : Inode
  sizeBytes : Nat
  sha256 : Str

/-- How a removal ends that raises nothing.  The program does not see the difference. -/
inductive Removal where
  | removed
  /-- the entry could not be told to be its own, and was left in quarantine -/
  | left
deriving DecidableEq

inductive Call where
  | makeDestination
  | requireTrustedParent
  | mkdtemp
  | rootIdentity (root : Str)
  | makeArtifactRoot (ordinal : Nat) (rawName : Str)
  | download (url path : Str) (maxBytes : Nat)
  | downloadBinding (path : Str)
  | readArchive (path : Str)
  | extract (path : Str) (entries : List Acquisition.ArchiveEntry) (directory : Str)
  | fstat (descriptor : Inode)
  | lstat (path : Path)
  /-- `os.dup`, and reading to the end -/
  | readAll (descriptor : Inode) (atMost : Nat)
  | rewind (descriptor : Inode)
  | verifyPhysicalSchema (descriptor : Inode) (schemaId : Str)
  | resolve (path : Path)
  | present (name : Str)
  | link (source name : Str)
  | release (release : Release)
  | remove (name : Str) (identity : Inode)
  | removeRoot (root : Str) (identity : Inode)

def Answer : Call → Type
  | .makeDestination => Except Exn Unit
  | .requireTrustedParent => Except Exn Unit
  | .mkdtemp => Except Exn Str
  | .rootIdentity _ => Except Exn Inode
  | .makeArtifactRoot _ _ => Except Exn Unit
  | .download _ _ _ => Except Exn Unit
  | .downloadBinding _ => Except Exn Binding
  | .readArchive _ => Except Exn ArchiveReading
  | .extract _ _ _ => Except Exn (List (Str × Binding))
  | .fstat _ => Except Exn Status
  | .lstat _ => Except Exn Status
  | .readAll _ _ => Except Exn Bytes
  | .rewind _ => Except Exn Unit
  | .verifyPhysicalSchema _ _ => Except Exn Unit
  | .resolve _ => Except Exn Unit
  | .present _ => Except Exn Bool
  | .link _ _ => Except Exn Unit
  | .release _ => Except Exn Unit
  | .remove _ _ => Except Exn Removal
  | .removeRoot _ _ => Except Exn Removal

abbrev X (α : Type) := Proc Call Answer Exn α

section
variable {α ε : Type}

def perform (e : Call) : Proc Call Answer ε (Answer e) := Proc.perform e

def anyCall (x : X (Except Exn α)) : X α := x >>= fun r => Proc.lift r

def mismatch (stage field : String) : X α := throw (.lockMismatch (lit stage) (lit field))

def fail (message : String) : X α := throw (.valueError (lit message))

end

/-! ### Outputs -/

/-- `_BoundOutput`; the descriptor is open on the file of this identity. -/
structure BoundOutput where
  sourcePath : Str
  identity : Inode
  expected : ExpectedObject
deriving DecidableEq

/-- `VerifiedFile` -/
structure VerifiedFile where
  name : Str
  expected : ExpectedObject
deriving DecidableEq

/-- `_require_bound_identity` -/
def requireBoundIdentity (bound : BoundOutput) (path : Path) : X Unit := do
  let opened : Except Exn Status ← perform (.fstat bound.identity)
  match opened with
  | .error _ => fail "verified output identity is unavailable"
  | .ok opened => do
      let current : Except Exn Status ← perform (.lstat path)
      match current with
      | .error _ => fail "verified output identity is unavailable"
      | .ok current =>
          if !opened.isFile || !current.isFile || opened.identity != bound.identity ||
              current.identity != bound.identity then
            fail "verified output identity changed"
          else pure ()

/-- `_verify_descriptor`; not more than one byte too many is read. -/
def verifyDescriptor (bound : BoundOutput) : X Unit := do
  let bytes ← anyCall (perform (.readAll bound.identity (bound.expected.sizeBytes + 1)))
  if bytes.length ≠ bound.expected.sizeBytes then mismatch "output" "size_bytes"
  else if sha256 bytes ≠ bound.expected.sha256 then mismatch "output" "sha256"
  else pure ()

/-- `_verify_bound_output` -/
def verifyBoundOutput (bound : BoundOutput) (path : Path) : X Unit := do
  requireBoundIdentity bound path
  verifyDescriptor bound
  anyCall (perform (.rewind bound.identity))
  anyCall (perform (.verifyPhysicalSchema bound.identity bound.expected.schemaId))
  verifyDescriptor bound
  requireBoundIdentity bound path
  anyCall (perform (.resolve path))

/-- `require_exact_names` -/
def requireExactNames (stage : String) (expected actual : List Str) : X Unit :=
  if expected.Nodup ∧ actual.Nodup ∧ actual = expected then pure () else mismatch stage "object_names"

/-! ### An artifact -/

/-- The capabilities that are held when something is raised. -/
abbrev Y (α : Type) := Proc Call Answer (Exn × List Release) α

def holding {α : Type} (releases : List Release) (x : X α) : Y α := x.mapError fun e => (e, releases)

section
variable (plan : ScalePlan) (artifact : HttpArtifact)

/-- `_output_contract`, but for the context and the schema itself. -/
def outputContract (output : LandingObject) : X ExpectedObject :=
  if output.schemaId ∈ plan.schemas then pure (expectedOf output) else mismatch "output" "schema_id"

/-- `_require_archive_mapping` -/
def requireArchiveMapping (entries : List Acquisition.ArchiveEntry) : X Unit := do
  let actualPaths := entries.map Acquisition.ArchiveEntry.memberPath
  let lockedPaths := artifact.outputs.filterMap LandingObject.memberPath
  if artifact.outputs.any (fun output => output.memberPath.isNone) then mismatch "archive" "member_paths"
  else if ¬ lockedPaths.Nodup ∨ ¬ actualPaths.Nodup ∨ ¬ (actualPaths ⊆ lockedPaths ∧ lockedPaths ⊆ actualPaths) then
    mismatch "archive" "member_paths"
  else
    requireExactNames "archive" (artifact.outputs.map LandingObject.objectName)
      (lockedPaths.filterMap fun path =>
        (entries.find? fun entry => entry.memberPath == path).map Acquisition.ArchiveEntry.objectName)

/-- The outputs of an archive, one after the other. -/
def bindMembers (entries : List Acquisition.ArchiveEntry) (files : List (Str × Binding)) :
    List LandingObject → X (List BoundOutput)
  | [] => pure []
  | output :: outputs => do
      -- both lists have a place for every member path
      let place := (entries.findIdx fun entry => some entry.memberPath == output.memberPath)
      match files[place]? with
      | none => fail "archive and extracted capabilities have inconsistent cardinality"
      | some (path, binding) => do
          let expected ← outputContract plan output
          let bound : BoundOutput := ⟨path, binding.identity, expected⟩
          verifyBoundOutput bound (.source path)
          let rest ← bindMembers entries files outputs
          pure (bound :: rest)

/-- `_require_metadata` of the download -/
def requireRaw (binding : Binding) : X Unit :=
  if binding.sizeBytes ≠ (rawExpected artifact).sizeBytes then mismatch "raw" "size_bytes"
  else if binding.sha256 ≠ (rawExpected artifact).sha256 then mismatch "raw" "sha256"
  else pure ()

/-- `_require_direct_identity` -/
def requireDirectIdentity (output : LandingObject) : X Unit :=
  if artifact.raw.name = output.objectName ∧ artifact.raw.sizeBytes = output.sizeBytes ∧
      artifact.raw.sha256 = output.sha256 ∧ output.rawIdentity = true ∧ output.memberPath = none then pure ()
  else mismatch "raw identity" "raw_identity"

/-- The outputs of a download that is an archive, and the capability for its members. -/
def fetchMembers (rawPath membersPath : Str) (raw : Binding) (releases : List Release) :
    Y (List BoundOutput × List Release) := do
  if artifact.outputs.any (fun output => output.memberPath.isNone || output.rawIdentity) then
    holding releases (mismatch "artifact" "output_kind")
  else do
    let archive ← holding releases (anyCall (perform (.readArchive rawPath)))
    if archive.identity ≠ raw.identity ∨ archive.sizeBytes ≠ (rawExpected artifact).sizeBytes ∨
        archive.sha256 ≠ (rawExpected artifact).sha256 then
      holding releases (mismatch "raw" "archive_identity")
    else do
      holding releases (requireArchiveMapping artifact archive.entries)
      let files ← holding releases (anyCall (perform (.extract rawPath archive.entries membersPath)))
      let releases := releases ++ [.members membersPath]
      if archive.entries.length ≠ files.length then
        holding releases (fail "archive and extracted capabilities have inconsistent cardinality")
      else do
        let outputs ← holding releases (bindMembers plan archive.entries files artifact.outputs)
        pure (outputs, releases)

/-- The output of a download that is one itself. -/
def fetchDirect (rawPath : Str) (raw : Binding) : X (List BoundOutput) :=
  match artifact.outputs with
  | [output] => do
      requireDirectIdentity artifact output
      let expected ← outputContract plan output
      let bound : BoundOutput := ⟨rawPath, raw.identity, expected⟩
      verifyBoundOutput bound (.source rawPath)
      pure [bound]
  | _ => mismatch "artifact" "outputs"

/-- `_fetch_artifact` -/
def fetchArtifact (ordinal : Nat) (releases : List Release) : Y (List BoundOutput × List Release) := do
  holding releases (anyCall (perform (.makeArtifactRoot ordinal artifact.raw.name)))
  let artifactRoot := lit "artifact-" ++ decDigits ordinal
  let rawPath := artifactRoot ++ lit "/" ++ artifact.raw.name
  let membersPath := artifactRoot ++ lit "/members"
  holding releases (anyCall (perform (.download artifact.url rawPath (artifact.raw.sizeBytes + 1))))
  let releases := releases ++ [.download rawPath]
  let raw ← holding releases (anyCall (perform (.downloadBinding rawPath)))
  holding releases (requireRaw artifact raw)
  if artifact.outputs.any (fun output => output.memberPath.isSome) then
    fetchMembers plan artifact rawPath membersPath raw releases
  else do
    let outputs ← holding releases (fetchDirect plan artifact rawPath raw)
    pure (outputs, releases)

end

def fetchArtifacts (plan : ScalePlan) : List HttpArtifact → Nat → List BoundOutput → List Release →
    Y (List BoundOutput × List Release)
  | [], _, results, releases => pure (results, releases)
  | artifact :: artifacts, ordinal, results, releases => do
      let (outputs, releases) ← fetchArtifact plan artifact ordinal releases
      fetchArtifacts plan artifacts (ordinal + 1) (results ++ outputs) releases

/-! ### Publication -/

/-- The links of a `_Publication`, the newest last. -/
abbrev Links := List (Str × Inode)

/-- `_Publication.rollback` of one that is active: the newest link is the first to go. -/
def rollback : Links → X Unit
  | [] => pure ()
  | (name, identity) :: links => do
      rollback links
      let _ ← perform (.remove name identity)
      pure ()

def requireAbsent : List Str → X Unit
  | [] => pure ()
  | name :: names => do
      let taken ← anyCall (perform (.present name))
      if taken then throw (.fileExistsError name) else requireAbsent names

/-- What is raised comes with the links that were recorded. -/
def recorded {α : Type} (links : Links) (x : X α) : Proc Call Answer (Exn × Links) α := x.mapError fun e => (e, links)

/-- The loop of `_publish_verified_files` -/
def publishLoop : List BoundOutput → Links → Proc Call Answer (Exn × Links) Links
  | [], links => pure links
  | item :: items, links => do
      recorded links (requireBoundIdentity item (.source item.sourcePath))
      recorded links (anyCall (perform (.link item.sourcePath item.expected.objectName)))
      let links := links ++ [(item.expected.objectName, item.identity)]
      recorded links (verifyBoundOutput item (.target item.expected.objectName))
      publishLoop items links

def resolveAll : List BoundOutput → X Unit
  | [] => pure ()
  | item :: items => do
      anyCall (perform (.resolve (.target item.expected.objectName)))
      resolveAll items

def publishAll (files : List BoundOutput) : Proc Call Answer (Exn × Links) Links := do
  let links ← publishLoop files []
  recorded links (resolveAll files)
  pure links

/-- `_publish_verified_files` -/
def publishVerifiedFiles (files : List BoundOutput) : X Links := do
  requireAbsent (files.map fun item => item.expected.objectName)
  let published : Except (Exn × Links) Links ← (publishAll files).attempt
  match published with
  | .ok links => pure links
  | .error (e, links) => do
      rollback links
      throw e

/-- `_release_all`, from the end; whether a release failed. -/
def releaseAll : List Release → X Bool
  | [] => pure false
  | release :: releases => do
      let failed ← releaseAll releases
      let released : Except Exn Unit ← perform (.release release)
      pure (failed || !released.toBool)

/-! ### The transaction -/

/-- What `fetch_http` has to undo when something is raised. -/
structure Progress where
  publication : Option Links
  releases : List Release

abbrev Z (α : Type) := Proc Call Answer (Exn × Progress) α

def undoing {α : Type} (publication : Option Links) (releases : List Release) (x : X α) : Z α :=
  x.mapError fun e => (e, ⟨publication, releases⟩)

/-- The body of `with _owned_directory(destination)`. -/
def fetchAll (plan : ScalePlan) : Y (List BoundOutput × List Release × Links) := do
  let (results, releases) ← fetchArtifacts plan plan.artifacts 0 [] []
  holding releases (requireExactNames "result"
    (plan.artifacts.flatMap fun artifact => artifact.outputs.map LandingObject.objectName)
    (results.map fun item => item.expected.objectName))
  let links ← holding releases (publishVerifiedFiles results)
  pure (results, releases, links)

/-- `_owned_directory` about it. -/
def transaction (plan : ScalePlan) : Z (List BoundOutput × List Release × Links) := do
  undoing none [] (anyCall (perform .makeDestination))
  undoing none [] (anyCall (perform .requireTrustedParent))
  let root ← undoing none [] (anyCall (perform .mkdtemp))
  let identity ← undoing none [] (anyCall (perform (.rootIdentity root)))
  let fetched : Except (Exn × List Release) (List BoundOutput × List Release × Links) ← (fetchAll plan).attempt
  let removed : Except Exn Removal ← perform (.removeRoot root identity)
  match fetched with
  | .error (e, releases) => throw (e, ⟨none, releases⟩)
  | .ok (results, releases, links) =>
      match removed with
      | .error e => throw (e, ⟨some links, releases⟩)
      | .ok _ => pure (results, releases, links)

def verifyAll : List BoundOutput → X Unit
  | [] => pure ()
  | item :: items => do
      verifyBoundOutput item (.target item.expected.objectName)
      verifyAll items

/-- The `try` of `fetch_http`. -/
def fetchAndVerify (plan : ScalePlan) : Z (List VerifiedFile) := do
  let (results, releases, links) ← transaction plan
  undoing (some links) releases (verifyAll results)
  let failed ← undoing (some links) [] (releaseAll releases)
  if failed then throw (.runtimeError (lit "HTTP capability release failed"), ⟨some links, []⟩)
  else pure (results.map fun item => ⟨item.expected.objectName, item.expected⟩)

/-- `fetch_http` -/
def fetchHttp (plan : ScalePlan) : X (List VerifiedFile) := do
  let fetched : Except (Exn × Progress) (List VerifiedFile) ← (fetchAndVerify plan).attempt
  match fetched with
  | .ok files => pure files
  | .error (e, progress) => do
      rollback (progress.publication.getD [])
      let _ ← releaseAll progress.releases
      throw e

end Datasets.Http
