/-
Extraction of the members of an archive.

`extract_members` copies the archive, makes a directory with a random name beside the destination,
writes the members into it and renames it.  Whatever it does to the parent directory is a call,
and any call may fail; a directory that is to go away is first renamed to another random name and
then removed, if it is seen to be the one that was made.

A descriptor is what it is open on.  What `zipfile` makes of the bytes of an archive is a parameter.
The probe of the rename, and the copy of the archive, are one call each.
-/
import DataEngLab.Datasets.Archives
import DataEngLab.Lib.Digest
import DataEngLab.Lib.Runs
import Mathlib.Logic.Function.Basic

namespace Datasets.Acquisition

open Lib

def enoent : Errno := 2
def eexist : Errno := 17
def enotdir : Errno := 20

/-- `(st_dev, st_ino)` -/
abbrev Inode := Nat

@[ext] structure Status where
  isDir : Bool
  identity : Inode
deriving DecidableEq

structure ParentStatus where
  isLink : Bool
  isDir : Bool
  isOwned : Bool
  /-- `st_mode & 0o022` -/
  isShared : Bool

/-- What `_stable_archive` takes from `os.fstat`; the size is that of the bytes. -/
structure FileState where
  device : Nat
  inode : Nat
  mtimeNs : Nat
  ctimeNs : Nat

structure ArchiveSnapshot where
  device : Nat
  inode : Nat
  sizeBytes : Nat
  mtimeNs : Nat
  ctimeNs : Nat
  sha256 : Str
deriving DecidableEq

def snapshotOf (state : FileState) (archive : Bytes) : ArchiveSnapshot :=
  ⟨state.device, state.inode, archive.length, state.mtimeNs, state.ctimeNs, sha256 archive⟩

/-- `_FileBinding`; the descriptor is open on the output of this name. -/
structure Binding where
  name : Str
  identity : Inode
  sizeBytes : Nat
  sha256 : Str
deriving DecidableEq

/-! ### Calls -/

/-- Where in the program a directory is looked at. -/
inductive Site where
  | staging
  | again
  | published
  | quarantine
deriving DecidableEq

inductive Call where
  | parentStatus
  | probe
  | present (name : Str)
  | copyArchive
  | mkdtemp
  | lstat (site : Site) (name : Str)
  | openFolder (site : Site) (name : Str)
  | fstat (site : Site) (folder : Inode)
  | close (site : Site) (folder : Inode)
  | closeArchive
  | preflight (archive : Bytes) (limits : ZipLimits)
  | rewind
  | readDirectory (archive : Bytes)
  | createOutput (folder : Inode) (name : Str)
  | createdIdentity (folder : Inode) (name : Str)
  | openTarget (folder : Inode) (name : Str)
  | openMember (archive : Bytes) (member : ZipInfo)
  | readMember
  | write (folder : Inode) (name : Str) (chunk : Bytes)
  | closeMember
  | closeTarget (folder : Inode) (name : Str)
  | outputIdentity (folder : Inode) (name : Str)
  | outputDigest (folder : Inode) (name : Str)
  | openOutput (folder : Inode) (name : Str)
  | makeCapability
  | closeCapability
  | bindingIdentity (binding : Binding)
  | closeBinding (binding : Binding)
  | tokenHex
  /-- `_rename_noreplace`; the probe has seen that it is there -/
  | rename (site : Site) (source target : Str)
  | rmtree (name : Str)

def Answer : Call → Type
  | .parentStatus => Except Errno ParentStatus
  | .probe => Bool
  | .present _ => Except Exn Bool
  | .copyArchive => Except Exn (FileState × Bytes)
  | .mkdtemp => Except Errno Str
  | .lstat _ _ => Except Errno Status
  | .openFolder _ _ => Except Errno Inode
  | .fstat _ _ => Except Errno Status
  | .close _ _ => Except Errno Unit
  | .closeArchive => Except Errno Unit
  | .preflight _ _ => Except Exn Unit
  | .rewind => Except Exn Unit
  | .readDirectory _ => Except Exn (List ZipInfo)
  | .createOutput _ _ => Except Errno Unit
  | .createdIdentity _ _ => Except Errno Inode
  | .openTarget _ _ => Except Exn Unit
  | .openMember _ _ => Except Exn Unit
  | .readMember => Except Exn Bytes
  | .write _ _ _ => Except Exn Unit
  | .closeMember => Except Exn Unit
  | .closeTarget _ _ => Except Exn Unit
  | .outputIdentity _ _ => Except Errno Inode
  | .outputDigest _ _ => Except Exn Str
  | .openOutput _ _ => Except Errno Unit
  | .makeCapability => Except Exn Unit
  | .closeCapability => Except Exn Unit
  | .bindingIdentity _ => Except Errno Inode
  | .closeBinding _ => Except Errno Unit
  | .tokenHex => Str
  | .rename _ _ _ => Except Errno Unit
  | .rmtree _ => Except Errno Unit

abbrev X (α : Type) := Proc Call Answer Exn α

section
variable {α β : Type}

def perform (e : Call) : X (Answer e) := Proc.perform e

/-- A call that raises `OSError`. -/
def osCall (x : X (Except Errno α)) : X α := x >>= fun r => Proc.lift (r.mapError .osError)

/-- A call that raises whatever it raises. -/
def anyCall (x : X (Except Exn α)) : X α := x >>= fun r => Proc.lift r

def fail (message : String) : X α := throw (.valueError (lit message))

def isOsError : Exn → Bool
  | .osError _ => true
  | .fileExistsError _ => true
  | _ => false

def failed (r : Except Errno α) : Bool := !r.toBool

/-- `with`: the closing comes last, and its exception in place of another. -/
def withClosing (closing : X (Except Exn Unit)) (body : X α) : X α := do
  let r : Except Exn α ← body.attempt
  anyCall closing
  Proc.lift r

end

/-! ### Owned paths -/

/-- `_require_trusted_parent` -/
def requireTrustedParent : X Unit := do
  let status : Except Errno ParentStatus ← perform .parentStatus
  match status with
  | .error _ => fail "destination parent is unavailable"
  | .ok status =>
      if status.isLink || !status.isDir then fail "destination parent must be a trusted directory"
      else if !status.isOwned || status.isShared then
        fail "destination parent must be owned by the current user and not group/world writable"
      else pure ()

section
variable (site : Site) (path : Str) (identity : Inode)

/-- `_open_owned_path` of a directory -/
def openOwnedPath : X Inode := do
  let opened : Except Errno Inode ← perform (.openFolder site path)
  match opened with
  | .error _ => fail "owned path identity changed"
  | .ok descriptor => do
      let status : Except Errno Status ← perform (.fstat site descriptor)
      match status with
      | .error n => do
          let _ ← perform (.close site descriptor)
          throw (.osError n)
      | .ok status =>
          if !status.isDir || status.identity != identity then do
            let _ ← perform (.close site descriptor)
            fail "owned path identity changed"
          else pure descriptor

/-- `_path_matches_identity` of a directory -/
def pathMatchesIdentity : X Bool := do
  let current : Except Errno Status ← perform (.lstat site path)
  match current with
  | .error n => if n = enoent then pure false else throw (.osError n)
  | .ok status => pure (status.isDir && status.identity == identity)

end

/-- `_published_path_is_owned` of a directory -/
def publishedPathIsOwned (path : Str) (identity : Inode) : X Bool := do
  let opened : Except Exn Inode ← (openOwnedPath .published path identity).attempt
  match opened with
  | .error _ => do
      let matching : Except Exn Bool ← (pathMatchesIdentity .published path identity).attempt
      match matching with
      | .error _ => pure false
      | .ok same => pure same
  | .ok descriptor => do
      let _ ← perform (.close .published descriptor)
      pure true

/-- The loop of `_quarantine_owned_path`, with this many attempts left. -/
def reserveQuarantine (path : Str) : Nat → X (Option Str)
  | 0 => throw (.osError eexist)
  | attempts + 1 => do
      let token : Str ← perform .tokenHex
      let quarantine := lit ".dataset-cleanup-extract-" ++ token
      let renamed : Except Errno Unit ← perform (.rename .quarantine path quarantine)
      match renamed with
      | .ok _ => pure (some quarantine)
      | .error n =>
          if n = eexist ∨ n = enotdir then reserveQuarantine path attempts
          else if n = enoent then pure none
          else throw (.osError n)

/-- `_quarantine_owned_path` of a directory -/
def quarantineOwnedPath (path : Str) (identity : Inode) : X Unit := do
  let reserved : Option Str ← reserveQuarantine path 8
  match reserved with
  | none => pure ()
  | some quarantine => do
      let opened : Except Exn Inode ← (openOwnedPath .quarantine quarantine identity).attempt
      match opened with
      | .error (.valueError _) => pure ()
      | .error e => throw e
      | .ok descriptor => do
          let current : Except Errno Status ← perform (.lstat .quarantine quarantine)
          osCall (perform (.close .quarantine descriptor))
          let status : Status ← Proc.lift (current.mapError .osError)
          if !status.isDir || status.identity != identity then pure ()
          else osCall (perform (.rmtree quarantine))

/-- `_publish_path_exclusive` -/
def publishPathExclusive (source destination : Str) : X Unit := do
  let renamed : Except Errno Unit ← perform (.rename .published source destination)
  match renamed with
  | .ok _ => pure ()
  | .error n =>
      if n = eexist ∨ n = enotdir then fail "destination changed during publication" else throw (.osError n)

/-! ### Entries -/

/-- What may be passed for the entries. -/
inductive EntryList where
  | plain (entries : List ArchiveEntry)
  /-- another list, with a snapshot and limits -/
  | bound (entries : List ArchiveEntry) (snapshot : ArchiveSnapshot) (limits : ZipLimits)
  /-- a `_ValidatedEntries`, and what the list itself holds by now -/
  | validated (listed canonical : List ArchiveEntry) (snapshot : ArchiveSnapshot) (limits : ZipLimits)

structure Capability where
  canonical : List ArchiveEntry
  snapshot : ArchiveSnapshot
  limits : ZipLimits

def EntryList.listed : EntryList → List ArchiveEntry
  | .plain entries => entries
  | .bound entries _ _ => entries
  | .validated listed _ _ _ => listed

/-- `_canonical_archive_entries`, after the checks before it. -/
def EntryList.capability (entries : EntryList) : Except Exn Capability :=
  if entries.listed = [] then .error (.valueError (lit "archive must contain at least one regular file"))
  else
    match entries with
    | .plain _ => .error (.valueError (lit "archive entries are not bound to one validated snapshot"))
    | .bound entries snapshot limits => .ok ⟨entries, snapshot, limits⟩
    | .validated listed canonical snapshot limits =>
        if listed ≠ canonical then .error (.valueError (lit "validated archive entries changed"))
        else .ok ⟨canonical, snapshot, limits⟩

/-! ### Staging -/

/-- `_stable_archive` -/
def stableArchive : X (Bytes × ArchiveSnapshot) := do
  let (state, archive) ← anyCall (perform .copyArchive)
  pure (archive, snapshotOf state archive)

def makeStaging : X (Str × Inode) := do
  let made : Except Errno Str ← perform .mkdtemp
  match made with
  | .error _ => do
      let closed : Except Errno Unit ← perform .closeArchive
      fail (if failed closed then "extraction cleanup failed" else "extraction parent is unavailable")
  | .ok root => do
      let status : Except Errno Status ← perform (.lstat .staging root)
      match status with
      | .error _ => do
          let _ ← perform .closeArchive
          fail "extraction cleanup ownership is uncertain"
      | .ok status =>
          if status.isDir then pure (root, status.identity)
          else do
            let _ ← perform .closeArchive
            fail "extraction cleanup ownership is uncertain"

def closeOpened : Option Inode → X (Except Errno Unit)
  | some descriptor => perform (.close .staging descriptor)
  | none => pure (.ok ())

/-- The staging directory cannot be opened. -/
def abandonStaging (root : Str) (identity : Inode) (opened : Option Inode) : X Inode := do
  let closed : Except Errno Unit ← closeOpened opened
  let archiveClosed : Except Errno Unit ← perform .closeArchive
  let removed : Except Exn Unit ← (quarantineOwnedPath root identity).attempt
  match removed with
  | .error e => if isOsError e then fail "extraction cleanup failed" else throw e
  | .ok _ =>
      fail (if failed closed || failed archiveClosed then "extraction cleanup failed"
        else "extraction parent is unavailable")

def openStaging (root : Str) (identity : Inode) : X Inode := do
  let opened : Except Errno Inode ← perform (.openFolder .staging root)
  match opened with
  | .error _ => abandonStaging root identity none
  | .ok descriptor => do
      let status : Except Errno Status ← perform (.fstat .staging descriptor)
      match status with
      | .error _ => abandonStaging root identity (some descriptor)
      | .ok status =>
          if !status.isDir || status.identity != identity then abandonStaging root identity (some descriptor)
          else pure descriptor

/-! ### The members -/

/-- What `cleanup` finds: the outputs that are bound, and whether they are held by a capability. -/
structure Progress where
  bindings : List Binding
  isHeld : Bool

/-- Steps inside the `try`, whose exceptions carry what was done so far. -/
abbrev Y (α : Type) := Proc Call Answer (Exn × Progress) α

def having {α : Type} (progress : Progress) (x : X α) : Y α := x.mapError fun e => (e, progress)

section
variable (repr : Str → Str) (folder : Inode) (archive : Bytes) (infos : List ZipInfo) (entry : ArchiveEntry)

def changed : Exn :=
  .valueError (lit "archive member " ++ repr entry.memberPath ++ lit " changed after validation")

/-- `for chunk in iter(lambda: source.read(1 << 20), b"")` -/
def copyChunks (memberSize : Nat) : X Nat := do
  let chunk : Bytes ← anyCall (perform .readMember)
  if hempty : chunk = [] then pure memberSize
  else if hlong : entry.sizeBytes < memberSize + chunk.length then throw (changed repr entry)
  else do
    anyCall (perform (.write folder entry.objectName chunk))
    copyChunks (memberSize + chunk.length)
termination_by entry.sizeBytes - memberSize
decreasing_by
  have hpos := List.length_pos_iff.mpr hempty
  omega

/-- The two files of the `with`, the target's descriptor being open. -/
def copyMember (member : ZipInfo) : X Nat := do
  anyCall (perform (.openTarget folder entry.objectName))
  withClosing (perform (.closeTarget folder entry.objectName)) do
    anyCall (perform (.openMember archive member))
    withClosing (perform .closeMember) (copyChunks repr folder entry 0)

/-- `infos = {info.filename: info for info in archive.infolist()}` and `infos.get(path)` -/
def infoOf (path : Str) : Option ZipInfo := infos.reverse.find? fun info => info.filename == path

/-- The member of an entry, which may still be extracted. -/
def checkEntry : Except Exn ZipInfo := do
  require (validateRelativePath entry.memberPath (lit "archive member")).isEmpty
    (Exn.valueError (lit "archive member: must be a safe relative POSIX path"))
  require ((validateRelativePath entry.objectName (lit "object name")).isEmpty &&
      baseName entry.objectName == entry.objectName)
    (Exn.valueError (lit "object name: must be a safe relative POSIX path"))
  let member ← orElse (infoOf infos entry.memberPath) (changed repr entry)
  require (!member.isDir && member.fileSize == entry.sizeBytes) (changed repr entry)
  return member

def extractEntry : X Binding := do
  let member ← Proc.lift (checkEntry repr infos entry)
  osCall (perform (.createOutput folder entry.objectName))
  let identity ← osCall (perform (.createdIdentity folder entry.objectName))
  let memberSize ← copyMember repr folder archive entry member
  if memberSize ≠ entry.sizeBytes then throw (changed repr entry)
  else do
    let current ← osCall (perform (.outputIdentity folder entry.objectName))
    if current ≠ identity then fail "archive output changed during extraction"
    else do
      let digest ← anyCall (perform (.outputDigest folder entry.objectName))
      osCall (perform (.openOutput folder entry.objectName))
      pure ⟨entry.objectName, current, memberSize, digest⟩

end

section
variable (repr : Str → Str) (folder : Inode) (archive : Bytes)

def extractEntries (infos : List ZipInfo) : List ArchiveEntry → List Binding → Y (List Binding)
  | [], bindings => pure bindings
  | entry :: entries, bindings => do
      let binding ← having ⟨bindings, false⟩ (extractEntry repr folder archive infos entry)
      extractEntries infos entries (bindings ++ [binding])

/-- The archive is the one that was validated, and so are its members. -/
def revalidate (current : ArchiveSnapshot) (capability : Capability) : X (List ZipInfo) := do
  Proc.lift (require (current == capability.snapshot) (Exn.valueError (lit "archive changed after validation")))
  anyCall (perform (.preflight archive capability.limits))
  anyCall (perform .rewind)
  let infos : List ZipInfo ← anyCall (perform (.readDirectory archive))
  let fresh ← Proc.lift (validatedMembers repr capability.limits infos)
  Proc.lift (require (fresh == capability.canonical)
    (Exn.valueError (lit "archive members changed after validation")))
  pure infos

/-- The body of `with archive_stream`. -/
def extractValidated (current : ArchiveSnapshot) (capability : Capability) : Y (List Binding) := do
  let infos ← having ⟨[], false⟩ (revalidate repr archive current capability)
  extractEntries repr folder archive infos capability.canonical []

def checkOutputs : List Binding → X Unit
  | [] => pure ()
  | binding :: bindings => do
      let current ← osCall (perform (.outputIdentity folder binding.name))
      if current ≠ binding.identity then fail "extracted output changed before success"
      else checkOutputs bindings

def progressOf : Except (Exn × Progress) (List Binding) → Progress
  | .ok bindings => ⟨bindings, false⟩
  | .error e => e.2

/-- The body of the `try`. -/
def extractInto (current : ArchiveSnapshot) (capability : Capability) : Y (List Binding) := do
  let extracted : Except (Exn × Progress) (List Binding) ←
    (extractValidated repr folder archive current capability).attempt
  having (progressOf extracted) (osCall (perform .closeArchive))
  let bindings ← Proc.lift extracted
  having ⟨bindings, false⟩ (checkOutputs folder bindings)
  having ⟨bindings, false⟩ (anyCall (perform .makeCapability))
  having ⟨bindings, true⟩ (osCall (perform .closeArchive))
  pure bindings

end

/-! ### Cleaning up, publishing -/

/-- `_close_bindings` -/
def closeBindings : List Binding → X Unit
  | [] => pure ()
  | binding :: bindings => do
      let current : Except Errno Inode ← perform (.bindingIdentity binding)
      match current with
      | .error _ => closeBindings bindings
      | .ok identity =>
          if identity ≠ binding.identity then closeBindings bindings
          else do
            let _ ← perform (.closeBinding binding)
            closeBindings bindings

/-- Whether closing the outputs went wrong. -/
def closeProgress (progress : Progress) : X Bool := do
  if progress.isHeld then do
    let closed : Except Exn Unit ← perform .closeCapability
    match closed with
    | .ok _ => pure false
    | .error _ => do
        closeBindings progress.bindings
        pure true
  else do
    closeBindings progress.bindings
    pure false

section
variable (root : Str) (identity : Inode) (descriptor : Inode)

def cleanup (progress : Progress) : X Unit := do
  let capabilityFailed ← closeProgress progress
  let closed : Except Errno Unit ← perform (.close .staging descriptor)
  let archiveClosed : Except Errno Unit ← perform .closeArchive
  let removed : Except Exn Unit ← (quarantineOwnedPath root identity).attempt
  match removed with
  | .error e => if isOsError e then fail "extraction cleanup failed" else throw e
  | .ok _ =>
      if capabilityFailed || failed closed || failed archiveClosed then fail "extraction cleanup failed" else pure ()

/-- Clean up and raise. -/
def giveUp (progress : Progress) (e : Exn) : X (List Binding) := do
  cleanup root identity descriptor progress
  throw e

def publish (bindings : List Binding) (destination : Str) : X (List Binding) := do
  let progress : Progress := ⟨bindings, true⟩
  let stagingIsOwned : Except Exn Bool ← (pathMatchesIdentity .again root identity).attempt
  match stagingIsOwned with
  | .error _ => giveUp root identity descriptor progress (.valueError (lit "extraction staging path changed"))
  | .ok false => giveUp root identity descriptor progress (.valueError (lit "extraction staging path changed"))
  | .ok true => do
      let published : Except Exn Unit ← (publishPathExclusive root destination).attempt
      match published with
      | .error (.valueError _) =>
          giveUp root identity descriptor progress (.valueError (lit "destination changed during extraction"))
      | .error e => giveUp root identity descriptor progress e
      | .ok _ => do
          let owned ← publishedPathIsOwned destination identity
          if owned then do
            let _ ← perform (.close .staging descriptor)
            pure bindings
          else giveUp root identity descriptor progress (.valueError (lit "extraction publication identity changed"))

end

def badZip (e : Exn) : Exn := if e = .badZipFile then .valueError (lit "artifact is not a valid ZIP archive") else e

/-- `extract_members`, with the outputs that it binds. -/
def extractMembers (repr : Str → Str) (entries : EntryList) (destination : Str) : X (List Binding) := do
  requireTrustedParent
  let supported : Bool ← perform .probe
  if !supported then throw (.runtimeError (lit "secure extraction is not supported on this platform"))
  else do
    let taken ← anyCall (perform (.present destination))
    if taken then throw (.fileExistsError destination)
    else do
      let capability ← Proc.lift entries.capability
      let (archive, current) ← stableArchive
      let (root, identity) ← makeStaging
      let descriptor ← openStaging root identity
      let extracted : Except (Exn × Progress) (List Binding) ←
        (extractInto repr descriptor archive current capability).attempt
      match extracted with
      | .error (e, progress) => giveUp root identity descriptor progress (badZip e)
      | .ok bindings => publish root identity descriptor bindings destination

end Datasets.Acquisition
