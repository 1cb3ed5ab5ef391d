/-
`posixpath` and `pathlib`, without a file system.

A path is a root and the parts between the slashes, none of them empty or a dot, so paths
that are written differently may be equal.  `normpath` also takes `..` back, and `relpath`
leads from one directory to a path, both seen from a working directory.
-/
import DataEngLab.Lib.Text

namespace Lib

/-- A `PurePosixPath`. -/
structure PurePath where
  root : Str
  parts : List Str
deriving DecidableEq

def slash : Nat := 47

def dot : Str := lit "."

def dotdot : Str := lit ".."

/-- Two slashes are a root of their own; more of them are one. -/
def rootOf : Str → Str
  | 47 :: 47 :: 47 :: _ => [47]
  | 47 :: 47 :: _ => [47, 47]
  | 47 :: _ => [47]
  | _ => []

def components (s : Str) : List Str := (s.splitOn slash).filter fun part => part ≠ [] && part ≠ dot

/-- `"/".join(parts)`, or a dot for nothing. -/
def pathOf (root : Str) (parts : List Str) : Str :=
  if root = [] ∧ parts = [] then dot else root ++ [slash].intercalate parts

namespace PurePath

/-- `Path(s)` -/
def ofText (s : Str) : PurePath := ⟨rootOf s, components s⟩

def asPosix (p : PurePath) : Str := pathOf p.root p.parts

def parent (p : PurePath) : PurePath := ⟨p.root, p.parts.dropLast⟩

/-- `p / s` -/
def join (p : PurePath) (s : Str) : PurePath :=
  if rootOf s = [] then ⟨p.root, p.parts ++ components s⟩ else ofText s

/-- `p.suffix == ".md"`: the name ends so, and not only with a dot before it. -/
def isMarkdown (p : PurePath) : Bool :=
  match p.parts.getLast? with
  | none => false
  | some name => (lit ".md").isSuffixOf name && decide (3 < name.length)

/-- `p.with_suffix("")` of such a path. -/
def withoutSuffix (p : PurePath) : PurePath :=
  match p.parts.getLast? with
  | none => p
  | some name => ⟨p.root, p.parts.dropLast ++ [name.take (name.length - 3)]⟩

end PurePath

/-- The loop of `normpath`; the components so far come last first. -/
def normComponents (rooted : Bool) : List Str → List Str → List Str
  | done, [] => done.reverse
  | done, part :: parts =>
      if part ≠ dotdot || (!rooted && done.isEmpty) || done.head? = some dotdot then
        normComponents rooted (part :: done) parts
      else normComponents rooted done.tail parts

/-- `posixpath.normpath` -/
def normpath (s : Str) : Str := pathOf (rootOf s) (normComponents (rootOf s ≠ []) [] (components s))

/-- The components of `abspath(s)`, in this working directory. -/
def absComponents (cwd s : Str) : List Str :=
  let full := if rootOf s ≠ [] then s else if cwd.getLast? = some slash then cwd ++ s else cwd ++ slash :: s
  components (normpath full)

/-- How many components two paths begin with alike. -/
def commonLength : List Str → List Str → Nat
  | a :: as, b :: bs => if a = b then commonLength as bs + 1 else 0
  | _, _ => 0

/-- `posixpath.relpath` -/
def relpath (cwd path start : Str) : Str :=
  let origin := absComponents cwd start
  let target := absComponents cwd path
  let shared := commonLength origin target
  pathOf [] (List.replicate (origin.length - shared) dotdot ++ target.drop shared)

example : relpath (lit "/home") (lit "docs/guide/b.md") (lit "docs/a") = lit "../guide/b.md" := by decide

end Lib
