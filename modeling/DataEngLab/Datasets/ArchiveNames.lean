/-
What the names of an accepted archive are.

`Tallied` says what the loop of `_validated_members` has kept after some members; one member
keeps it (`addMember_tallied`), so the whole archive does.  On a safe path `pathlib` changes
nothing, and the paths above it are those that it begins with and a slash (`mem_ancestors`), so
the comparison at the end says that no file is above a directory.  That no file is above a file
nobody compares: the names are consistent exactly when it happens to be so (`consistent_iff`).
-/
import DataEngLab.Datasets.Archives

namespace Datasets.Acquisition

open Lib

variable {repr : Str → Str} {limits : ZipLimits} {members : List ZipInfo} {m : ZipInfo}

/-! ### Safe paths -/

theorem isSafe_of_check {s label : Str} (h : validateRelativePath s label = []) : IsSafe s := by
  intro other
  unfold validateRelativePath at h ⊢
  dsimp only at h ⊢
  split_ifs at h ⊢ with hbad
  rfl

theorem checkPath_ok {s label : Str} {u : Unit} (h : checkPath s label = .ok u) : IsSafe s := by
  unfold checkPath at h
  split at h
  · next hnone => exact isSafe_of_check hnone
  · cases h

/-- The parts between the slashes of a safe path. -/
theorem IsSafe.components {s : Str} (h : IsSafe s) :
    s ≠ [] ∧ (∀ part ∈ s.splitOn slash, part ≠ [] ∧ part ≠ dot ∧ part ≠ dotdot) ∧ rootOf s = [] := by
  have hcheck := h []
  unfold validateRelativePath at hcheck
  dsimp only at hcheck
  split_ifs at hcheck with hbad
  simp only [not_or] at hbad
  obtain ⟨hne, -, hroot, hparts, -⟩ := hbad
  refine ⟨hne, fun part hpart => ?_, not_not.mp hroot⟩
  have hnot : ¬ part ∈ [[], dot, dotdot] := fun hmem =>
    hparts (List.any_eq_true.mpr ⟨part, hpart, decide_eq_true hmem⟩)
  simpa using hnot

theorem IsSafe.parts {s : Str} (h : IsSafe s) : (PurePath.ofText s).parts = s.splitOn slash := by
  rw [PurePath.ofText, Lib.components, List.filter_eq_self]
  intro part hpart
  obtain ⟨hne, hdot, -⟩ := h.components.2.1 part hpart
  simp [hne, hdot]

theorem pathOf_parts {parts : List Str} (h : parts ≠ []) : pathOf [] parts = [slash].intercalate parts := by
  rw [pathOf, if_neg fun hc => h hc.2, List.nil_append]

/-- `pathlib` writes a safe path as it is. -/
theorem IsSafe.posixText {s : Str} (h : IsSafe s) : posixText s = s := by
  have hroot : (PurePath.ofText s).root = [] := h.components.2.2
  rw [Acquisition.posixText, PurePath.asPosix, hroot, h.parts, pathOf_parts (List.splitOn_ne_nil _ _),
    List.intercalate_splitOn]

/-- The parts before a point and those after it, with a slash between. -/
theorem intercalate_append : ∀ {front back : List Str}, front ≠ [] → back ≠ [] →
    [slash].intercalate (front ++ back) = [slash].intercalate front ++ slash :: [slash].intercalate back
  | [], _, h, _ => absurd rfl h
  | [a], b :: back, _, _ => by
      rw [List.singleton_append, List.intercalate_cons_cons, List.intercalate_singleton, List.append_assoc,
        List.singleton_append]
  | [_], [], _, h => absurd rfl h
  | a :: b :: front, back, _, hback => by
      have ih := intercalate_append (List.cons_ne_nil b front) hback
      rw [List.cons_append, List.cons_append, List.intercalate_cons_cons, ← List.cons_append, ih,
        List.intercalate_cons_cons]
      simp

/-- **The paths above a safe path are those that it goes on from after a slash.** -/
theorem mem_ancestors {p s : Str} (h : IsSafe s) : p ∈ ancestors s ↔ IsAncestor p s := by
  have hparts := h.parts
  unfold ancestors
  dsimp only
  rw [hparts]
  constructor
  · intro hp
    simp only [List.mem_map, List.mem_filter, List.mem_range, decide_eq_true_eq] at hp
    obtain ⟨n, ⟨hlt, hpos⟩, rfl⟩ := hp
    have hfront : (s.splitOn slash).take n ≠ [] := by
      rw [ne_eq, List.take_eq_nil_iff, not_or]
      exact ⟨Nat.pos_iff_ne_zero.mp hpos, List.splitOn_ne_nil _ _⟩
    have hback : (s.splitOn slash).drop n ≠ [] := by
      rw [ne_eq, List.drop_eq_nil_iff]
      omega
    have hwhole : s = [slash].intercalate ((s.splitOn slash).take n) ++ slash ::
        [slash].intercalate ((s.splitOn slash).drop n) := by
      rw [← intercalate_append hfront hback, List.take_append_drop, List.intercalate_splitOn]
    rw [pathOf_parts hfront]
    refine ⟨[slash].intercalate ((s.splitOn slash).drop n), ?_⟩
    rw [List.append_assoc, List.singleton_append]
    exact hwhole.symm
  · rintro ⟨rest, hrest⟩
    rw [List.append_assoc, List.singleton_append] at hrest
    have hsplit : s.splitOn slash = p.splitOn slash ++ rest.splitOn slash := by
      rw [← hrest, List.splitOn_append_cons_self]
    have hrestpos := List.length_pos_iff.mpr (List.splitOn_ne_nil slash rest)
    have hppos := List.length_pos_iff.mpr (List.splitOn_ne_nil slash p)
    simp only [List.mem_map, List.mem_filter, List.mem_range, decide_eq_true_eq]
    refine ⟨(p.splitOn slash).length, ⟨?_, hppos⟩, ?_⟩
    · rw [hsplit, List.length_append]
      omega
    · rw [hsplit, List.take_left, pathOf_parts (List.splitOn_ne_nil _ _), List.intercalate_splitOn]

/-! ### After some members -/

/-- What the loop has kept of these members. -/
structure Tallied (limits : ZipLimits) (done : List ZipInfo) (seen : Seen) : Prop where
  safe : ∀ m ∈ done, IsSafe (pathOfMember m)
  filePaths : seen.filePaths = (files done).map pathOfMember
  directoryPaths : seen.directoryPaths = (directories done).map pathOfMember
  objectNames : seen.objectNames = (files done).map fun m => baseName m.filename
  totalSize : seen.totalSize = ((files done).map ZipInfo.fileSize).sum
  entries : seen.entries = (files done).map entryOf
  distinctFiles : seen.filePaths.Nodup
  distinctDirectories : seen.directoryPaths.Nodup
  distinctNames : seen.objectNames.Nodup
  memberSize : ∀ f ∈ files done, f.fileSize ≤ maxZipMemberBytes
  ratio : ∀ f ∈ files done, tooDense limits f = false
  total : seen.totalSize ≤ limits.maxTotalExpandedBytes

theorem tallied_nothing : Tallied limits [] Seen.nothing where
  safe _ h := absurd h List.not_mem_nil
  filePaths := rfl
  directoryPaths := rfl
  objectNames := rfl
  totalSize := rfl
  entries := rfl
  distinctFiles := List.nodup_nil
  distinctDirectories := List.nodup_nil
  distinctNames := List.nodup_nil
  memberSize _ h := absurd h List.not_mem_nil
  ratio _ h := absurd h List.not_mem_nil
  total := Nat.zero_le _

theorem files_append_file {done : List ZipInfo} (h : m.isDir = false) : files (done ++ [m]) = files done ++ [m] := by
  simp [files, List.filter_append, h]

theorem files_append_directory {done : List ZipInfo} (h : m.isDir = true) : files (done ++ [m]) = files done := by
  simp [files, List.filter_append, h]

theorem directories_append_file {done : List ZipInfo} (h : m.isDir = false) :
    directories (done ++ [m]) = directories done := by
  simp [directories, List.filter_append, h]

theorem directories_append_directory {done : List ZipInfo} (h : m.isDir = true) :
    directories (done ++ [m]) = directories done ++ [m] := by
  simp [directories, List.filter_append, h]

theorem nodup_concat {names : List Str} {name : Str} (h : names.Nodup) (hnew : names.contains name = false) :
    (names ++ [name]).Nodup := by
  rw [List.nodup_append]
  refine ⟨h, List.nodup_singleton _, fun a ha b hb heq => ?_⟩
  obtain rfl := List.mem_singleton.mp hb
  rw [heq, ← List.contains_iff_mem, hnew] at ha
  cases ha

theorem addDirectory_tallied {done : List ZipInfo} {seen seen' : Seen} (hdir : m.isDir = true)
    (h : addDirectory repr seen m = .ok seen') (ht : Tallied limits done seen) : Tallied limits (done ++ [m]) seen' := by
  simp only [addDirectory, validateDirectoryMember, bind_eq_ok, require_eq_ok, pure_eq_ok, Bool.not_eq_true'] at h
  obtain ⟨path, ⟨_, -, _, hcheck, _, -, _, -, _, -, rfl⟩, _, hnew, rfl⟩ := h
  have hsafe := checkPath_ok hcheck
  have hpath : pathOfMember m = m.filename.dropLast := if_pos hdir
  rw [hsafe.posixText] at hnew
  refine ⟨?_, ?_, ?_, ?_, ?_, ?_, ht.distinctFiles, ?_, ht.distinctNames, ?_, ?_, ht.total⟩
  · intro other hother
    rcases List.mem_append.mp hother with hother | hother
    · exact ht.safe other hother
    · obtain rfl := List.mem_singleton.mp hother
      rw [hpath]
      exact hsafe
  · rw [files_append_directory hdir]
    exact ht.filePaths
  · rw [directories_append_directory hdir, List.map_append, ← ht.directoryPaths, hsafe.posixText]
    exact congrArg (seen.directoryPaths ++ [·]) hpath.symm
  · rw [files_append_directory hdir]
    exact ht.objectNames
  · rw [files_append_directory hdir]
    exact ht.totalSize
  · rw [files_append_directory hdir]
    exact ht.entries
  · rw [hsafe.posixText]
    exact nodup_concat ht.distinctDirectories hnew
  · rw [files_append_directory hdir]
    exact ht.memberSize
  · rw [files_append_directory hdir]
    exact ht.ratio

theorem forall_files_concat {P : ZipInfo → Prop} {done : List ZipInfo} (hfile : m.isDir = false)
    (h : ∀ f ∈ files done, P f) (hm : P m) : ∀ f ∈ files (done ++ [m]), P f := by
  intro f hf
  rw [files_append_file hfile] at hf
  rcases List.mem_append.mp hf with hf | hf
  · exact h f hf
  · obtain rfl := List.mem_singleton.mp hf
    exact hm

theorem addFile_tallied {done : List ZipInfo} {seen seen' : Seen} (hfile : m.isDir = false)
    (h : addFile repr limits seen m = .ok seen') (ht : Tallied limits done seen) :
    Tallied limits (done ++ [m]) seen' := by
  simp only [addFile, bind_eq_ok, require_eq_ok, pure_eq_ok, Bool.not_eq_true', decide_eq_true_eq] at h
  obtain ⟨_, -, _, -, _, hcheck, _, hnewPath, _, hnewName, _, hsize, _, htotal, _, hdense, rfl⟩ := h
  have hsafe := checkPath_ok hcheck
  have hpath : pathOfMember m = m.filename := if_neg (by rw [hfile]; exact Bool.false_ne_true)
  rw [hsafe.posixText] at hnewPath
  refine ⟨?_, ?_, ?_, ?_, ?_, ?_, ?_, ht.distinctDirectories, ?_, ?_, ?_, htotal⟩
  · intro other hother
    rcases List.mem_append.mp hother with hother | hother
    · exact ht.safe other hother
    · obtain rfl := List.mem_singleton.mp hother
      rw [hpath]
      exact hsafe
  · rw [files_append_file hfile, List.map_append, ← ht.filePaths, hsafe.posixText]
    exact congrArg (seen.filePaths ++ [·]) hpath.symm
  · rw [directories_append_file hfile]
    exact ht.directoryPaths
  · rw [files_append_file hfile, List.map_append, ← ht.objectNames]
    rfl
  · rw [files_append_file hfile, List.map_append, List.sum_append, ← ht.totalSize]
    simp
  · rw [files_append_file hfile, List.map_append, ← ht.entries]
    rfl
  · rw [hsafe.posixText]
    exact nodup_concat ht.distinctFiles hnewPath
  · exact nodup_concat ht.distinctNames hnewName
  · exact forall_files_concat hfile ht.memberSize hsize
  · exact forall_files_concat hfile ht.ratio hdense

/-- **One member.** -/
theorem addMember_tallied {done : List ZipInfo} {seen seen' : Seen} (h : addMember repr limits seen m = .ok seen')
    (ht : Tallied limits done seen) : Tallied limits (done ++ [m]) seen' := by
  simp only [addMember, bind_eq_ok] at h
  obtain ⟨-, -, -, -, -, -, h⟩ := h
  cases hdir : m.isDir with
  | true =>
      rw [if_pos hdir] at h
      exact addDirectory_tallied hdir h ht
  | false =>
      rw [if_neg (by rw [hdir]; exact Bool.false_ne_true)] at h
      exact addFile_tallied hdir h ht

/-- The whole archive. -/
theorem members_tallied : ∀ {todo done : List ZipInfo} {seen seen' : Seen},
    todo.foldlM (addMember repr limits) seen = .ok seen' → Tallied limits done seen →
    Tallied limits (done ++ todo) seen'
  | [], done, seen, seen', h, ht => by
      obtain rfl := Except.ok.inj h
      rwa [List.append_nil]
  | m :: todo, done, seen, seen', h, ht => by
      rw [List.foldlM_cons, bind_eq_ok] at h
      obtain ⟨next, hnext, hrest⟩ := h
      have := members_tallied hrest (addMember_tallied hnext ht)
      rwa [List.append_assoc] at this

/-! ### At the end -/

theorem leastText_none {texts : List Str} : leastText texts = none ↔ texts = [] := by
  cases texts with
  | nil => exact ⟨fun _ => rfl, fun _ => rfl⟩
  | cons s rest => exact ⟨fun h => (by cases h), fun h => (by cases h)⟩

theorem leastPair_none {pairs : List (Str × Str)} : leastPair pairs = none ↔ pairs = [] := by
  cases pairs with
  | nil => exact ⟨fun _ => rfl, fun _ => rfl⟩
  | cons s rest => exact ⟨fun h => (by cases h), fun h => (by cases h)⟩

theorem finish_ok {seen : Seen} {entries : List ArchiveEntry} (h : seen.finish repr = .ok entries) :
    entries = seen.entries ∧ (∀ d ∈ seen.directoryPaths, d ∉ seen.filePaths) ∧
      ∀ d ∈ seen.directoryPaths, ∀ p ∈ ancestors d, p ∉ seen.filePaths := by
  unfold Seen.finish at h
  split at h
  · cases h
  next hambiguous =>
  split at h
  · cases h
  next hconflicts =>
  split_ifs at h
  rw [leastText_none, Seen.ambiguousPaths, List.filter_eq_nil_iff] at hambiguous
  rw [leastPair_none, Seen.ancestorConflicts, List.flatMap_eq_nil_iff] at hconflicts
  refine ⟨(Except.ok.inj h).symm, fun d hd hmem => ?_, fun d hd p hp hmem => ?_⟩
  · exact hambiguous d hd (List.contains_iff_mem.mpr hmem)
  · have hnone := List.map_eq_nil_iff.mp (hconflicts d hd)
    exact List.filter_eq_nil_iff.mp hnone p hp (List.contains_iff_mem.mpr hmem)

theorem mem_files {members : List ZipInfo} : m ∈ files members ↔ m ∈ members ∧ m.isDir = false := by
  simp [files]

theorem mem_directories {members : List ZipInfo} : m ∈ directories members ↔ m ∈ members ∧ m.isDir = true := by
  simp [directories]

/-- **The names of an accepted archive are consistent exactly when no file is above a file.** -/
theorem consistent_iff (repr : Str → Str) {entries : List ArchiveEntry}
    (h : validatedMembers repr limits members = .ok entries) :
    Consistent limits members entries ↔
      ∀ f ∈ files members, ∀ g ∈ files members, ¬ IsAncestor f.filename g.filename := by
  simp only [validatedMembers, bind_eq_ok] at h
  obtain ⟨-, -, seen, hseen, hfinish⟩ := h
  have ht := members_tallied hseen tallied_nothing
  rw [List.nil_append] at ht
  obtain ⟨hentries, hambiguous, hconflicts⟩ := finish_ok hfinish
  have hfile : ∀ {f}, f ∈ files members → pathOfMember f = f.filename := fun hf =>
    if_neg (by rw [(mem_files.mp hf).2]; exact Bool.false_ne_true)
  constructor
  · intro hc f hf g hg
    have := hc.ancestor f hf g (mem_files.mp hg).1
    rwa [hfile hf, hfile hg] at this
  · intro hfiles
    refine ⟨ht.safe, ?_, ?_, ?_, ?_, ?_, ht.memberSize, ?_, ?_, ?_⟩
    · rw [← ht.filePaths]
      exact ht.distinctFiles
    · rw [← ht.directoryPaths]
      exact ht.distinctDirectories
    · rw [hentries, ht.entries, List.map_map]
      have hnames := ht.distinctNames
      rw [ht.objectNames] at hnames
      exact hnames
    · intro f hf d hd heq
      have hdirectory : pathOfMember d ∈ seen.directoryPaths := ht.directoryPaths ▸ List.mem_map_of_mem hd
      exact hambiguous _ hdirectory (ht.filePaths ▸ heq ▸ List.mem_map_of_mem hf)
    · intro f hf m hm habove
      cases hdir : m.isDir with
      | false =>
          have hg := mem_files.mpr ⟨hm, hdir⟩
          rw [hfile hf, hfile hg] at habove
          exact hfiles f hf m hg habove
      | true =>
          have hd := mem_directories.mpr ⟨hm, hdir⟩
          have hdirectory : pathOfMember m ∈ seen.directoryPaths := ht.directoryPaths ▸ List.mem_map_of_mem hd
          exact hconflicts _ hdirectory _ ((mem_ancestors (ht.safe m hm)).mpr habove)
            (ht.filePaths ▸ List.mem_map_of_mem hf)
    · intro f hf
      have hdense := ht.ratio f hf
      simp only [tooDense, Bool.and_eq_false_iff, bne_eq_false_iff_eq, Bool.or_eq_false_iff, beq_eq_false_iff_ne,
        decide_eq_false_iff_not, not_lt] at hdense
      exact hdense
    · rw [← ht.totalSize]
      exact ht.total
    · rw [hentries, ht.entries]

/-- A stored regular file of one byte, from a Unix. -/
def oneByte (filename : Str) : ZipInfo := ⟨filename, 0, 0, 3, 0x81A40000, 1, 1⟩

/-- The default limits. -/
def defaultLimits : ZipLimits := ⟨10000, 67108864, 8589934592, 200⟩

theorem consistent_two_files : Consistent defaultLimits [oneByte (lit "a/b"), oneByte (lit "a/c")]
    [⟨lit "a/b", lit "b", 1⟩, ⟨lit "a/c", lit "c", 1⟩] := by
  refine (consistent_iff id (by decide +kernel)).mpr ?_
  intro f hf g hg
  have hfiles : files [oneByte (lit "a/b"), oneByte (lit "a/c")] = [oneByte (lit "a/b"), oneByte (lit "a/c")] := rfl
  rw [hfiles, List.mem_cons, List.mem_singleton] at hf hg
  rintro ⟨rest, hrest⟩
  have hlength := congrArg List.length hrest
  rcases hf with rfl | rfl <;> rcases hg with rfl | rfl <;>
    · simp only [List.length_append, List.length_cons, List.length_nil] at hlength
      have hshort : (lit "a/b").length = 3 ∧ (lit "a/c").length = 3 := by decide
      simp only [oneByte] at hlength
      omega

/-- The file `a` is above the file `a/b`, and both are accepted. -/
theorem file_above_file_accepted : validatedMembers id defaultLimits [oneByte (lit "a"), oneByte (lit "a/b")] =
      .ok [⟨lit "a", lit "a", 1⟩, ⟨lit "a/b", lit "b", 1⟩] ∧
    ¬ Consistent defaultLimits [oneByte (lit "a"), oneByte (lit "a/b")]
      [⟨lit "a", lit "a", 1⟩, ⟨lit "a/b", lit "b", 1⟩] := by
  refine ⟨by decide +kernel, fun h => ?_⟩
  exact h.ancestor (oneByte (lit "a")) (by decide) (oneByte (lit "a/b")) (by decide) ⟨lit "b", by decide⟩

end Datasets.Acquisition
