/-
The parent directory while an archive is extracted.

`Disk.effect` says what each call does to the parent and to the directories in it, when it succeeds
and when it fails; nobody else changes anything.  All that the program ever makes there is one
directory, and `At` says under which name it is.  Only three calls move it: the one that makes it, a
rename and the removal.

The program loses the directory, and leaves it where it is, when it cannot see that it is its own
(`obstructs`), or finds eight names taken.  `quarantineOwnedPath_run` is the statement for the way out.
-/
import DataEngLab.Datasets.Extraction

namespace Datasets.Acquisition

open Lib

/-! ### The disk -/

structure File where
  identity : Inode
  bytes : Bytes

abbrev Folder := List (Str × File)

/-- The parent directory, the directories in it, and what is left of the member that is read. -/
structure Disk where
  names : Str → Option Inode
  folders : Inode → Option Folder
  source : Bytes

/-- What `zipfile` makes of an archive: its members, and the bytes of one. -/
structure ZipReading where
  members : Bytes → List ZipInfo
  content : Bytes → ZipInfo → Bytes

def Folder.file (files : Folder) (name : Str) : Option File := List.lookup name files

/-- The folder with other bytes in the file of this name. -/
def Folder.setBytes (files : Folder) (name : Str) (bytes : Bytes) : Folder :=
  files.map fun item => if item.1 = name then (item.1, { item.2 with bytes := bytes }) else item

namespace Disk

variable (d : Disk)

def setName (name : Str) (i : Option Inode) : Disk := { d with names := Function.update d.names name i }

def setFolder (i : Inode) (files : Folder) : Disk := { d with folders := Function.update d.folders i (some files) }

@[simp] theorem setName_names (name : Str) (i : Option Inode) :
    (d.setName name i).names = Function.update d.names name i := rfl

@[simp] theorem setName_folders (name : Str) (i : Option Inode) : (d.setName name i).folders = d.folders := rfl

@[simp] theorem setFolder_names (i : Inode) (files : Folder) : (d.setFolder i files).names = d.names := rfl

@[simp] theorem setFolder_folders (i : Inode) (files : Folder) :
    (d.setFolder i files).folders = Function.update d.folders i (some files) := rfl

/-- The file of this name in this directory. -/
def file (i : Inode) (name : Str) : Option File := (d.folders i).bind fun files => files.file name

def isDir (i : Inode) : Bool := (d.folders i).isSome

/-- What a call makes of the disk, according to its answer. -/
def effect (z : ZipReading) : (e : Call) → Answer e → Disk → Prop
  | .present name => fun (r : Except Exn Bool) d' => d' = d ∧ ∀ b, r = .ok b → b = (d.names name).isSome
  | .mkdtemp => fun (r : Except Errno Str) d' => match r with
      | .ok name => d.names name = none ∧ ∃ i, (∀ other, d.names other ≠ some i) ∧
          d' = (d.setName name (some i)).setFolder i []
      | .error _ => d' = d
  | .lstat _ name => fun (r : Except Errno Status) d' => d' = d ∧
      ∀ status, r = .ok status → d.names name = some status.identity ∧ status.isDir = d.isDir status.identity
  | .openFolder _ name => fun (r : Except Errno Inode) d' => d' = d ∧
      ∀ i, r = .ok i → d.names name = some i ∧ d.isDir i = true
  | .fstat _ i => fun (r : Except Errno Status) d' => d' = d ∧ ∀ status, r = .ok status → status = ⟨d.isDir i, i⟩
  | .readDirectory archive => fun (r : Except Exn (List ZipInfo)) d' => d' = d ∧
      ∀ infos, r = .ok infos → infos = z.members archive
  | .createOutput i name => fun (r : Except Errno Unit) d' => match r with
      | .ok _ => ∃ files identity, d.folders i = some files ∧ name ∉ files.map Prod.fst ∧
          d' = d.setFolder i (files ++ [(name, ⟨identity, []⟩)])
      | .error _ => d' = d
  | .createdIdentity i name => fun (r : Except Errno Inode) d' => d' = d ∧
      ∀ identity, r = .ok identity → (d.file i name).map File.identity = some identity
  | .openMember archive member => fun (r : Except Exn Unit) d' => match r with
      | .ok _ => d' = { d with source := z.content archive member }
      | .error _ => d' = d
  -- at the end of the member, and only there, nothing is read
  | .readMember => fun (r : Except Exn Bytes) d' => match r with
      | .ok chunk => (chunk = [] ↔ d.source = []) ∧ d.source = chunk ++ d'.source ∧
          d' = { d with source := d'.source }
      | .error _ => d' = d
  -- what does not succeed may have written anything
  | .write i name chunk => fun (r : Except Exn Unit) d' => match r with
      | .ok _ => ∃ files file, d.folders i = some files ∧ files.file name = some file ∧
          d' = d.setFolder i (files.setBytes name (file.bytes ++ chunk))
      | .error _ => ∃ files bytes, d.folders i = some files ∧ d' = d.setFolder i (files.setBytes name bytes)
  | .closeTarget i name => fun (r : Except Exn Unit) d' => match r with
      | .ok _ => d' = d
      | .error _ => ∃ files bytes, d.folders i = some files ∧ d' = d.setFolder i (files.setBytes name bytes)
  | .outputIdentity i name => fun (r : Except Errno Inode) d' => d' = d ∧
      ∀ identity, r = .ok identity → (d.file i name).map File.identity = some identity
  | .outputDigest i name => fun (r : Except Exn Str) d' => d' = d ∧
      ∀ digest, r = .ok digest → (d.file i name).map (fun file => sha256 file.bytes) = some digest
  | .rename _ source target => fun (r : Except Errno Unit) d' => match r with
      | .ok _ => ∃ i, d.names source = some i ∧ d.names target = none ∧
          d' = (d.setName source none).setName target (some i)
      | .error n => d' = d ∧ (n = enoent → d.names source = none)
  | .rmtree name => fun (r : Except Errno Unit) d' => match r with
      | .ok _ => d' = d.setName name none
      | .error _ => ∃ i files, d.names name = some i ∧ d' = d.setFolder i files
  | _ => fun _ d' => d' = d

end Disk

/-- The disk, and what was called, newest first. -/
structure World where
  disk : Disk
  log : List (Event Call Answer)

def step (z : ZipReading) : Step World Call Answer := fun w e r w' =>
  w'.log = ⟨e, r⟩ :: w.log ∧ w.disk.effect z e r w'.disk

variable {z : ZipReading} {α : Type} {w w' : World} {d₀ : Disk} {i : Inode} {name : Str}

/-! ### What every call keeps -/

theorem only_all (p : Prog Call Answer α) : Only (fun _ => True) p := by
  induction p with
  | pure a => trivial
  | call e k ih => exact ⟨trivial, ih⟩

/-- The frame rule for one assertion. -/
theorem keeps (I : World → Prop) {P : Call → Prop} {p : Prog Call Answer α} {a : α}
    (hcall : ∀ m e r m', P e → step z m e r m' → I m → I m') (hp : Only P p) (h : Runs (step z) p w a w')
    (hI : I w) : I w' := Runs.keeps hcall hp h hI

/-- The log only grows. -/
theorem runs_log {p : Prog Call Answer α} {a : α} (h : Runs (step z) p w a w') : ∃ since, w'.log = since ++ w.log := by
  refine keeps (fun m => ∃ since, m.log = since ++ w.log) ?_ (only_all p) h ⟨[], rfl⟩
  rintro m e r m' - ⟨hlog, -⟩ ⟨since, hsince⟩
  exact ⟨⟨e, r⟩ :: since, by rw [hlog, hsince, List.cons_append]⟩

theorem mem_log {p : Prog Call Answer α} {a : α} (h : Runs (step z) p w a w') {x : Event Call Answer} (hx : x ∈ w.log) :
    x ∈ w'.log := by
  obtain ⟨since, hsince⟩ := runs_log h
  exact hsince ▸ List.mem_append_right since hx

theorem isDir_setFolder {d : Disk} {j : Inode} {files : Folder} (h : d.isDir i = true) :
    (d.setFolder j files).isDir i = true := by
  unfold Disk.isDir at h ⊢
  by_cases hij : i = j
  · rw [hij, Disk.setFolder_folders, Function.update_self]
    rfl
  · rw [Disk.setFolder_folders, Function.update_of_ne hij]
    exact h

/-- What is a directory stays one. -/
theorem isDir_effect {d d' : Disk} {e : Call} {r : Answer e} (h : d.effect z e r d') (hdir : d.isDir i = true) :
    d'.isDir i = true := by
  cases e <;> first
    | exact (h : d' = d) ▸ hdir
    | exact (h.1 : d' = d) ▸ hdir
    | skip
  case mkdtemp =>
    cases r with
    | error n => exact (h : d' = d) ▸ hdir
    | ok name =>
        obtain ⟨-, j, -, rfl⟩ := h
        exact isDir_setFolder hdir
  case createOutput j name =>
    cases r with
    | error n => exact (h : d' = d) ▸ hdir
    | ok u =>
        obtain ⟨files, identity, -, -, rfl⟩ := h
        exact isDir_setFolder hdir
  case openMember archive member =>
    cases r with
    | error n => exact (h : d' = d) ▸ hdir
    | ok u => exact (h : d' = { d with source := z.content archive member }) ▸ hdir
  case readMember =>
    cases r with
    | error n => exact (h : d' = d) ▸ hdir
    | ok chunk => exact h.2.2 ▸ hdir
  case write j name chunk =>
    cases r with
    | error n =>
        obtain ⟨files, bytes, -, rfl⟩ := h
        exact isDir_setFolder hdir
    | ok u =>
        obtain ⟨files, file, -, -, rfl⟩ := h
        exact isDir_setFolder hdir
  case closeTarget j name =>
    cases r with
    | error n =>
        obtain ⟨files, bytes, -, rfl⟩ := h
        exact isDir_setFolder hdir
    | ok u => exact (h : d' = d) ▸ hdir
  case rename site source target =>
    cases r with
    | error n => exact h.1 ▸ hdir
    | ok u =>
        obtain ⟨j, -, -, rfl⟩ := h
        exact hdir
  case rmtree name =>
    cases r with
    | error n =>
        obtain ⟨j, files, -, rfl⟩ := h
        exact isDir_setFolder hdir
    | ok u => exact (h : d' = d.setName name none) ▸ hdir

theorem runs_isDir {p : Prog Call Answer α} {a : α} (h : Runs (step z) p w a w') (hdir : w.disk.isDir i = true) :
    w'.disk.isDir i = true :=
  keeps (fun m => m.disk.isDir i = true) (fun _ _ _ _ _ hstep hm => isDir_effect hstep.2 hm) (only_all p) h hdir

/-- The calls that change the names in the parent. -/
def Moves : Call → Prop
  | .mkdtemp => True
  | .rename _ _ _ => True
  | .rmtree _ => True
  | _ => False

/-- A program that changes no names in the parent. -/
def Stays (p : Prog Call Answer α) : Prop := Only (fun e => ¬ Moves e) p

theorem names_effect {d d' : Disk} {e : Call} {r : Answer e} (h : d.effect z e r d') (hmoves : ¬ Moves e) :
    d'.names = d.names := by
  cases e <;> first
    | exact congrArg Disk.names (h : d' = d)
    | exact congrArg Disk.names (h.1 : d' = d)
    | exact absurd trivial hmoves
    | skip
  case createOutput j name =>
    cases r with
    | error n => exact congrArg Disk.names (h : d' = d)
    | ok u =>
        obtain ⟨files, identity, -, -, rfl⟩ := h
        rfl
  case openMember archive member =>
    cases r with
    | error n => exact congrArg Disk.names (h : d' = d)
    | ok u =>
        obtain rfl : d' = { d with source := z.content archive member } := h
        rfl
  case readMember =>
    cases r with
    | error n => exact congrArg Disk.names (h : d' = d)
    | ok chunk => rw [h.2.2]
  case write j name chunk =>
    cases r with
    | error n =>
        obtain ⟨files, bytes, -, rfl⟩ := h
        rfl
    | ok u =>
        obtain ⟨files, file, -, -, rfl⟩ := h
        rfl
  case closeTarget j name =>
    cases r with
    | error n =>
        obtain ⟨files, bytes, -, rfl⟩ := h
        rfl
    | ok u => exact congrArg Disk.names (h : d' = d)

theorem Stays.names {p : Prog Call Answer α} (hp : Stays p) {a : α} (h : Runs (step z) p w a w') :
    w'.disk.names = w.disk.names :=
  keeps (fun m => m.disk.names = w.disk.names)
    (fun _ _ _ _ hmoves hstep hm => (names_effect hstep.2 hmoves).trans hm) hp h rfl

/-! ### The directory that was made -/

/-- The parent is as at the beginning, and has the directory under this name. -/
structure At (d₀ : Disk) (i : Inode) (name : Str) (d : Disk) : Prop where
  names : d.names = Function.update d₀.names name (some i)
  free : d₀.names name = none
  isDir : d.isDir i = true

theorem At.here {d : Disk} (h : At d₀ i name d) : d.names name = some i := by
  rw [h.names, Function.update_self]

theorem At.stays {p : Prog Call Answer α} (hp : Stays p) {a : α} (hat : At d₀ i name w.disk)
    (h : Runs (step z) p w a w') : At d₀ i name w'.disk :=
  ⟨(hp.names h).trans hat.names, hat.free, runs_isDir h hat.isDir⟩

/-- A rename moves it. -/
theorem At.renamed {d d' : Disk} {site : Site} {target : Str} (hat : At d₀ i name d)
    (h : d.effect z (.rename site name target) (.ok ()) d') : At d₀ i target d' := by
  obtain ⟨j, hj, htarget, rfl⟩ := h
  obtain rfl : i = j := Option.some.inj (hat.here.symm.trans hj)
  have hne : target ≠ name := by
    rintro rfl
    rw [hat.here] at htarget
    cases htarget
  have hfree : d₀.names target = none := by
    rw [hat.names, Function.update_of_ne hne] at htarget
    exact htarget
  refine ⟨?_, hfree, hat.isDir⟩
  rw [Disk.setName_names, Disk.setName_names, hat.names, Function.update_idem, ← hat.free, Function.update_eq_self]

/-- The removal takes it away. -/
theorem At.removed {d d' : Disk} (hat : At d₀ i name d) (h : d.effect z (.rmtree name) (.ok ()) d') :
    d'.names = d₀.names := by
  obtain rfl : d' = d.setName name none := h
  rw [Disk.setName_names, hat.names, Function.update_idem, ← hat.free, Function.update_eq_self]

/-! ### Losing the directory -/

/-- A step by which the program makes sure that a directory is its own goes wrong. -/
def obstructs : Event Call Answer → Bool
  | ⟨.lstat .staging _, r⟩ => failed (r : Except Errno Status)
  | ⟨.lstat .published _, r⟩ => failed (r : Except Errno Status)
  | ⟨.lstat .quarantine _, r⟩ => failed (r : Except Errno Status)
  | ⟨.openFolder .quarantine _, r⟩ => failed (r : Except Errno Inode)
  | ⟨.fstat .quarantine _, r⟩ => failed (r : Except Errno Status)
  | ⟨.close .quarantine _, r⟩ => failed (r : Except Errno Unit)
  | ⟨.rename .quarantine _ _, r⟩ => match (r : Except Errno Unit) with
      | .ok _ => false
      | .error n => n != eexist && n != enotdir && n != enoent
  | _ => false

/-- A name for the quarantine is taken. -/
def isTaken : Event Call Answer → Bool
  | ⟨.rename .quarantine _ _, r⟩ => match (r : Except Errno Unit) with
      | .ok _ => false
      | .error n => n == eexist || n == enotdir
  | _ => false

/-- A removal fails. -/
def isStuck : Event Call Answer → Bool
  | ⟨.rmtree _, r⟩ => failed (r : Except Errno Unit)
  | _ => false

/-- The program has lost sight of its directory. -/
def Loses (log : List (Event Call Answer)) : Prop := (∃ x ∈ log, obstructs x = true) ∨ 8 ≤ log.countP isTaken

def RemovalFails (log : List (Event Call Answer)) : Prop := ∃ x ∈ log, isStuck x = true

/-- The directory is gone, or the program has lost it, or could not remove it. -/
def Cleared (d₀ : Disk) (i : Inode) (w : World) : Prop :=
  w.disk.names = d₀.names ∨ (∃ name, At d₀ i name w.disk) ∧ (Loses w.log ∨ RemovalFails w.log)

section
variable {p : Prog Call Answer α} {a : α}

theorem Loses.later (hlost : Loses w.log) (h : Runs (step z) p w a w') : Loses w'.log := by
  obtain ⟨since, hsince⟩ := runs_log h
  rcases hlost with ⟨x, hx, hobstructs⟩ | hcount
  · exact .inl ⟨x, mem_log h hx, hobstructs⟩
  · refine .inr ?_
    rw [hsince, List.countP_append]
    omega

theorem RemovalFails.later (hfails : RemovalFails w.log) (h : Runs (step z) p w a w') : RemovalFails w'.log := by
  obtain ⟨x, hx, hstuck⟩ := hfails
  exact ⟨x, mem_log h hx, hstuck⟩

theorem Cleared.later (hc : Cleared d₀ i w) (hp : Stays p) (h : Runs (step z) p w a w') : Cleared d₀ i w' := by
  rcases hc with hgone | ⟨⟨name, hat⟩, hlost | hfails⟩
  · exact .inl ((hp.names h).trans hgone)
  · exact .inr ⟨⟨name, hat.stays hp h⟩, .inl (hlost.later h)⟩
  · exact .inr ⟨⟨name, hat.stays hp h⟩, .inr (hfails.later h)⟩

theorem cleared_of_event {x : Event Call Answer} (hat : At d₀ i name w.disk) (hx : x ∈ w.log)
    (hobstructs : obstructs x = true) : Cleared d₀ i w :=
  .inr ⟨⟨name, hat⟩, .inl (.inl ⟨x, hx, hobstructs⟩)⟩

end

/-- A call, and what follows its answer. -/
theorem runs_ask {β : Type} {e : Call} {f : Answer e → X β} {r : Except Exn β} :
    Runs (step z) (perform e >>= f : X β) w r w' ↔ ∃ a m, step z w e a m ∧ Runs (step z) (f a) m r w' :=
  runs_perform_bind

/-- A call of the system raises, or goes on with what it returns. -/
theorem runs_osCall {β γ : Type} {x : X (Except Errno β)} {f : β → X γ} {r : Except Exn γ}
    (h : Runs (step z) (osCall x >>= f : X γ) w r w') :
    (∃ e, Runs (step z) x w (.error e) w' ∧ r = .error e) ∨
      (∃ n, Runs (step z) x w (.ok (.error n)) w' ∧ r = .error (.osError n)) ∨
      ∃ b m, Runs (step z) x w (.ok (.ok b)) m ∧ Runs (step z) (f b) m r w' := by
  rcases runs_bind.mp h with ⟨e, hcall, rfl⟩ | ⟨b, m, hcall, hf⟩
  · rcases runs_bind.mp hcall with ⟨e', hx, he⟩ | ⟨a, m, hx, hlift⟩
    · obtain rfl := Except.error.inj he
      exact .inl ⟨e, hx, rfl⟩
    · obtain ⟨ha, rfl⟩ := runs_lift.mp hlift
      cases a with
      | ok b => cases ha
      | error n =>
          obtain rfl := Except.error.inj ha
          exact .inr (.inl ⟨n, hx, rfl⟩)
  · rcases runs_bind.mp hcall with ⟨e', -, he⟩ | ⟨a, m', hx, hlift⟩
    · cases he
    · obtain ⟨ha, rfl⟩ := runs_lift.mp hlift
      cases a with
      | error n => cases ha
      | ok c =>
          obtain rfl := Except.ok.inj ha
          exact .inr (.inr ⟨c, m', hx, hf⟩)

/-! ### Looking at the directory -/

theorem mem_log_step {e : Call} {a : Answer e} (h : step z w e a w') : ⟨e, a⟩ ∈ w'.log := by
  rw [h.1]
  exact List.mem_cons_self

/-- A call that changes no names. -/
theorem At.step {e : Call} {a : Answer e} (hat : At d₀ i name w.disk) (h : step z w e a w') (he : ¬ Moves e) :
    At d₀ i name w'.disk :=
  ⟨(names_effect h.2 he).trans hat.names, hat.free, isDir_effect h.2 hat.isDir⟩

/-- Opening the directory: it is seen to be the one that was made, or an event says why not. -/
theorem openOwnedPath_run {site : Site} {r : Except Exn Inode} (h : Runs (step z) (openOwnedPath site name i) w r w')
    (hat : At d₀ i name w.disk) : At d₀ i name w'.disk ∧
      ((∃ j, r = .ok j) ∨ (site = .quarantine → ∃ x ∈ w'.log, obstructs x = true)) := by
  obtain ⟨opened, m, hopened, h⟩ := runs_ask.mp h
  have hat := hat.step hopened id
  cases opened with
  | error n =>
      obtain ⟨-, rfl⟩ := runs_throw.mp h
      refine ⟨hat, .inr ?_⟩
      rintro rfl
      exact ⟨_, mem_log_step hopened, rfl⟩
  | ok j =>
      obtain ⟨status, m', hstatus, h⟩ := runs_ask.mp h
      have hat' := hat.step hstatus id
      cases status with
      | error n =>
          obtain ⟨closed, m'', hclosed, h⟩ := runs_ask.mp h
          obtain ⟨-, rfl⟩ := runs_throw.mp h
          refine ⟨hat'.step hclosed id, .inr ?_⟩
          rintro rfl
          rw [hclosed.1]
          exact ⟨_, List.mem_cons_of_mem _ (mem_log_step hstatus), rfl⟩
      | ok status =>
          have hj : j = i := by
            have hname := (hopened.2.2 j rfl).1
            rw [← hopened.2.1, hat.here] at hname
            exact (Option.some.inj hname).symm
          have hsame : status = ⟨true, i⟩ := by
            rw [hstatus.2.2 status rfl, hj, hat.isDir]
          rw [hsame] at h
          dsimp only at h
          rw [if_neg (by simp)] at h
          obtain ⟨rfl, rfl⟩ := runs_pure.mp h
          exact ⟨hat', .inl ⟨j, rfl⟩⟩

/-- Looking at its name. -/
theorem pathMatchesIdentity_run {site : Site} {r : Except Exn Bool}
    (h : Runs (step z) (pathMatchesIdentity site name i) w r w') (hat : At d₀ i name w.disk) :
    At d₀ i name w'.disk ∧ (r = .ok true ∨ (site = .published → ∃ x ∈ w'.log, obstructs x = true)) := by
  obtain ⟨current, m, hcurrent, h⟩ := runs_ask.mp h
  have hat' := hat.step hcurrent id
  cases current with
  | error n =>
      have hw : w' = m := by
        dsimp only at h
        split_ifs at h
        · exact (runs_pure.mp h).2.symm
        · exact (runs_throw.mp h).2.symm
      subst hw
      refine ⟨hat', .inr ?_⟩
      rintro rfl
      exact ⟨_, mem_log_step hcurrent, rfl⟩
  | ok status =>
      obtain ⟨rfl, rfl⟩ := runs_pure.mp h
      obtain ⟨hname, hdir⟩ := hcurrent.2.2 status rfl
      rw [hat.here] at hname
      have hidentity := Option.some.inj hname
      refine ⟨hat', .inl ?_⟩
      rw [hdir, ← hidentity, hat.isDir, beq_self_eq_true, Bool.true_and]

/-- **After the publication the directory is seen to be the one that was made, or an event says why not.** -/
theorem publishedPathIsOwned_run {r : Except Exn Bool} (h : Runs (step z) (publishedPathIsOwned name i) w r w')
    (hat : At d₀ i name w.disk) : At d₀ i name w'.disk ∧ (r = .ok true ∨ ∃ x ∈ w'.log, obstructs x = true) := by
  obtain ⟨opened, m, hopened, h⟩ := runs_attempt_bind.mp h
  obtain ⟨hat, -⟩ := openOwnedPath_run hopened hat
  cases opened with
  | ok j =>
      obtain ⟨closed, m', hclosed, h⟩ := runs_ask.mp h
      obtain ⟨rfl, rfl⟩ := runs_pure.mp h
      exact ⟨hat.step hclosed id, .inl rfl⟩
  | error e =>
      obtain ⟨matching, m', hmatching, h⟩ := runs_attempt_bind.mp h
      obtain ⟨hat, hseen⟩ := pathMatchesIdentity_run hmatching hat
      rcases hseen with rfl | hevent
      · obtain ⟨rfl, rfl⟩ := runs_pure.mp h
        exact ⟨hat, .inl rfl⟩
      · have hw : w' = m' := by
          cases matching with
          | error e => exact (runs_pure.mp h).2.symm
          | ok same => exact (runs_pure.mp h).2.symm
        subst hw
        exact ⟨hat, .inr (hevent rfl)⟩

/-! ### The way out -/

/-- Reserving a name: the directory is there, or it is where it was. -/
theorem reserveQuarantine_run : ∀ {attempts : Nat} {w : World} {r : Except Exn (Option Str)},
    Runs (step z) (reserveQuarantine name attempts) w r w' → At d₀ i name w.disk →
    (∃ quarantine, r = .ok (some quarantine) ∧ At d₀ i quarantine w'.disk) ∨
      (∃ e, r = .error e) ∧ At d₀ i name w'.disk ∧
        ((∃ x ∈ w'.log, obstructs x = true) ∨ w.log.countP isTaken + attempts ≤ w'.log.countP isTaken)
  | 0, w, r, h, hat => by
      obtain ⟨rfl, rfl⟩ := runs_throw.mp h
      exact .inr ⟨⟨_, rfl⟩, hat, .inr le_rfl⟩
  | attempts + 1, w, r, h, hat => by
      obtain ⟨token, m, htoken, h⟩ := runs_ask.mp h
      have hat := hat.step htoken id
      obtain ⟨renamed, m', hrenamed, h⟩ := runs_ask.mp h
      cases renamed with
      | ok u =>
          obtain ⟨rfl, rfl⟩ := runs_pure.mp h
          exact .inl ⟨_, rfl, hat.renamed hrenamed.2⟩
      | error n =>
          obtain ⟨hdisk, habsent⟩ := hrenamed.2
          have hat' : At d₀ i name m'.disk := hdisk ▸ hat
          have hcount : m'.log.countP isTaken =
              w.log.countP isTaken + if n = eexist ∨ n = enotdir then 1 else 0 := by
            rw [hrenamed.1, htoken.1, List.countP_cons, List.countP_cons]
            simp [isTaken]
          dsimp only at h
          split_ifs at h with htaken hgone
          · rw [if_pos htaken] at hcount
            rcases reserveQuarantine_run h hat' with hfound | ⟨herror, hthere, hevent | hmore⟩
            · exact .inl hfound
            · exact .inr ⟨herror, hthere, .inl hevent⟩
            · refine .inr ⟨herror, hthere, .inr ?_⟩
              omega
          · have hnone := habsent hgone
            rw [hat.here] at hnone
            cases hnone
          · obtain ⟨rfl, rfl⟩ := runs_throw.mp h
            refine .inr ⟨⟨_, rfl⟩, hat', .inl ⟨_, mem_log_step hrenamed, ?_⟩⟩
            simp only [obstructs, Bool.and_eq_true, bne_iff_ne]
            exact ⟨⟨fun hn => htaken (.inl hn), fun hn => htaken (.inr hn)⟩, hgone⟩

/-- **The way out: the directory is gone, or the program has lost it, or could not remove it.** -/
theorem quarantineOwnedPath_run {r : Except Exn Unit} (h : Runs (step z) (quarantineOwnedPath name i) w r w')
    (hat : At d₀ i name w.disk) : Cleared d₀ i w' := by
  rcases runs_bind.mp h with ⟨e, hreserve, -⟩ | ⟨reserved, m, hreserve, h⟩
  · rcases reserveQuarantine_run hreserve hat with ⟨_, hr, -⟩ | ⟨-, hat, hlost⟩
    · cases hr
    · refine .inr ⟨⟨name, hat⟩, .inl (hlost.imp id fun hcount => ?_)⟩
      omega
  rcases reserveQuarantine_run hreserve hat with ⟨quarantine, hr, hat⟩ | ⟨⟨_, hr⟩, -⟩
  swap
  · cases hr
  obtain rfl := Except.ok.inj hr
  obtain ⟨opened, m', hopened, h⟩ := runs_attempt_bind.mp h
  obtain ⟨hopen, hseen⟩ := openOwnedPath_run hopened hat
  cases opened with
  | error e =>
      have hw : w' = m' := by
        cases e <;> first | exact (runs_pure.mp h).2.symm | exact (runs_throw.mp h).2.symm
      subst hw
      rcases hseen with ⟨_, hr⟩ | hevent
      · cases hr
      · obtain ⟨x, hx, hobstructs⟩ := hevent rfl
        exact cleared_of_event hopen hx hobstructs
  | ok j =>
      obtain ⟨current, m₁, hcurrent, h⟩ := runs_ask.mp h
      have hat := hopen.step hcurrent id
      rcases runs_osCall h with ⟨e, hclose, -⟩ | ⟨n, hclose, -⟩ | ⟨u, m₂, hclose, h⟩
      · obtain ⟨_, ha, -⟩ := runs_perform.mp hclose
        cases ha
      · obtain ⟨closed, ha, hclosed⟩ := runs_perform.mp hclose
        obtain rfl := Except.ok.inj ha
        exact cleared_of_event (hat.step hclosed id) (mem_log_step hclosed) rfl
      · obtain ⟨closed, ha, hclosed⟩ := runs_perform.mp hclose
        obtain rfl := Except.ok.inj ha
        have hat' := hat.step hclosed id
        cases current with
        | error n =>
            rcases runs_lift_bind.mp h with ⟨_, -, -, rfl⟩ | ⟨_, hstatus, -⟩
            · have hevent : (⟨.lstat .quarantine quarantine, .error n⟩ : Event Call Answer) ∈ m₂.log := by
                rw [hclosed.1]
                exact List.mem_cons_of_mem _ (mem_log_step hcurrent)
              exact cleared_of_event hat' hevent rfl
            · cases hstatus
        | ok status =>
            rcases runs_lift_bind.mp h with ⟨_, hstatus, -⟩ | ⟨status', hstatus, h⟩
            · cases hstatus
            obtain rfl : status = status' := Except.ok.inj hstatus
            have hsame : status = ⟨true, i⟩ := by
              obtain ⟨hname, hdir⟩ := hcurrent.2.2 status rfl
              rw [hopen.here] at hname
              have hidentity := Option.some.inj hname
              rw [← hidentity, hopen.isDir] at hdir
              exact Status.ext hdir hidentity.symm
            rw [hsame, if_neg (by simp)] at h
            obtain ⟨removed, m₃, hremoved, h⟩ := runs_ask.mp h
            obtain ⟨-, rfl⟩ := runs_lift.mp h
            cases removed with
            | ok v => exact .inl (hat'.removed hremoved.2)
            | error n =>
                obtain ⟨k, files, -, hdisk⟩ := hremoved.2
                refine .inr ⟨⟨quarantine, ?_, hat'.free, isDir_effect hremoved.2 hat'.isDir⟩,
                  .inr ⟨_, mem_log_step hremoved, rfl⟩⟩
                rw [hdisk, Disk.setFolder_names]
                exact hat'.names

/-! ### What stays where it is -/

theorem stays_perform {e : Call} (h : ¬ Moves e) : Stays (perform e) := Only.perform h

theorem Stays.bind {β γ : Type} {x : X β} {f : β → X γ} (hx : Stays x) (hf : ∀ b, Stays (f b)) :
    Stays (x >>= f : X γ) := Only.bind hx hf

theorem stays_osCall {β : Type} {x : X (Except Errno β)} (hx : Stays x) : Stays (osCall x) :=
  Only.bind hx fun _ => Only.lift

theorem stays_anyCall {β : Type} {x : X (Except Exn β)} (hx : Stays x) : Stays (anyCall x) :=
  Only.bind hx fun _ => Only.lift

theorem stays_withClosing {β : Type} {closing : X (Except Exn Unit)} {body : X β} (hclosing : Stays closing)
    (hbody : Stays body) : Stays (withClosing closing body) :=
  Only.bind (Only.attempt hbody) fun _ => Only.bind (stays_anyCall hclosing) fun _ => Only.lift

section
variable {repr : Str → Str} {folder : Inode} {archive : Bytes} {infos : List ZipInfo} {entry : ArchiveEntry}

theorem stays_copyChunks (memberSize : Nat) : Stays (copyChunks repr folder entry memberSize) := by
  induction hroom : entry.sizeBytes - memberSize using Nat.strong_induction_on generalizing memberSize with
  | _ n ih =>
      rw [copyChunks]
      refine Only.bind (stays_anyCall (stays_perform id)) fun chunk => ?_
      split_ifs with hempty hlong
      · exact Only.pure
      · exact Only.throw
      · refine Only.bind (stays_anyCall (stays_perform id)) fun _ => ih _ ?_ _ rfl
        have hpos := List.length_pos_iff.mpr hempty
        omega

theorem stays_copyMember (member : ZipInfo) : Stays (copyMember repr folder archive entry member) :=
  Only.bind (stays_anyCall (stays_perform id)) fun _ => stays_withClosing (stays_perform id)
    (Only.bind (stays_anyCall (stays_perform id)) fun _ => stays_withClosing (stays_perform id) (stays_copyChunks 0))

theorem stays_extractEntry : Stays (extractEntry repr folder archive infos entry) := by
  refine Only.bind Only.lift fun member => Only.bind (stays_osCall (stays_perform id)) fun _ =>
    Only.bind (stays_osCall (stays_perform id)) fun identity => Only.bind (stays_copyMember member) fun memberSize => ?_
  split_ifs
  · exact Only.throw
  refine Only.bind (stays_osCall (stays_perform id)) fun current => ?_
  split_ifs
  · exact Only.throw
  · exact Only.bind (stays_anyCall (stays_perform id)) fun _ =>
      Only.bind (stays_osCall (stays_perform id)) fun _ => Only.pure

theorem stays_extractEntries : ∀ (entries : List ArchiveEntry) (bindings : List Binding),
    Stays (extractEntries repr folder archive infos entries bindings)
  | [], _ => Only.pure
  | _ :: entries, _ => Only.bind (Only.mapError stays_extractEntry) fun _ => stays_extractEntries entries _

theorem stays_checkOutputs : ∀ bindings : List Binding, Stays (checkOutputs folder bindings)
  | [] => Only.pure
  | _ :: bindings => by
      refine Only.bind (stays_osCall (stays_perform id)) fun current => ?_
      split_ifs
      · exact Only.throw
      · exact stays_checkOutputs bindings

theorem stays_extractInto {current : ArchiveSnapshot} {capability : Capability} :
    Stays (extractInto repr folder archive current capability) := by
  have hchecks : Stays (revalidate repr archive current capability) :=
    Only.bind Only.lift fun _ => Only.bind (stays_anyCall (stays_perform id)) fun _ =>
      Only.bind (stays_anyCall (stays_perform id)) fun _ => Only.bind (stays_anyCall (stays_perform id)) fun _ =>
      Only.bind Only.lift fun _ => Only.bind Only.lift fun _ => Only.pure
  have hvalidated : Stays (extractValidated repr folder archive current capability) :=
    Only.bind (Only.mapError hchecks) fun _ => stays_extractEntries _ _
  exact Only.bind (Only.attempt hvalidated) fun _ => Only.bind (Only.mapError (stays_osCall (stays_perform id))) fun _ =>
    Only.bind Only.lift fun _ => Only.bind (Only.mapError (stays_checkOutputs _)) fun _ =>
    Only.bind (Only.mapError (stays_anyCall (stays_perform id))) fun _ =>
    Only.bind (Only.mapError (stays_osCall (stays_perform id))) fun _ => Only.pure

end

theorem stays_closeBindings : ∀ bindings : List Binding, Stays (closeBindings bindings)
  | [] => Only.pure
  | _ :: bindings => by
      refine Only.bind (stays_perform id) fun current => ?_
      cases current with
      | error n => exact stays_closeBindings bindings
      | ok identity =>
          dsimp only
          split_ifs
          · exact stays_closeBindings bindings
          · exact Only.bind (stays_perform id) fun _ => stays_closeBindings bindings

theorem stays_closeProgress (progress : Progress) : Stays (closeProgress progress) := by
  unfold closeProgress
  split_ifs
  · refine Only.bind (stays_perform id) fun closed => ?_
    cases closed with
    | ok u => exact Only.pure
    | error e => exact Only.bind (stays_closeBindings _) fun _ => Only.pure
  · exact Only.bind (stays_closeBindings _) fun _ => Only.pure

/-! ### Giving up -/

theorem closeBindings_ends : ∀ bindings : List Binding, Ends (fun r => ∃ u, r = .ok u) (closeBindings bindings)
  | [] => ⟨(), rfl⟩
  | binding :: bindings => by
      rintro (n | identity)
      · exact closeBindings_ends bindings
      · exact Ends.ite (x := closeBindings bindings) (fun _ => closeBindings_ends bindings)
          fun _ _ => closeBindings_ends bindings

/-- Closing the outputs never raises. -/
theorem closeProgress_ends (progress : Progress) : Ends (fun r => ∃ b, r = .ok b) (closeProgress progress) := by
  have hclose : ∀ b : Bool, Ends (fun r => ∃ b, r = .ok b)
      (closeBindings progress.bindings >>= fun _ => pure b : X Bool) := by
    intro b
    refine Ends.bind (Ends.mono (closeBindings_ends _) ?_) fun _ => ⟨b, rfl⟩
    rintro r ⟨u, rfl⟩ e he
    cases he
  unfold closeProgress
  split_ifs
  · rintro (e | u)
    · exact hclose true
    · exact ⟨false, rfl⟩
  · exact hclose false

section
variable {descriptor : Inode} {progress : Progress}

theorem cleanup_run {r : Except Exn Unit} (h : Runs (step z) (cleanup name i descriptor progress) w r w')
    (hat : At d₀ i name w.disk) : Cleared d₀ i w' := by
  rcases runs_bind.mp h with ⟨e, hclose, -⟩ | ⟨capabilityFailed, m, hclose, h⟩
  · obtain ⟨b, hb⟩ := Runs.ends (closeProgress_ends progress) hclose
    cases hb
  have hat := hat.stays (stays_closeProgress progress) hclose
  obtain ⟨closed, m₁, hclosed, h⟩ := runs_ask.mp h
  obtain ⟨archiveClosed, m₂, harchive, h⟩ := runs_ask.mp h
  obtain ⟨removed, m₃, hremoved, h⟩ := runs_attempt_bind.mp h
  have hcleared := quarantineOwnedPath_run hremoved ((hat.step hclosed id).step harchive id)
  refine hcleared.later ?_ h
  cases removed with
  | error e => exact Only.ite (fun _ => Only.throw) fun _ => Only.throw
  | ok u => exact Only.ite (fun _ => Only.throw) fun _ => Only.pure

theorem giveUp_run {e : Exn} {r : Except Exn (List Binding)}
    (h : Runs (step z) (giveUp name i descriptor progress e) w r w') (hat : At d₀ i name w.disk) :
    (∃ e', r = .error e') ∧ Cleared d₀ i w' := by
  rcases runs_bind.mp h with ⟨e', hclean, rfl⟩ | ⟨u, m, hclean, h⟩
  · exact ⟨⟨e', rfl⟩, cleanup_run hclean hat⟩
  · obtain ⟨rfl, rfl⟩ := runs_throw.mp h
    exact ⟨⟨e, rfl⟩, cleanup_run hclean hat⟩

theorem closeOpened_run {opened : Option Inode} {r : Except Exn (Except Errno Unit)}
    (h : Runs (step z) (closeOpened opened) w r w') (hat : At d₀ i name w.disk) :
    (∃ closed, r = .ok closed) ∧ At d₀ i name w'.disk := by
  cases opened with
  | none =>
      obtain ⟨rfl, rfl⟩ := runs_pure.mp h
      exact ⟨⟨_, rfl⟩, hat⟩
  | some j =>
      obtain ⟨closed, rfl, hclosed⟩ := runs_perform.mp h
      exact ⟨⟨closed, rfl⟩, hat.step hclosed id⟩

theorem abandonStaging_run {opened : Option Inode} {r : Except Exn Inode}
    (h : Runs (step z) (abandonStaging name i opened) w r w') (hat : At d₀ i name w.disk) :
    (∃ e, r = .error e) ∧ Cleared d₀ i w' := by
  rcases runs_bind.mp h with ⟨e, hclosed, -⟩ | ⟨closed, m, hclosed, h⟩
  · obtain ⟨⟨c, hc⟩, -⟩ := closeOpened_run hclosed hat
    cases hc
  obtain ⟨-, hat⟩ := closeOpened_run hclosed hat
  obtain ⟨archiveClosed, m₁, harchive, h⟩ := runs_ask.mp h
  obtain ⟨removed, m₂, hremoved, h⟩ := runs_attempt_bind.mp h
  have hcleared := quarantineOwnedPath_run hremoved (hat.step harchive id)
  cases removed with
  | error e =>
      refine ⟨?_, hcleared.later (Only.ite (fun _ => Only.throw) fun _ => Only.throw) h⟩
      dsimp only at h
      split_ifs at h
      · exact ⟨_, (runs_throw.mp h).1⟩
      · exact ⟨_, (runs_throw.mp h).1⟩
  | ok u => exact ⟨⟨_, (runs_throw.mp h).1⟩, hcleared.later Only.throw h⟩

end

end Datasets.Acquisition
