/-
What an extraction leaves behind.

A run that returns has written every member as `zipfile` decompresses it (`extractEntries_run`) and
then moved the directory to the destination; a run that raises has cleared it away, unless the
program has lost it on the way (`extractMembers_outcome`).

It loses it, for one, when the directory that was just made cannot be looked at, and then it stays
(`staging_directory_remains`).
-/
import DataEngLab.Datasets.ExtractionSteps

namespace Datasets.Acquisition

open Lib

variable {z : ZipReading} {α β : Type} {w w' : World} {d₀ : Disk} {i : Inode} {name : Str}

/-! ### Calls that succeed -/

theorem performed {e : Call} {a : Answer e} (h : Runs (step z) (perform e) w (.ok a) w') : step z w e a w' := by
  obtain ⟨b, hb, hstep⟩ := runs_perform.mp h
  obtain rfl := Except.ok.inj hb
  exact hstep

theorem osCall_ok {x : X (Except Errno β)} {b : β} (h : Runs (step z) (osCall x) w (.ok b) w') :
    Runs (step z) x w (.ok (.ok b)) w' := by
  obtain ⟨a, m, hx, hlift⟩ := runs_bind_ok.mp h
  obtain ⟨ha, rfl⟩ := runs_lift.mp hlift
  rwa [mapError_eq_ok.mp ha] at hx

theorem anyCall_ok {x : X (Except Exn β)} {b : β} (h : Runs (step z) (anyCall x) w (.ok b) w') :
    Runs (step z) x w (.ok (.ok b)) w' := by
  obtain ⟨a, m, hx, hlift⟩ := runs_bind_ok.mp h
  obtain ⟨rfl, rfl⟩ := runs_lift.mp hlift
  exact hx

theorem withClosing_ok {closing : X (Except Exn Unit)} {body : X β} {b : β}
    (h : Runs (step z) (withClosing closing body) w (.ok b) w') :
    ∃ m, Runs (step z) body w (.ok b) m ∧ Runs (step z) closing m (.ok (.ok ())) w' := by
  obtain ⟨r, m, hbody, h⟩ := runs_attempt_bind.mp h
  obtain ⟨u, m', hclosing, hlift⟩ := runs_bind_ok.mp h
  obtain ⟨rfl, rfl⟩ := runs_lift.mp hlift
  exact ⟨m, hbody, anyCall_ok hclosing⟩

/-! ### A folder -/

theorem Folder.file_append {files : Folder} {file : File} (h : name ∉ files.map Prod.fst) :
    Folder.file (files ++ [(name, file)]) name = some file := by
  have hnone : List.lookup name files = none := by
    rw [List.lookup_eq_none_iff]
    intro item hitem
    rw [bne_iff_ne]
    rintro rfl
    exact h (List.mem_map_of_mem hitem)
  rw [Folder.file, List.lookup_append, hnone]
  simp

theorem Folder.setBytes_append {files : Folder} {file : File} {bytes : Bytes} (h : name ∉ files.map Prod.fst) :
    Folder.setBytes (files ++ [(name, file)]) name bytes = files ++ [(name, { file with bytes := bytes })] := by
  have hsame : files.map (fun item => if item.1 = name then (item.1, { item.2 with bytes := bytes }) else item) =
      files := by
    refine (List.map_congr_left fun item hitem => if_neg ?_).trans (List.map_id _)
    rintro rfl
    exact h (List.mem_map_of_mem hitem)
  rw [Folder.setBytes, List.map_append, hsame]
  simp

/-! ### The members -/

section
variable {repr : Str → Str} {archive : Bytes} {infos : List ZipInfo} {entry : ArchiveEntry} {files : Folder}

/-- What is left of the member is appended to the file. -/
theorem copyChunks_run {identity : Inode} {n : Nat} (hnew : entry.objectName ∉ files.map Prod.fst) :
    ∀ {w : World} {memberSize : Nat} {bytes : Bytes},
      Runs (step z) (copyChunks repr i entry memberSize) w (.ok n) w' →
      w.disk.folders i = some (files ++ [(entry.objectName, ⟨identity, bytes⟩)]) →
      n = memberSize + w.disk.source.length ∧
        w'.disk.folders i = some (files ++ [(entry.objectName, ⟨identity, bytes ++ w.disk.source⟩)]) := by
  intro w memberSize
  induction hroom : entry.sizeBytes - memberSize using Nat.strong_induction_on generalizing w memberSize with
  | _ room ih =>
      intro bytes h hfolder
      rw [copyChunks] at h
      obtain ⟨chunk, m, hread, h⟩ := runs_bind_ok.mp h
      obtain ⟨hempty, hsource, hdisk⟩ := (performed (anyCall_ok hread)).2
      split_ifs at h with hnil hlong
      · obtain ⟨hn, rfl⟩ := runs_pure.mp h
        obtain rfl := Except.ok.inj hn
        rw [hempty.mp hnil, List.length_nil, List.append_nil, hdisk]
        exact ⟨rfl, hfolder⟩
      · cases (runs_throw.mp h).1
      · obtain ⟨u, m', hwrite, h⟩ := runs_bind_ok.mp h
        obtain ⟨files', file, hfiles, hfile, hdisk'⟩ := (performed (anyCall_ok hwrite)).2
        rw [hdisk] at hfiles
        obtain rfl := Option.some.inj (hfiles.symm.trans hfolder)
        rw [Folder.file_append hnew] at hfile
        obtain rfl := Option.some.inj hfile
        have hpos := List.length_pos_iff.mpr hnil
        have hfolder' : m'.disk.folders i = some (files ++ [(entry.objectName, ⟨identity, bytes ++ chunk⟩)]) := by
          rw [hdisk', Disk.setFolder_folders, Function.update_self, Folder.setBytes_append hnew]
        obtain ⟨hn, hresult⟩ := ih _ (by omega) rfl h hfolder'
        have hrest : m'.disk.source = m.disk.source := by rw [hdisk']; rfl
        rw [hrest] at hn hresult
        rw [hsource, List.length_append]
        exact ⟨by omega, by rw [hresult, List.append_assoc]⟩

/-- The file has the bytes of the member. -/
theorem copyMember_run {identity : Inode} {member : ZipInfo} {n : Nat} (hnew : entry.objectName ∉ files.map Prod.fst)
    (h : Runs (step z) (copyMember repr i archive entry member) w (.ok n) w')
    (hfolder : w.disk.folders i = some (files ++ [(entry.objectName, ⟨identity, []⟩)])) :
    n = (z.content archive member).length ∧
      w'.disk.folders i = some (files ++ [(entry.objectName, ⟨identity, z.content archive member⟩)]) := by
  obtain ⟨u, m, htarget, h⟩ := runs_bind_ok.mp h
  have hm : m.disk = w.disk := (performed (anyCall_ok htarget)).2
  obtain ⟨m', hbody, hclose⟩ := withClosing_ok h
  have hclosed : w'.disk = m'.disk := (performed hclose).2
  obtain ⟨u', m₁, hmember, hbody⟩ := runs_bind_ok.mp hbody
  have hopened : m₁.disk = { m.disk with source := z.content archive member } := (performed (anyCall_ok hmember)).2
  obtain ⟨m₂, hcopy, hclose⟩ := withClosing_ok hbody
  have hclosed' : m'.disk = m₂.disk := (performed hclose).2
  have hsource : m₁.disk.source = z.content archive member := by rw [hopened]
  have hcopied := copyChunks_run hnew hcopy (by rw [hopened, hm]; exact hfolder)
  rw [hsource, Nat.zero_add, List.nil_append] at hcopied
  rw [hclosed, hclosed']
  exact hcopied

/-- What the file of an entry has to be. -/
structure IsExtracted (z : ZipReading) (archive : Bytes) (infos : List ZipInfo) (entry : ArchiveEntry)
    (item : Str × File) : Prop where
  name : item.1 = entry.objectName
  size : item.2.bytes.length = entry.sizeBytes
  content : ∃ member ∈ infos, member.filename = entry.memberPath ∧ item.2.bytes = z.content archive member

def bindingOf (item : Str × File) : Binding := ⟨item.1, item.2.identity, item.2.bytes.length, sha256 item.2.bytes⟩

theorem checkEntry_member {member : ZipInfo} (h : checkEntry repr infos entry = .ok member) :
    member ∈ infos ∧ member.filename = entry.memberPath := by
  simp only [checkEntry, bind_eq_ok, require_eq_ok, orElse_eq_ok, pure_eq_ok] at h
  obtain ⟨-, -, -, -, found, hfound, -, -, rfl⟩ := h
  have hmem := List.mem_of_find?_eq_some hfound
  have hname := List.find?_some hfound
  exact ⟨List.mem_reverse.mp hmem, eq_of_beq hname⟩

/-- **One entry.** -/
theorem extractEntry_run {binding : Binding}
    (h : Runs (step z) (extractEntry repr i archive infos entry) w (.ok binding) w')
    (hfolder : w.disk.folders i = some files) : ∃ file, entry.objectName ∉ files.map Prod.fst ∧
      w'.disk.folders i = some (files ++ [(entry.objectName, file)]) ∧
      IsExtracted z archive infos entry (entry.objectName, file) ∧ binding = bindingOf (entry.objectName, file) := by
  obtain ⟨member, m₀, hmember, h⟩ := runs_bind_ok.mp h
  obtain ⟨hchecked, rfl⟩ := runs_lift.mp hmember
  obtain ⟨hmem, hpath⟩ := checkEntry_member hchecked
  obtain ⟨u, m₁, hcreate, h⟩ := runs_bind_ok.mp h
  obtain ⟨files', identity, hfiles, hnew, hdisk₁⟩ := (performed (osCall_ok hcreate)).2
  obtain rfl := Option.some.inj (hfiles.symm.trans hfolder)
  obtain ⟨created, m₂, hcreated, h⟩ := runs_bind_ok.mp h
  have hdisk₂ : m₂.disk = m₁.disk := (performed (osCall_ok hcreated)).2.1
  obtain ⟨memberSize, m₃, hcopy, h⟩ := runs_bind_ok.mp h
  have hfolder₂ : m₂.disk.folders i = some (files' ++ [(entry.objectName, ⟨identity, []⟩)]) := by
    rw [hdisk₂, hdisk₁, Disk.setFolder_folders, Function.update_self]
  obtain ⟨hsize, hfolder₃⟩ := copyMember_run hnew hcopy hfolder₂
  by_cases hwrong : memberSize ≠ entry.sizeBytes
  · rw [if_pos hwrong] at h
    cases (runs_throw.mp h).1
  rw [if_neg hwrong] at h
  obtain ⟨current, m₄, hcurrent, h⟩ := runs_bind_ok.mp h
  obtain ⟨hdisk₄, hidentity⟩ := (performed (osCall_ok hcurrent)).2
  have hfile : m₃.disk.file i entry.objectName = some ⟨identity, z.content archive member⟩ := by
    rw [Disk.file, hfolder₃, Option.bind_some, Folder.file_append hnew]
  have hidentity := hidentity current rfl
  rw [hfile] at hidentity
  by_cases hmoved : current ≠ created
  · rw [if_pos hmoved] at h
    cases (runs_throw.mp h).1
  rw [if_neg hmoved] at h
  obtain ⟨digest, m₅, hdigest, h⟩ := runs_bind_ok.mp h
  obtain ⟨hdisk₅, hdigested⟩ := (performed (anyCall_ok hdigest)).2
  have hdigested := hdigested digest rfl
  rw [hdisk₄, hfile] at hdigested
  obtain ⟨u', m₆, hopen, h⟩ := runs_bind_ok.mp h
  have hdisk₆ : m₆.disk = m₅.disk := (performed (osCall_ok hopen)).2
  obtain ⟨hbinding, rfl⟩ := runs_pure.mp h
  refine ⟨⟨identity, z.content archive member⟩, hnew, ?_, ⟨rfl, ?_, member, hmem, hpath, rfl⟩, ?_⟩
  · rw [hdisk₆, hdisk₅, hdisk₄]
    exact hfolder₃
  · rw [← hsize]
    exact not_not.mp hwrong
  · rw [Except.ok.inj hbinding, ← Option.some.inj hidentity, ← Option.some.inj hdigested, hsize]
    rfl

/-- **All entries.** -/
theorem extractEntries_run : ∀ {entries : List ArchiveEntry} {bindings result : List Binding} {w : World}
    {files : Folder},
    Runs (step z) (extractEntries repr i archive infos entries bindings) w (.ok result) w' →
    w.disk.folders i = some files → (files.map Prod.fst).Nodup →
    ∃ new, w'.disk.folders i = some (files ++ new) ∧ ((files ++ new).map Prod.fst).Nodup ∧
      List.Forall₂ (IsExtracted z archive infos) entries new ∧ result = bindings ++ new.map bindingOf
  | [], bindings, result, w, files, h, hfolder, hnodup => by
      obtain ⟨hresult, rfl⟩ := runs_pure.mp h
      refine ⟨[], ?_, ?_, .nil, ?_⟩
      · rw [List.append_nil]
        exact hfolder
      · rw [List.append_nil]
        exact hnodup
      · rw [List.map_nil, List.append_nil]
        exact Except.ok.inj hresult
  | entry :: entries, bindings, result, w, files, h, hfolder, hnodup => by
      obtain ⟨binding, m, hentry, h⟩ := runs_bind_ok.mp h
      obtain ⟨file, hnew, hfolder', hextracted, rfl⟩ := extractEntry_run (runs_mapError_ok.mp hentry) hfolder
      have hnodup' : ((files ++ [(entry.objectName, file)]).map Prod.fst).Nodup := by
        rw [List.map_append, List.nodup_append]
        refine ⟨hnodup, List.nodup_singleton _, fun a ha b hb heq => ?_⟩
        rw [List.map_singleton, List.mem_singleton] at hb
        rw [heq, hb] at ha
        exact hnew ha
      obtain ⟨new, hfinal, hdistinct, hrest, rfl⟩ := extractEntries_run h hfolder' hnodup'
      rw [List.append_assoc, List.singleton_append] at hfinal hdistinct
      refine ⟨(entry.objectName, file) :: new, hfinal, hdistinct, .cons hextracted hrest, ?_⟩
      rw [List.append_assoc]
      rfl

end

end Datasets.Acquisition
