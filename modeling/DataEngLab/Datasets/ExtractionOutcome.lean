/-
How an extraction ends.

`extractMembers_outcome`: it returns, and the destination is the directory with the members, or it
raises, and the names in the parent are what they were.  The directory that it made stays behind
only where a removal fails or the program has lost the directory, under one name at most
(`extractMembers_run`).

It loses it, for one, when the directory that was just made cannot be looked at
(`staging_directory_remains`).
-/
import DataEngLab.Datasets.ExtractionRuns

namespace Datasets.Acquisition

open Lib

variable {z : ZipReading} {α β : Type} {w w' : World} {d₀ : Disk} {i : Inode} {name root : Str}

/-! ### Calls that only look -/

def Looks : Call → Prop
  | .parentStatus => True
  | .probe => True
  | .present _ => True
  | .copyArchive => True
  | .lstat _ _ => True
  | .openFolder _ _ => True
  | .fstat _ _ => True
  | .close _ _ => True
  | _ => False

theorem disk_of_looks {p : Prog Call Answer α} {a : α} (hp : Only Looks p) (h : Runs (step z) p w a w') :
    w'.disk = w.disk := by
  refine keeps (fun m => m.disk = w.disk) ?_ hp h rfl
  rintro m e r m' he ⟨-, heffect⟩ hm
  cases e <;> first
    | exact absurd he id
    | exact (heffect : m'.disk = m.disk).trans hm
    | exact (heffect.1 : m'.disk = m.disk).trans hm

/-- A part that only looks raises, or the program goes on with the disk as it was. -/
theorem runs_looks_bind {x : X α} {f : α → X β} {r : Except Exn β} (hx : Only Looks x)
    (h : Runs (step z) (x >>= f : X β) w r w') :
    (∃ e, r = .error e ∧ w'.disk = w.disk) ∨
      ∃ a m, Runs (step z) x w (.ok a) m ∧ m.disk = w.disk ∧ Runs (step z) (f a) m r w' := by
  rcases runs_bind.mp h with ⟨e, he, hr⟩ | ⟨a, m, ha, hf⟩
  · exact .inl ⟨e, hr, disk_of_looks hx he⟩
  · exact .inr ⟨a, m, ha, disk_of_looks hx ha, hf⟩

theorem looks_anyCall {x : X (Except Exn β)} (hx : Only Looks x) : Only Looks (anyCall x) :=
  Only.bind hx fun _ => Only.lift

theorem looks_openOwnedPath {site : Site} : Only Looks (openOwnedPath site name i) := by
  refine Only.bind (Only.perform trivial) fun opened => ?_
  cases opened with
  | error n => exact Only.throw
  | ok descriptor =>
      refine Only.bind (Only.perform trivial) fun status => ?_
      cases status with
      | error n => exact Only.bind (Only.perform trivial) fun _ => Only.throw
      | ok status =>
          exact Only.ite (fun _ => Only.bind (Only.perform trivial) fun _ => Only.throw) fun _ => Only.pure

theorem looks_pathMatchesIdentity {site : Site} : Only Looks (pathMatchesIdentity site name i) := by
  refine Only.bind (Only.perform trivial) fun current => ?_
  cases current with
  | error n => exact Only.ite (fun _ => Only.pure) fun _ => Only.throw
  | ok status => exact Only.pure

theorem looks_publishedPathIsOwned : Only Looks (publishedPathIsOwned name i) := by
  refine Only.bind (Only.attempt looks_openOwnedPath) fun opened => ?_
  cases opened with
  | error e =>
      refine Only.bind (Only.attempt looks_pathMatchesIdentity) fun matching => ?_
      cases matching with
      | error e => exact Only.pure
      | ok same => exact Only.pure
  | ok descriptor => exact Only.bind (Only.perform trivial) fun _ => Only.pure

theorem looks_requireTrustedParent : Only Looks requireTrustedParent := by
  refine Only.bind (Only.perform trivial) fun status => ?_
  cases status with
  | error n => exact Only.throw
  | ok status => exact Only.ite (fun _ => Only.throw) fun _ => Only.ite (fun _ => Only.throw) fun _ => Only.pure

theorem looks_probe : Only Looks (perform .probe) := Only.perform trivial

theorem looks_stableArchive : Only Looks stableArchive :=
  Only.bind (looks_anyCall (Only.perform trivial)) fun _ => Only.pure

/-! ### The staging directory -/

/-- The snapshot is that of the bytes that are extracted. -/
theorem stableArchive_run {archive : Bytes} {current : ArchiveSnapshot}
    (h : Runs (step z) stableArchive w (.ok (archive, current)) w') : ∃ state, current = snapshotOf state archive := by
  obtain ⟨⟨state, bytes⟩, m, -, h⟩ := runs_bind_ok.mp h
  obtain ⟨hr, -⟩ := runs_pure.mp h
  obtain ⟨rfl, rfl⟩ := Prod.mk.inj (Except.ok.inj hr)
  exact ⟨state, rfl⟩

/-- The directory is made, or none is, or it cannot be looked at. -/
theorem makeStaging_run {r : Except Exn (Str × Inode)} (h : Runs (step z) makeStaging w r w') :
    (∃ root i, r = .ok (root, i) ∧ At w.disk i root w'.disk ∧ w'.disk.folders i = some []) ∨
      (∃ e, r = .error e) ∧ ∃ i, Cleared w.disk i w' := by
  obtain ⟨made, m, hmade, h⟩ := runs_ask.mp h
  cases made with
  | error n =>
      obtain ⟨closed, m', hclosed, h⟩ := runs_ask.mp h
      obtain ⟨rfl, rfl⟩ := runs_throw.mp h
      refine .inr ⟨⟨_, rfl⟩, 0, .inl ?_⟩
      rw [names_effect hclosed.2 id]
      exact congrArg Disk.names (hmade.2 : m.disk = w.disk)
  | ok root =>
      obtain ⟨hfree, i, -, hdisk⟩ := hmade.2
      have hempty : m.disk.folders i = some [] := by
        rw [hdisk, Disk.setFolder_folders, Function.update_self]
      have hat : At w.disk i root m.disk := by
        refine ⟨?_, hfree, ?_⟩
        · rw [hdisk, Disk.setFolder_names, Disk.setName_names]
        · rw [Disk.isDir, hempty]
          rfl
      obtain ⟨status, m', hstatus, h⟩ := runs_ask.mp h
      have hat' := hat.step hstatus id
      cases status with
      | error n =>
          obtain ⟨closed, m₁, hclosed, h⟩ := runs_ask.mp h
          obtain ⟨rfl, rfl⟩ := runs_throw.mp h
          have hevent : (⟨.lstat .staging root, .error n⟩ : Event Call Answer) ∈ m₁.log := by
            rw [hclosed.1]
            exact List.mem_cons_of_mem _ (mem_log_step hstatus)
          exact .inr ⟨⟨_, rfl⟩, i, cleared_of_event (hat'.step hclosed id) hevent rfl⟩
      | ok status =>
          obtain ⟨hname, hdir⟩ := hstatus.2.2 status rfl
          rw [hat.here] at hname
          have hidentity := Option.some.inj hname
          rw [← hidentity, hat.isDir] at hdir
          dsimp only at h
          rw [if_pos hdir] at h
          obtain ⟨rfl, rfl⟩ := runs_pure.mp h
          rw [← hidentity]
          refine .inl ⟨root, i, rfl, hat', ?_⟩
          rw [hstatus.2.1]
          exact hempty

theorem openStaging_run {r : Except Exn Inode} (h : Runs (step z) (openStaging root i) w r w')
    (hat : At d₀ i root w.disk) :
    (r = .ok i ∧ w'.disk = w.disk) ∨ (∃ e, r = .error e) ∧ Cleared d₀ i w' := by
  obtain ⟨opened, m, hopened, h⟩ := runs_ask.mp h
  have hat' := hat.step hopened id
  cases opened with
  | error n => exact .inr (abandonStaging_run h hat')
  | ok j =>
      have hj : j = i := by
        have hname := (hopened.2.2 j rfl).1
        rw [hat.here] at hname
        exact (Option.some.inj hname).symm
      subst hj
      obtain ⟨status, m', hstatus, h⟩ := runs_ask.mp h
      cases status with
      | error n => exact .inr (abandonStaging_run h (hat'.step hstatus id))
      | ok status =>
          have hsame : status = ⟨true, j⟩ := by rw [hstatus.2.2 status rfl, hat'.isDir]
          rw [hsame] at h
          dsimp only at h
          rw [if_neg (by simp)] at h
          obtain ⟨rfl, rfl⟩ := runs_pure.mp h
          exact .inl ⟨rfl, hstatus.2.1.trans hopened.2.1⟩

/-! ### What is extracted -/

section
variable {repr : Str → Str} {archive : Bytes} {current : ArchiveSnapshot} {capability : Capability}

/-- **Only entries of this archive are extracted.** -/
theorem revalidate_run {infos : List ZipInfo}
    (h : Runs (step z) (revalidate repr archive current capability) w (.ok infos) w') :
    w'.disk = w.disk ∧ current = capability.snapshot ∧ infos = z.members archive ∧
      validatedMembers repr capability.limits infos = .ok capability.canonical := by
  obtain ⟨u, m₀, hsnapshot, h⟩ := runs_bind_ok.mp h
  obtain ⟨hsame, rfl⟩ := runs_lift.mp hsnapshot
  obtain ⟨u₁, m₁, hpreflight, h⟩ := runs_bind_ok.mp h
  obtain ⟨u₂, m₂, hrewind, h⟩ := runs_bind_ok.mp h
  obtain ⟨infos', m₃, hread, h⟩ := runs_bind_ok.mp h
  obtain ⟨fresh, m₄, hfresh, h⟩ := runs_bind_ok.mp h
  obtain ⟨hvalid, rfl⟩ := runs_lift.mp hfresh
  obtain ⟨u₃, m₅, hcanonical, h⟩ := runs_bind_ok.mp h
  obtain ⟨hequal, rfl⟩ := runs_lift.mp hcanonical
  obtain ⟨hinfos, rfl⟩ := runs_pure.mp h
  obtain rfl := Except.ok.inj hinfos
  have hdisk₁ : m₁.disk = w.disk := (performed (anyCall_ok hpreflight)).2
  have hdisk₂ : m₂.disk = m₁.disk := (performed (anyCall_ok hrewind)).2
  obtain ⟨hdisk₃, hmembers⟩ := (performed (anyCall_ok hread)).2
  refine ⟨by rw [hdisk₃, hdisk₂, hdisk₁], eq_of_beq (require_eq_ok.mp hsame), hmembers _ rfl, ?_⟩
  rw [hvalid, eq_of_beq (require_eq_ok.mp hequal)]

theorem checkOutputs_run : ∀ {bindings : List Binding} {w : World} {u : Unit},
    Runs (step z) (checkOutputs i bindings) w (.ok u) w' → w'.disk = w.disk
  | [], w, u, h => by rw [(runs_pure.mp h).2]
  | binding :: bindings, w, u, h => by
      obtain ⟨identity, m, hidentity, h⟩ := runs_bind_ok.mp h
      have hdisk : m.disk = w.disk := (performed (osCall_ok hidentity)).2.1
      by_cases hchanged : identity ≠ binding.identity
      · rw [if_pos hchanged] at h
        cases (runs_throw.mp h).1
      · rw [if_neg hchanged] at h
        rw [checkOutputs_run h, hdisk]

/-- The directory holds a file for every entry, and nothing else. -/
structure Holds (z : ZipReading) (repr : Str → Str) (archive : Bytes) (capability : Capability) (files : Folder) :
    Prop where
  valid : validatedMembers repr capability.limits (z.members archive) = .ok capability.canonical
  members : List.Forall₂ (IsExtracted z archive (z.members archive)) capability.canonical files
  distinct : (files.map Prod.fst).Nodup

theorem extractInto_run {bindings : List Binding}
    (h : Runs (step z) (extractInto repr i archive current capability) w (.ok bindings) w')
    (hfolder : w.disk.folders i = some []) : current = capability.snapshot ∧ ∃ files, w'.disk.folders i = some files ∧
      Holds z repr archive capability files ∧ bindings = files.map bindingOf := by
  obtain ⟨extracted, m, hextracted, h⟩ := runs_attempt_bind.mp h
  obtain ⟨u₁, m₁, hclose, h⟩ := runs_bind_ok.mp h
  have hdisk₁ : m₁.disk = m.disk := (performed (osCall_ok (runs_mapError_ok.mp hclose))).2
  obtain ⟨bindings', m₂, hlift, h⟩ := runs_bind_ok.mp h
  obtain ⟨rfl, rfl⟩ := runs_lift.mp hlift
  obtain ⟨u₂, m₃, hcheck, h⟩ := runs_bind_ok.mp h
  have hdisk₃ := checkOutputs_run (runs_mapError_ok.mp hcheck)
  obtain ⟨u₃, m₄, hcapability, h⟩ := runs_bind_ok.mp h
  have hdisk₄ : m₄.disk = m₃.disk := (performed (anyCall_ok (runs_mapError_ok.mp hcapability))).2
  obtain ⟨u₄, m₅, hclose', h⟩ := runs_bind_ok.mp h
  have hdisk₅ : m₅.disk = m₄.disk := (performed (osCall_ok (runs_mapError_ok.mp hclose'))).2
  obtain ⟨hbindings, rfl⟩ := runs_pure.mp h
  obtain rfl := Except.ok.inj hbindings
  obtain ⟨infos, m₀, hrevalidate, hentries⟩ := runs_bind_ok.mp hextracted
  obtain ⟨hdisk₀, hcurrent, rfl, hvalid⟩ := revalidate_run (runs_mapError_ok.mp hrevalidate)
  rw [← hdisk₀] at hfolder
  obtain ⟨files, hfiles, hnodup, hall, rfl⟩ := extractEntries_run hentries hfolder List.nodup_nil
  refine ⟨hcurrent, files, ?_, ⟨hvalid, hall, hnodup⟩, rfl⟩
  rw [hdisk₅, hdisk₄, hdisk₃, hdisk₁]
  exact hfiles

end

/-! ### Publishing -/

theorem publishPathExclusive_run {target : Str} {r : Except Exn Unit}
    (h : Runs (step z) (publishPathExclusive name target) w r w') :
    (∃ e, r = .error e ∧ w'.disk = w.disk) ∨
      r = .ok () ∧ w.disk.effect z (.rename .published name target) (.ok ()) w'.disk := by
  obtain ⟨renamed, m, hrenamed, h⟩ := runs_ask.mp h
  cases renamed with
  | ok u =>
      obtain ⟨rfl, rfl⟩ := runs_pure.mp h
      exact .inr ⟨rfl, hrenamed.2⟩
  | error n =>
      have hdisk : m.disk = w.disk := hrenamed.2.1
      dsimp only at h
      split_ifs at h
      · obtain ⟨rfl, rfl⟩ := runs_throw.mp h
        exact .inl ⟨_, rfl, hdisk⟩
      · obtain ⟨rfl, rfl⟩ := runs_throw.mp h
        exact .inl ⟨_, rfl, hdisk⟩

/-- Where there is nothing under the name, nothing is put into the quarantine. -/
theorem reserveQuarantine_absent : ∀ {attempts : Nat} {w : World} {r : Except Exn (Option Str)},
    Runs (step z) (reserveQuarantine name attempts) w r w' → w.disk.names name = none →
    (∀ quarantine, r ≠ .ok (some quarantine)) ∧ w'.disk = w.disk
  | 0, w, r, h, hnone => by
      obtain ⟨rfl, rfl⟩ := runs_throw.mp h
      exact ⟨(fun _ hr => by cases hr), rfl⟩
  | attempts + 1, w, r, h, hnone => by
      obtain ⟨token, m, htoken, h⟩ := runs_ask.mp h
      have htold : m.disk = w.disk := htoken.2
      obtain ⟨renamed, m', hrenamed, h⟩ := runs_ask.mp h
      cases renamed with
      | ok u =>
          obtain ⟨j, hj, -⟩ := hrenamed.2
          rw [htold, hnone] at hj
          cases hj
      | error n =>
          have hdisk : m'.disk = w.disk := hrenamed.2.1.trans htold
          dsimp only at h
          split_ifs at h
          · obtain ⟨hr, hrest⟩ := reserveQuarantine_absent h (by rw [hdisk]; exact hnone)
            exact ⟨hr, hrest.trans hdisk⟩
          · obtain ⟨rfl, rfl⟩ := runs_pure.mp h
            exact ⟨(fun _ hr => by cases hr), hdisk⟩
          · obtain ⟨rfl, rfl⟩ := runs_throw.mp h
            exact ⟨(fun _ hr => by cases hr), hdisk⟩

theorem quarantineOwnedPath_absent {r : Except Exn Unit} (h : Runs (step z) (quarantineOwnedPath name i) w r w')
    (hnone : w.disk.names name = none) : w'.disk = w.disk := by
  rcases runs_bind.mp h with ⟨e, hreserve, -⟩ | ⟨reserved, m, hreserve, h⟩
  · exact (reserveQuarantine_absent hreserve hnone).2
  · obtain ⟨hnot, hdisk⟩ := reserveQuarantine_absent hreserve hnone
    cases reserved with
    | none => rw [← (runs_pure.mp h).2, hdisk]
    | some quarantine => exact absurd rfl (hnot quarantine)

section
variable {descriptor : Inode}

/-- Giving up after the directory was moved from its name: it stays where it is. -/
theorem giveUp_moved {progress : Progress} {e : Exn} {r : Except Exn (List Binding)}
    (h : Runs (step z) (giveUp root i descriptor progress e) w r w') (hat : At d₀ i name w.disk)
    (hnone : w.disk.names root = none) : (∃ e', r = .error e') ∧ At d₀ i name w'.disk := by
  have hclean : ∀ {r' : Except Exn Unit} {m : World},
      Runs (step z) (cleanup root i descriptor progress) w r' m → At d₀ i name m.disk := by
    intro r' m hclean
    rcases runs_bind.mp hclean with ⟨e, hclose, -⟩ | ⟨failed, m₁, hclose, hclean⟩
    · exact hat.stays (stays_closeProgress progress) hclose
    have hat₁ := hat.stays (stays_closeProgress progress) hclose
    obtain ⟨closed, m₂, hclosed, hclean⟩ := runs_ask.mp hclean
    obtain ⟨archiveClosed, m₃, harchive, hclean⟩ := runs_ask.mp hclean
    obtain ⟨removed, m₄, hremoved, hclean⟩ := runs_attempt_bind.mp hclean
    have hat₃ := (hat₁.step hclosed id).step harchive id
    have hnames : m₃.disk.names = w.disk.names := by
      rw [names_effect harchive.2 id, names_effect hclosed.2 id, (stays_closeProgress progress).names hclose]
    have hdisk := quarantineOwnedPath_absent hremoved (by rw [hnames]; exact hnone)
    rw [← hdisk] at hat₃
    refine hat₃.stays ?_ hclean
    cases removed with
    | error e => exact Only.ite (fun _ => Only.throw) fun _ => Only.throw
    | ok u => exact Only.ite (fun _ => Only.throw) fun _ => Only.pure
  rcases runs_bind.mp h with ⟨e', hrun, rfl⟩ | ⟨u, m, hrun, h⟩
  · exact ⟨⟨e', rfl⟩, hclean hrun⟩
  · obtain ⟨rfl, rfl⟩ := runs_throw.mp h
    exact ⟨⟨e, rfl⟩, hclean hrun⟩

/-- **The directory is moved to the destination, or it is cleared away.** -/
theorem publish_run {bindings : List Binding} {destination : Str} {r : Except Exn (List Binding)}
    (h : Runs (step z) (publish root i descriptor bindings destination) w r w') (hat : At d₀ i root w.disk) :
    (r = .ok bindings ∧ At d₀ i destination w'.disk ∧ w'.disk.folders = w.disk.folders) ∨
      (∃ e, r = .error e) ∧ Cleared d₀ i w' := by
  obtain ⟨same, m, hsame, h⟩ := runs_attempt_bind.mp h
  have hdisk := disk_of_looks looks_pathMatchesIdentity hsame
  have hat' : At d₀ i root m.disk := hdisk ▸ hat
  rcases same with e | _ | _
  · exact .inr (giveUp_run h hat')
  · exact .inr (giveUp_run h hat')
  obtain ⟨published, m₁, hpublished, h⟩ := runs_attempt_bind.mp h
  rcases publishPathExclusive_run hpublished with ⟨e, rfl, hdisk₁⟩ | ⟨rfl, heffect⟩
  · rw [← hdisk₁] at hat'
    cases e <;> exact .inr (giveUp_run h hat')
  have hat₁ := hat'.renamed heffect
  have hfolders : m₁.disk.folders = w.disk.folders := by
    obtain ⟨j, -, -, hdisk₁⟩ := heffect
    rw [hdisk₁, ← hdisk]
    rfl
  have hnone : m₁.disk.names root = none := by
    obtain ⟨j, hj, htarget, hdisk₁⟩ := heffect
    have hne : root ≠ destination := by
      rintro rfl
      rw [hj] at htarget
      cases htarget
    rw [hdisk₁, Disk.setName_names, Function.update_of_ne hne, Disk.setName_names, Function.update_self]
  rcases runs_bind.mp h with ⟨e, howned, rfl⟩ | ⟨owned, m₂, howned, h⟩
  · obtain ⟨hat₂, hr | ⟨x, hx, hobstructs⟩⟩ := publishedPathIsOwned_run howned hat₁
    · cases hr
    · exact .inr ⟨⟨e, rfl⟩, cleared_of_event hat₂ hx hobstructs⟩
  have hdisk₂ := disk_of_looks looks_publishedPathIsOwned howned
  obtain ⟨hat₂, hseen⟩ := publishedPathIsOwned_run howned hat₁
  cases owned with
  | true =>
      obtain ⟨closed, m₃, hclosed, h⟩ := runs_ask.mp h
      obtain ⟨rfl, rfl⟩ := runs_pure.mp h
      refine .inl ⟨rfl, hat₂.step hclosed id, ?_⟩
      rw [(hclosed.2 : m₃.disk = m₂.disk), hdisk₂, hfolders]
  | false =>
      rcases hseen with hr | ⟨x, hx, hobstructs⟩
      · cases hr
      · obtain ⟨herror, hat₃⟩ := giveUp_moved h hat₂ (by rw [hdisk₂]; exact hnone)
        exact .inr ⟨herror, cleared_of_event hat₃ (mem_log h hx) hobstructs⟩

end

/-! ### The whole -/

/-- What an extraction that returns these outputs has done. -/
def Extracted (z : ZipReading) (repr : Str → Str) (entries : EntryList) (destination : Str) (d d' : Disk)
    (bindings : List Binding) : Prop :=
  ∃ capability archive state i files, entries.capability = .ok capability ∧
    capability.snapshot = snapshotOf state archive ∧ Holds z repr archive capability files ∧
    At d i destination d' ∧ d'.folders i = some files ∧ bindings = files.map bindingOf

theorem extractMembers_run {repr : Str → Str} {entries : EntryList} {destination : Str} {r : Except Exn (List Binding)}
    (h : Runs (step z) (extractMembers repr entries destination) w r w') :
    (∃ bindings, r = .ok bindings ∧ Extracted z repr entries destination w.disk w'.disk bindings) ∨
      (∃ e, r = .error e) ∧ ∃ i, Cleared w.disk i w' := by
  have unchanged : ∀ {e : Exn}, r = .error e → w'.disk = w.disk →
      (∃ bindings, r = .ok bindings ∧ Extracted z repr entries destination w.disk w'.disk bindings) ∨
        (∃ e, r = .error e) ∧ ∃ i, Cleared w.disk i w' :=
    fun hr hdisk => .inr ⟨⟨_, hr⟩, 0, .inl (congrArg Disk.names hdisk)⟩
  rcases runs_looks_bind looks_requireTrustedParent h with ⟨e, hr, hdisk⟩ | ⟨u, m₁, -, hdisk₁, h⟩
  · exact unchanged hr hdisk
  rcases runs_looks_bind looks_probe h with ⟨e, hr, hdisk⟩ | ⟨supported, m₂, -, hdisk₂, h⟩
  · exact unchanged hr (hdisk.trans hdisk₁)
  rw [hdisk₁] at hdisk₂
  cases supported with
  | false =>
      obtain ⟨hr, rfl⟩ := runs_throw.mp h
      exact unchanged hr hdisk₂
  | true =>
  rcases runs_looks_bind (looks_anyCall (Only.perform trivial)) h with
    ⟨e, hr, hdisk⟩ | ⟨taken, m₃, -, hdisk₃, h⟩
  · exact unchanged hr (hdisk.trans hdisk₂)
  rw [hdisk₂] at hdisk₃
  cases taken with
  | true =>
      obtain ⟨hr, rfl⟩ := runs_throw.mp h
      exact unchanged hr hdisk₃
  | false =>
  rcases runs_lift_bind.mp h with ⟨e, -, hr, rfl⟩ | ⟨capability, hcapability, h⟩
  · exact unchanged hr hdisk₃
  rcases runs_looks_bind looks_stableArchive h with
    ⟨e, hr, hdisk⟩ | ⟨⟨archive, current⟩, m₄, hcopy, hdisk₄, h⟩
  · exact unchanged hr (hdisk.trans hdisk₃)
  rw [hdisk₃] at hdisk₄
  obtain ⟨state, rfl⟩ := stableArchive_run hcopy
  rw [← hdisk₄]
  rcases runs_bind.mp h with ⟨e, hmade, hr⟩ | ⟨⟨root, i⟩, m₅, hmade, h⟩
  · rcases makeStaging_run hmade with ⟨_, _, hr', -⟩ | ⟨-, hcleared⟩
    · cases hr'
    · exact .inr ⟨⟨e, hr⟩, hcleared⟩
  rcases makeStaging_run hmade with ⟨_, _, hr, hat, hempty⟩ | ⟨⟨_, hr⟩, -⟩
  swap
  · cases hr
  obtain ⟨rfl, rfl⟩ := Prod.mk.inj (Except.ok.inj hr)
  rcases runs_bind.mp h with ⟨e, hopened, hr⟩ | ⟨descriptor, m₆, hopened, h⟩
  · rcases openStaging_run hopened hat with ⟨hr', -⟩ | ⟨-, hcleared⟩
    · cases hr'
    · exact .inr ⟨⟨e, hr⟩, i, hcleared⟩
  rcases openStaging_run hopened hat with ⟨hr, hdisk₆⟩ | ⟨⟨_, hr⟩, -⟩
  swap
  · cases hr
  obtain rfl := Except.ok.inj hr
  rw [← hdisk₆] at hat hempty
  obtain ⟨extracted, m₇, hextracted, h⟩ := runs_attempt_bind.mp h
  have hat₇ := hat.stays stays_extractInto hextracted
  rcases extracted with ⟨e, progress⟩ | bindings
  · obtain ⟨herror, hcleared⟩ := giveUp_run h hat₇
    exact .inr ⟨herror, _, hcleared⟩
  obtain ⟨hcurrent, files, hfiles, hholds, hbindings⟩ := extractInto_run hextracted hempty
  rcases publish_run h hat₇ with ⟨hr, hat₈, hfolders⟩ | ⟨herror, hcleared⟩
  · exact .inl ⟨bindings, hr, capability, archive, state, _, files, hcapability, hcurrent.symm, hholds, hat₈,
      hfolders ▸ hfiles, hbindings⟩
  · exact .inr ⟨herror, _, hcleared⟩

/-- **An extraction returns with the members at the destination, or raises with nothing left behind,** where the
removals succeed and the program keeps sight of its directory. -/
theorem extractMembers_outcome {repr : Str → Str} {entries : EntryList} {destination : Str} {d : Disk}
    {r : Except Exn (List Binding)} (h : Runs (step z) (extractMembers repr entries destination) ⟨d, []⟩ r w')
    (hremoved : ¬ RemovalFails w'.log) (hseen : ¬ Loses w'.log) :
    match r with
    | .ok bindings => Extracted z repr entries destination d w'.disk bindings
    | .error _ => w'.disk.names = d.names := by
  rcases extractMembers_run h with ⟨bindings, rfl, hextracted⟩ | ⟨⟨e, rfl⟩, i, hcleared⟩
  · exact hextracted
  · rcases hcleared with hgone | ⟨-, hlost | hfails⟩
    · exact hgone
    · exact absurd hlost hseen
    · exact absurd hfails hremoved

/-! ### Two runs -/

section
variable {Q : World → Prop}

/-- The next call, its answer, and the disk after it. -/
theorem runs_next {e : Call} {k : Answer e → Prog Call Answer α} {b : α} (a : Answer e) (d : Disk)
    (heffect : w.disk.effect z e a d) (h : ∃ w', Runs (step z) (k a) ⟨d, ⟨e, a⟩ :: w.log⟩ b w' ∧ Q w') :
    ∃ w', Runs (step z) (.call e k) w b w' ∧ Q w' := by
  obtain ⟨w', hrun, hQ⟩ := h
  exact ⟨w', runs_call.mpr ⟨a, _, ⟨rfl, heffect⟩, hrun⟩, hQ⟩

theorem runs_done {b : α} (hQ : Q w) : ∃ w', Runs (step z) (.pure b : Prog Call Answer α) w b w' ∧ Q w' :=
  ⟨w, runs_ret.mpr ⟨rfl, rfl⟩, hQ⟩

end

def noMembers : ZipReading := ⟨fun _ => [], fun _ _ => []⟩

def emptyParent : Disk := ⟨fun _ => none, fun _ => none, []⟩

/-- A staging directory is made. -/
def stagedParent : Disk := (emptyParent.setName (lit "staging") (some 1)).setFolder 1 []

/-- Entries of another archive, on another device. -/
def otherEntries : EntryList := .bound [⟨lit "a", lit "a", 0⟩] ⟨2, 1, 0, 0, 0, []⟩ ⟨1, 1, 1, 1⟩

theorem mkdtemp_staging :
    emptyParent.effect noMembers .mkdtemp (.ok (lit "staging") : Except Errno Str) stagedParent :=
  ⟨rfl, 1, (fun _ h => by cases h), rfl⟩

/-- The directory is renamed, to be removed. -/
def quarantinedParent : Disk :=
  (stagedParent.setName (lit "staging") none).setName (lit ".dataset-cleanup-extract-0") (some 1)

theorem other_archive_runs :
    ∃ w', Runs (step noMembers) (extractMembers id otherEntries (lit "out")) ⟨emptyParent, []⟩
        (.error (.valueError (lit "archive changed after validation"))) w' ∧
      (¬ RemovalFails w'.log ∧ ¬ Loses w'.log) := by
  refine runs_next (.ok ⟨false, true, true, false⟩) emptyParent rfl ?_
  refine runs_next true emptyParent rfl ?_
  refine runs_next (.ok false) emptyParent ⟨rfl, fun b hb => (Except.ok.inj hb).symm⟩ ?_
  refine runs_next (.ok (⟨1, 1, 0, 0⟩, [])) emptyParent rfl ?_
  -- the staging directory is made and opened
  refine runs_next (.ok (lit "staging")) stagedParent mkdtemp_staging ?_
  refine runs_next (.ok ⟨true, 1⟩) stagedParent ⟨rfl, fun s hs => Except.ok.inj hs ▸ ⟨rfl, rfl⟩⟩ ?_
  refine runs_next (.ok 1) stagedParent ⟨rfl, fun j hj => Except.ok.inj hj ▸ ⟨rfl, rfl⟩⟩ ?_
  refine runs_next (.ok ⟨true, 1⟩) stagedParent ⟨rfl, fun s hs => (Except.ok.inj hs).symm⟩ ?_
  -- the snapshot differs
  refine runs_next (.ok ()) stagedParent rfl ?_
  refine runs_next (.ok ()) stagedParent rfl ?_
  refine runs_next (.ok ()) stagedParent rfl ?_
  -- the directory is renamed and removed
  refine runs_next (lit "0") stagedParent rfl ?_
  refine runs_next (.ok ()) quarantinedParent ⟨1, rfl, rfl, rfl⟩ ?_
  refine runs_next (.ok 1) quarantinedParent ⟨rfl, fun j hj => Except.ok.inj hj ▸ ⟨rfl, rfl⟩⟩ ?_
  refine runs_next (.ok ⟨true, 1⟩) quarantinedParent ⟨rfl, fun s hs => (Except.ok.inj hs).symm⟩ ?_
  refine runs_next (.ok ⟨true, 1⟩) quarantinedParent ⟨rfl, fun s hs => Except.ok.inj hs ▸ ⟨rfl, rfl⟩⟩ ?_
  refine runs_next (.ok ()) quarantinedParent rfl ?_
  refine runs_next (.ok ()) (quarantinedParent.setName (lit ".dataset-cleanup-extract-0") none) rfl ?_
  refine runs_done ⟨?_, ?_⟩
  · unfold RemovalFails
    decide
  · unfold Loses
    decide

/-- Another archive is not extracted, and nothing is left. -/
theorem other_archive_leaves_nothing :
    ∃ w', Runs (step noMembers) (extractMembers id otherEntries (lit "out")) ⟨emptyParent, []⟩
        (.error (.valueError (lit "archive changed after validation"))) w' ∧ w'.disk.names = emptyParent.names := by
  obtain ⟨w', hrun, hremoved, hseen⟩ := other_archive_runs
  exact ⟨w', hrun, extractMembers_outcome hrun hremoved hseen⟩

/-- **The directory that was made cannot be looked at, and stays.** -/
theorem staging_directory_remains :
    ∃ w', Runs (step noMembers) (extractMembers id otherEntries (lit "out")) ⟨emptyParent, []⟩
        (.error (.valueError (lit "extraction cleanup ownership is uncertain"))) w' ∧
      (¬ RemovalFails w'.log ∧ emptyParent.names (lit "staging") = none ∧ w'.disk.names (lit "staging") = some 1) := by
  refine runs_next (.ok ⟨false, true, true, false⟩) emptyParent rfl ?_
  refine runs_next true emptyParent rfl ?_
  refine runs_next (.ok false) emptyParent ⟨rfl, fun b hb => (Except.ok.inj hb).symm⟩ ?_
  refine runs_next (.ok (⟨1, 1, 0, 0⟩, [])) emptyParent rfl ?_
  refine runs_next (.ok (lit "staging")) stagedParent mkdtemp_staging ?_
  refine runs_next (.error 5) stagedParent ⟨rfl, (fun _ h => by cases h)⟩ ?_
  refine runs_next (.ok ()) stagedParent rfl ?_
  refine runs_done ⟨?_, rfl, rfl⟩
  unfold RemovalFails
  decide

end Datasets.Acquisition
