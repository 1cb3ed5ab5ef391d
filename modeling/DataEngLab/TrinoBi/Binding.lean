/-
What a returned artifact is bound to.

Any number of task attempts run while the pipeline commits to either table at any moment.
The properties are read before the snapshots, both times, and the snapshots enclose all
that lies between them: equal identifiers pin each table from the first look to the second,
so the totals, the result and the second reading of the properties are of the same two
states (`Table.Older.between`).  The first reading of the properties may be of others; it is
the comparison with the second that makes its values those of the pinned states.
-/
import DataEngLab.Lib.Play
import DataEngLab.TrinoBi.Tasks

namespace TrinoBi

open Lib

/-! ### The system -/

/-- Both tables with their histories. -/
structure Lakehouse where
  dim : Table DimCustomer
  fct : Table FctOrder

def Lakehouse.Older (u v : Lakehouse) : Prop := u.dim.Older v.dim ∧ u.fct.Older v.fct

theorem Lakehouse.Older.refl (u : Lakehouse) : u.Older u := ⟨Table.Older.refl _, Table.Older.refl _⟩

theorem Lakehouse.Older.trans {u v w : Lakehouse} (h : u.Older v) (h' : v.Older w) : u.Older w :=
  ⟨h.1.trans h'.1, h.2.trans h'.2⟩

/-- One commit of a pipeline. -/
inductive Commits : Lakehouse → Lakehouse → Prop where
  | dim (w : Lakehouse) (next : Dim) (h : next.snapshotId ∉ w.dim.states.map TableState.snapshotId) :
      Commits w ⟨w.dim.commit next h, w.fct⟩
  | fct (w : Lakehouse) (next : Fct) (h : next.snapshotId ∉ w.fct.states.map TableState.snapshotId) :
      Commits w ⟨w.dim, w.fct.commit next h⟩

theorem Commits.older {w w' : Lakehouse} (h : Commits w w') : w.Older w' := by
  cases h with
  | dim next h => exact ⟨Table.older_commit _ h, Table.Older.refl _⟩
  | fct next h => exact ⟨Table.Older.refl _, Table.older_commit _ h⟩

/-- A read finds the current state; the order and the outcome of a query are anything. -/
def Answers (w : Lakehouse) : (e : Call) → Answer e → Prop
  | .readDim, r => r = w.dim.current
  | .readFct, r => r = w.fct.current
  | .order, _ => True
  | .finish _ _ _, _ => True

abbrev BiSys := Sys Lakehouse Call Answer

section
variable (py : Python)

/-- Attempts of the task, with commits between their calls. -/
def tpchMachine : Machine Unit Lakehouse Call Answer (Except Exn Artifact) where
  code _ := runTpchBi py
  step _ _ s e r w := Answers s.world e r ∧ w = s.world
  drift := Commits

/-- Between two calls of a thread the tables grow, and its own calls stay what they were. -/
structure Rely (t : Nat) (s s' : BiSys) : Prop where
  older : s.world.Older s'.world
  history : s'.history t = s.history t

/-! ### One query -/

variable {py} {t : Nat} {s : BiSys} {α : Type}

/-- The thread runs `x` from `s` and ends in `Q`. -/
abbrev Does (t : Nat) (x : Prog Call Answer α) (Q : α → BiSys → Prop) (s : BiSys) : Prop :=
  Sat (fun _ s e r w => Answers s.world e r ∧ w = s.world) (Rely t) (fun s _ _ s' => s'.world = s.world) t x Q s

/-- What a thread keeps from one moment to a later one. -/
structure Later (t : Nat) (s s' : BiSys) : Prop where
  older : s.world.Older s'.world
  history : s.history t ⊆ s'.history t

theorem Later.refl (s : BiSys) : Later t s s := ⟨Lakehouse.Older.refl _, fun _ h => h⟩

theorem Later.trans {a b c : BiSys} (h : Later t a b) (h' : Later t b c) : Later t a c :=
  ⟨h.older.trans h'.older, fun _ hx => h'.history (h.history hx)⟩

theorem Rely.later {s s' : BiSys} (h : Rely t s s') : Later t s s' := ⟨h.older, h.history ▸ fun _ hx => hx⟩

theorem later_next (s : BiSys) (e : Call) (r : Answer e) : Later t s (s.next t e r s.world) := by
  refine ⟨Lakehouse.Older.refl _, ?_⟩
  rw [Sys.next_history]
  exact List.subset_cons_self _ _

/-- A call: the state it was answered in, and one event more. -/
theorem does_perform {e : Call} {f : Answer e → Task α} {Q : Except Exn α → BiSys → Prop}
    (h : ∀ r s₀, Later t s s₀ → Answers s₀.world e r → Does t (f r) Q (s₀.next t e r s₀.world)) :
    Does t (Proc.perform e >>= f : Task α) Q s := by
  refine Sat.bind (Sat.perform fun s₀ hs₀ r w hstep => ⟨?_, ?_⟩)
  · rw [hstep.2]; rfl
  · obtain ⟨hr, rfl⟩ := hstep
    exact h r s₀ hs₀.later hr

/-- The two tables, each as it was at some moment between the beginning and the end. -/
theorem does_readTables {f : Dim × Fct → Task α} {Q : Except Exn α → BiSys → Prop}
    (h : ∀ seen s', s.world.Older seen → seen.Older s'.world → Later t s s' →
      Does t (f (seen.dim.current, seen.fct.current)) Q s') : Does t (readTables >>= f : Task α) Q s := by
  refine Sat.bind ?_
  unfold readTables
  refine does_perform fun dimFirst s₀ hs₀ _ => ?_
  split
  · refine does_perform fun dim s₁ hs₁ hdim => does_perform fun fct s₂ hs₂ hfct => ?_
    have h₁ : Later t s s₁ := hs₀.trans ((later_next _ _ _).trans hs₁)
    have h₂ : Later t s₁ s₂ := (later_next _ _ _).trans hs₂
    rw [show dim = s₁.world.dim.current from hdim, show fct = s₂.world.fct.current from hfct]
    exact Sat.pure (h ⟨s₁.world.dim, s₂.world.fct⟩ _
      ⟨h₁.older.1, (h₁.trans h₂).older.2⟩ ⟨h₂.older.1, Table.Older.refl _⟩
      (h₁.trans (h₂.trans (later_next _ _ _))))
  · refine does_perform fun fct s₁ hs₁ hfct => does_perform fun dim s₂ hs₂ hdim => ?_
    have h₁ : Later t s s₁ := hs₀.trans ((later_next _ _ _).trans hs₁)
    have h₂ : Later t s₁ s₂ := (later_next _ _ _).trans hs₂
    rw [show dim = s₂.world.dim.current from hdim, show fct = s₁.world.fct.current from hfct]
    exact Sat.pure (h ⟨s₂.world.dim, s₁.world.fct⟩ _
      ⟨(h₁.trans h₂).older.1, h₁.older.2⟩ ⟨Table.Older.refl _, h₂.older.2⟩
      (h₁.trans (h₂.trans (later_next _ _ _))))

/-- A query was evaluated over the two tables as they were seen. -/
def Evaluated (t : Nat) (name : QueryName) (seen : Lakehouse) (queryId : Str) (s : BiSys) : Prop :=
  ⟨.finish name seen.dim.current seen.fct.current, .ok queryId⟩ ∈ s.history t

/-- A query, and what follows its result. -/
theorem does_execute {name : QueryName} {f : QueryResult → Task α} {Q : Except Exn α → BiSys → Prop}
    (he : ∀ e s', Q (.error e) s')
    (h : ∀ seen queryId s', s.world.Older seen → seen.Older s'.world → Later t s s' →
      Evaluated t name seen queryId s' →
      Does t (f ⟨queryId, rowsOf name seen.dim.current seen.fct.current⟩) Q s') :
    Does t (execute name >>= f : Task α) Q s := by
  refine Sat.bind ?_
  unfold execute
  refine does_readTables fun seen s₁ hseen hseen₁ hs₁ => does_perform fun reply s₂ hs₂ _ => ?_
  refine Sat.lift_bind (fun queryId hreply => Sat.pure ?_) fun e _ => he e _
  subst hreply
  have hs : Later t s₁ (s₂.next t (.finish name seen.dim.current seen.fct.current) (.ok queryId) s₂.world) :=
    hs₂.trans (later_next _ _ _)
  refine h seen queryId _ hseen (hseen₁.trans hs.older) (hs₁.trans hs) ?_
  rw [Evaluated, Sys.next_history]
  exact List.mem_cons_self ..

end

/-! ### What the checks say of the states -/

section
variable {py : Python} {dim : Dim} {fct : Fct}

theorem fctOrders_ne : fctOrders ≠ dimCustomer := by decide

theorem tableName_dim (label : String) : tableName label (.str dimCustomer) = .ok true := by
  simp [tableName]

theorem tableName_fct (label : String) : tableName label (.str fctOrders) = .ok false := by
  simp [tableName, fctOrders_ne]

theorem checkAll_append {ε α β : Type} {f : α → Except ε β} {xs ys : List α} {xs' ys' : List β}
    (hx : checkAll f xs = .ok xs') (hy : checkAll f ys = .ok ys') :
    checkAll f (xs ++ ys) = .ok (xs' ++ ys') :=
  checkAll_eq_ok.mpr (List.rel_append (checkAll_eq_ok.mp hx) (checkAll_eq_ok.mp hy))

/-- The rows of both tables, put together and taken apart. -/
theorem partition_rows {width : Nat} {label : String} (xs ys : Rows) {both : Both Rows}
    (hx : ∀ x ∈ xs, x.length + 1 = width) (hy : ∀ y ∈ ys, y.length + 1 = width)
    (h : partition (xs.map (.str dimCustomer :: ·) ++ ys.map (.str fctOrders :: ·)) width label = .ok both) :
    both.dimCustomer = xs ∧ both.fctOrders = ys := by
  have hxs : checkAll (tableRow width label) (xs.map (.str dimCustomer :: ·)) = .ok (xs.map (true, ·)) := by
    rw [checkAll_eq_ok, List.forall₂_map_left_iff, List.forall₂_map_right_iff]
    refine List.forall₂_same.mpr fun x hmem => ?_
    simp [tableRow, hx x hmem, tableName_dim]
  have hys : checkAll (tableRow width label) (ys.map (.str fctOrders :: ·)) = .ok (ys.map (false, ·)) := by
    rw [checkAll_eq_ok, List.forall₂_map_left_iff, List.forall₂_map_right_iff]
    refine List.forall₂_same.mpr fun y hmem => ?_
    simp [tableRow, hy y hmem, tableName_fct]
  simp only [partition, checkAll_append hxs hys, bind_eq_ok, Except.ok.injEq, exists_eq_left', pure_eq_ok] at h
  obtain ⟨-, -, rfl⟩ := h
  simp [List.filter_map, Function.comp_def]

theorem snapshotOf_eq {n k : Int} (h : snapshotOf [[.int n]] = .ok k) : k = n := by
  simp only [snapshotOf, bind_eq_ok, pure_eq_ok] at h
  obtain ⟨-, -, rfl⟩ := h
  rfl

theorem snapshotMap_rows {s : Snapshots} (h : snapshotMap (rowsOf .tpchSnapshots dim fct) = .ok s) :
    s.dimCustomer = dim.snapshotId ∧ s.fctOrders = fct.snapshotId := by
  simp only [snapshotMap, bind_eq_ok, pure_eq_ok] at h
  obtain ⟨both, hboth, d, hd, f, hf, rfl⟩ := h
  obtain ⟨hdim, hfct⟩ := partition_rows [[.int dim.snapshotId]] [[.int fct.snapshotId]]
    (by simp) (by simp) hboth
  rw [hdim] at hd
  rw [hfct] at hf
  exact ⟨snapshotOf_eq hd, snapshotOf_eq hf⟩

/-! ### Provenance -/

/-- A property without the name of its table. -/
def propertyCells (p : Str × Str) : List Json := [.str p.1, .str p.2]

theorem addProperty_cells {acc r : Provenance} {p : Str × Str}
    (h : addProperty acc (propertyCells p) = .ok r) : r = acc ++ [p] := by
  simp only [addProperty, propertyCells, provenanceKey, provenanceValue, bind_eq_ok, pure_eq_ok] at h
  obtain ⟨k, hk, -, -, v, hv, rfl⟩ := h
  split at hk
  · split at hv
    · cases hv
    · cases hk; cases hv; rfl
  · cases hk

theorem foldlM_addProperty : ∀ {ps : List (Str × Str)} {acc r : Provenance},
    (ps.map propertyCells).foldlM addProperty acc = .ok r → r = acc ++ ps := by
  intro ps
  induction ps with
  | nil =>
      intro acc r h
      simp only [List.map_nil, List.foldlM_nil, pure_eq_ok] at h
      simp [h]
  | cons p rest ih =>
      intro acc r h
      simp only [List.map_cons, List.foldlM_cons, bind_eq_ok] at h
      obtain ⟨acc', hp, hrest⟩ := h
      rw [ih hrest, addProperty_cells hp, List.append_assoc, List.singleton_append]

theorem provenanceKeys_nodup : provenanceKeys.Nodup := by decide

/-- **The map is the rows.**  Five keys are asked for and five rows are there. -/
theorem propertyMap_perm {ps : List (Str × Str)} {m : Provenance}
    (h : propertyMap py (ps.map propertyCells) = .ok m) : ps.Perm m := by
  simp only [propertyMap, bind_eq_ok, require_eq_ok, beq_iff_eq, List.length_map] at h
  obtain ⟨-, -, -, -, -, hlen, r, hr, hm⟩ := h
  have hr' : r = ps := by simpa using foldlM_addProperty hr
  subst hr'
  have hall := checkAll_eq_ok.mp hm
  have hkeys : m.map Prod.fst = provenanceKeys := by
    rw [← List.forall₂_eq_eq_eq, List.forall₂_map_left_iff]
    refine hall.flip.imp fun p k hpk => ?_
    simp only [bind_eq_ok, orElse_eq_ok, pure_eq_ok] at hpk
    obtain ⟨v, -, rfl⟩ := hpk
    rfl
  have hsub : m ⊆ r := by
    intro p hp
    obtain ⟨k, -, hk⟩ := checkAll_mem hm hp
    simp only [bind_eq_ok, orElse_eq_ok, pure_eq_ok] at hk
    obtain ⟨v, hv, rfl⟩ := hk
    obtain ⟨before, after, heq, -⟩ := List.lookup_eq_some_iff.mp hv
    exact heq ▸ List.mem_append_right before (List.mem_cons_self ..)
  have hnodup : m.Nodup := List.Nodup.of_map Prod.fst (hkeys ▸ provenanceKeys_nodup)
  have hlength : m.length = provenanceKeys.length := by rw [← hkeys, List.length_map]
  exact ((List.subperm_of_subset hnodup hsub).perm_of_length_le (hlen.trans hlength.symm).le).symm

/-- A state carries exactly this provenance: its properties under the five keys are these. -/
def Carries {ρ : Type} (state : TableState ρ) (provenance : Provenance) : Prop :=
  (state.properties.filter (·.1 ∈ provenanceKeys)).Perm provenance

theorem propertyCells_width (ps : List (Str × Str)) : ∀ x ∈ ps.map propertyCells, x.length + 1 = 3 := by
  intro x hx
  obtain ⟨p, -, rfl⟩ := List.mem_map.mp hx
  rfl

/-- The properties a query lists, without the name of the table. -/
def listed (properties : List (Str × Str)) : List (Str × Str) :=
  (properties.filter (·.1 ∈ provenanceKeys)).insertionSort fun a b => a.1 ≤ b.1

theorem propertyRows_eq (table : Str) (properties : List (Str × Str)) :
    propertyRows table properties = ((listed properties).map propertyCells).map (.str table :: ·) := by
  simp [propertyRows, listed, propertyCells, Function.comp_def]

theorem provenanceOf_rows {m : Provenance}
    (h : provenanceOf py (rowsOf .tpchProperties dim fct) = .ok m) : Carries dim m ∧ Carries fct m := by
  simp only [provenanceOf, rowsOf, propertyRows_eq, bind_eq_ok] at h
  obtain ⟨both, hboth, h⟩ := h
  obtain ⟨hdim, hfct⟩ := partition_rows _ _ (propertyCells_width _) (propertyCells_width _) hboth
  rw [hdim, hfct] at h
  simp only [validateTpchProvenance, bind_eq_ok, require_eq_ok, beq_iff_eq, pure_eq_ok] at h
  obtain ⟨d, hd, f, hf, -, hsame, -, -, rfl⟩ := h
  subst hsame
  exact ⟨(List.perm_insertionSort _ _).symm.trans (propertyMap_perm hd),
    (List.perm_insertionSort _ _).symm.trans (propertyMap_perm hf)⟩

/-! ### The artifact -/

/-- The artifact's rows are the result over these states, and the totals over them reconcile. -/
def ComputedFrom (py : Python) (a : Artifact) (dim : Dim) (fct : Fct) : Prop :=
  ∃ sourceTotals tally, validateSourceTotals py (rowsOf .tpchSourceTotals dim fct) = .ok sourceTotals ∧
    (rowsOf .tpchSegmentRevenue dim fct).foldlM (addRow py) Tally.start = .ok tally ∧
    reconcile py tally sourceTotals = .ok () ∧
    a.rows = tally.rows.insertionSort fun x y => x.segment ≤ y.segment

theorem finishArtifact_eq_ok {a b : Artifact} {maxBytes : Nat} (h : finishArtifact a maxBytes = .ok b) :
    b.rows = a.rows ∧ b.provenance = a.provenance ∧ b.snapshots = a.snapshots ∧ b.queryIds = a.queryIds := by
  simp only [finishArtifact, bind_eq_ok, pure_eq_ok] at h
  obtain ⟨_, -, _, -, _, -, rfl⟩ := h
  exact ⟨rfl, rfl, rfl, rfl⟩

theorem checkSnapshots_eq_ok {s s' : Snapshots} (h : checkSnapshots s = .ok s') : s' = s := by
  simp only [checkSnapshots, bind_eq_ok, pure_eq_ok] at h
  obtain ⟨_, -, _, -, rfl⟩ := h
  rfl

theorem checkQueryIds_eq_ok {ids ids' : List Str} (h : checkQueryIds ids = .ok ids') : ids' = ids := by
  simp only [checkQueryIds, bind_eq_ok, pure_eq_ok] at h
  obtain ⟨_, -, _, -, rfl⟩ := h
  rfl

/-- What a built artifact says of its parts. -/
theorem buildTpchArtifact_eq_ok {provenance provenanceAfter : Provenance} {schemas : Both Rows} {rows : Rows}
    {sourceTotals : SourceTotals} {before after : Snapshots} {queryIds : List Str} {a : Artifact}
    (h : buildTpchArtifact py provenance schemas rows sourceTotals before after provenanceAfter queryIds =
      .ok a) :
    provenanceAfter = a.provenance ∧ before = a.snapshots ∧ after = a.snapshots ∧ queryIds = a.queryIds ∧
      ∃ tally, rows.foldlM (addRow py) Tally.start = .ok tally ∧ reconcile py tally sourceTotals = .ok () ∧
        a.rows = tally.rows.insertionSort fun x y => x.segment ≤ y.segment := by
  simp only [buildTpchArtifact, bind_eq_ok, require_eq_ok, beq_iff_eq] at h
  obtain ⟨-, -, -, hprov, b, hb, c, hc, -, hsnap, -, -, tally, htally, _, hrec, ids, hids', hfin⟩ := h
  obtain ⟨hrows, hprovenance, hsnapshots, hids⟩ := finishArtifact_eq_ok hfin
  have hb' : b = before := checkSnapshots_eq_ok hb
  have hc' : c = after := checkSnapshots_eq_ok hc
  have hq' : ids = queryIds := checkQueryIds_eq_ok hids'
  subst hb' hc' hq'
  exact ⟨hprov.trans hprovenance.symm, hsnapshots.symm, hsnap.trans hsnapshots.symm, hids.symm, tally, htally,
    hrec, hrows⟩

end

/-! ### Runs -/

/-- What the artifact of thread `t` is bound to: a state of each table, with the identifiers of the
artifact; the queries for the totals and for the result were evaluated over these two, the artifact
comes of what they gave, and both states carry its provenance. -/
def Bound (py : Python) (t : Nat) (a : Artifact) (s : BiSys) : Prop :=
  ∃ pinned : Lakehouse, pinned.Older s.world ∧
    pinned.dim.current.snapshotId = a.snapshots.dimCustomer ∧
    pinned.fct.current.snapshotId = a.snapshots.fctOrders ∧
    (∃ totalsId ∈ a.queryIds, Evaluated t .tpchSourceTotals pinned totalsId s) ∧
    (∃ resultId ∈ a.queryIds, Evaluated t .tpchSegmentRevenue pinned resultId s) ∧
    ComputedFrom py a pinned.dim.current pinned.fct.current ∧
    Carries pinned.dim.current a.provenance ∧ Carries pinned.fct.current a.provenance

theorem Bound.later {py : Python} {t : Nat} {a : Artifact} {s s' : BiSys} (h : Bound py t a s)
    (hs : Later t s s') : Bound py t a s' := by
  obtain ⟨pinned, holder, hdim, hfct, ⟨i, hi, htotals⟩, ⟨j, hj, hresult⟩, hrest⟩ := h
  exact ⟨pinned, holder.trans hs.older, hdim, hfct, ⟨i, hi, hs.history htotals⟩,
    ⟨j, hj, hs.history hresult⟩, hrest⟩

/-- The seven queries and the checks between them. -/
theorem does_runTpchBi {py : Python} {t : Nat} {s : BiSys} :
    Does t (runTpchBi py) (fun r s' => ∀ a, r = .ok a → Bound py t a s') s := by
  have herror : ∀ (e : Exn) (s' : BiSys), ∀ a, (Except.error e : Except Exn Artifact) = .ok a →
      Bound py t a s' := fun _ _ _ h => nomatch h
  refine does_execute herror fun seen₁ id₁ s₁ _ _ _ _ => ?_
  refine Sat.lift_bind (fun provenance _ => ?_) fun e _ => herror e _
  refine does_execute herror fun seen₂ id₂ s₂ _ h₂ _ _ => ?_
  refine Sat.lift_bind (fun before hbefore => ?_) fun e _ => herror e _
  refine does_execute herror fun seen₃ id₃ s₃ h₂₃ h₃ _ _ => ?_
  refine Sat.lift_bind (fun schemas _ => ?_) fun e _ => herror e _
  refine does_execute herror fun seen₄ id₄ s₄ h₃₄ h₄ _ htotals => ?_
  refine Sat.lift_bind (fun totals htotalsOk => ?_) fun e _ => herror e _
  refine does_execute herror fun seen₅ id₅ s₅ h₄₅ h₅ l₅ hresult => ?_
  refine does_execute herror fun seen₆ id₆ s₆ h₅₆ h₆ l₆ _ => ?_
  refine Sat.lift_bind (fun provenanceAfter hprovenance => ?_) fun e _ => herror e _
  refine does_execute herror fun seen₇ id₇ s₇ h₆₇ h₇ l₇ _ => ?_
  refine Sat.lift_bind (fun after hafter => ?_) fun e _ => herror e _
  refine Sat.lift fun a ha => ?_
  obtain ⟨hprov, hsnapBefore, hsnapAfter, hids, hcomputed⟩ := buildTpchArtifact_eq_ok ha
  subst hsnapBefore hsnapAfter
  obtain ⟨hdim₂, hfct₂⟩ := snapshotMap_rows hbefore
  obtain ⟨hdim₇, hfct₇⟩ := snapshotMap_rows hafter
  -- the two readings of the snapshots enclose whatever was seen between them
  have hpinned : ∀ {seen : Lakehouse}, seen₂.Older seen → seen.Older seen₇ →
      seen.dim.current = seen₂.dim.current ∧ seen.fct.current = seen₂.fct.current := by
    intro seen hle hge
    exact ⟨hle.1.between hge.1 (hdim₂.symm.trans hdim₇), hle.2.between hge.2 (hfct₂.symm.trans hfct₇)⟩
  have h₂₄ : seen₂.Older seen₄ := h₂.trans (h₂₃.trans (h₃.trans h₃₄))
  have h₂₅ : seen₂.Older seen₅ := h₂₄.trans (h₄.trans h₄₅)
  have h₂₆ : seen₂.Older seen₆ := h₂₅.trans (h₅.trans h₅₆)
  have h₆ : seen₆.Older seen₇ := h₆.trans h₆₇
  have h₅ : seen₅.Older seen₇ := h₅.trans (h₅₆.trans h₆)
  have h₄ : seen₄.Older seen₇ := h₄.trans (h₄₅.trans h₅)
  obtain ⟨hdim₄, hfct₄⟩ := hpinned h₂₄ h₄
  obtain ⟨hdim₅, hfct₅⟩ := hpinned h₂₅ h₅
  obtain ⟨hdim₆, hfct₆⟩ := hpinned h₂₆ h₆
  refine ⟨seen₄, h₄.trans h₇, ?_, ?_, ⟨id₄, ?_, ?_⟩, ⟨id₅, ?_, ?_⟩, ?_, ?_⟩
  · rw [hdim₄, hdim₂]
  · rw [hfct₄, hfct₂]
  · rw [← hids]; simp
  · exact l₇.history (l₆.history (l₅.history htotals))
  · rw [← hids]; simp
  · rw [Evaluated, hdim₄, hfct₄, ← hdim₅, ← hfct₅]
    exact l₇.history (l₆.history hresult)
  · obtain ⟨tally, htally, hrec, hrows⟩ := hcomputed
    refine ⟨totals, tally, htotalsOk, ?_, hrec, hrows⟩
    rw [hdim₄, hfct₄, ← hdim₅, ← hfct₅]
    exact htally
  · rw [hdim₄, hfct₄, ← hdim₆, ← hfct₆, ← hprov]
    exact provenanceOf_rows hprovenance

def tpchProtocol (py : Python) : Protocol (tpchMachine py) where
  inv _ := True
  rely := Rely
  guar _ _ s _ _ s' := s'.world = s.world
  post t _ r s := ∀ a, r = .ok a → Bound py t a s
  trans h h' := ⟨h.older.trans h'.older, h'.history.trans h.history⟩
  drift_rely _ _ _ _ hd := ⟨hd.older, rfl⟩
  drift_inv _ _ _ _ := trivial
  guar_rely t u q s e r w hne _ hg := by
    have hw : w = s.world := hg
    subst hw
    exact ⟨Lakehouse.Older.refl _, Sys.next_history_ne _ hne _ _ _⟩
  guar_inv _ _ _ _ _ _ _ _ := trivial
  sat _ _ _ _ _ := does_runTpchBi

theorem rely_refl (t : Nat) (s : BiSys) : Rely t s s := ⟨Lakehouse.Older.refl _, rfl⟩

/-- **Every returned artifact is bound to one pair of states**, whatever was committed meanwhile. -/
theorem artifact_bound (py : Python) {p : Pool Unit Lakehouse Call Answer (Except Exn Artifact)}
    (h : Reachable (tpchMachine py) (fun _ => True) p) {t : Nat} {a : Artifact}
    (ht : p.threads t = some ⟨(), .pure (.ok a)⟩) : Bound py t a p.sys := by
  refine h.post (P := tpchProtocol py) rely_refl (fun _ _ => trivial) ?_ ht a rfl
  intro t _ r s s' hs hpost a ha
  exact (hpost a ha).later hs.later

/-! ### A run -/

/-- The lakehouse and the identifiers the engine will give. -/
structure Scene where
  lakehouse : Lakehouse
  queryIds : List Str

def biCast (py : Python) : Cast (tpchMachine py) Scene where
  world := Scene.lakehouse
  answer _ _ _ s e := match e with
    | .order => some (true, s)
    | .readDim => some (s.lakehouse.dim.current, s)
    | .readFct => some (s.lakehouse.fct.current, s)
    | .finish _ _ _ => s.queryIds.head?.map fun id => (.ok id, { s with queryIds := s.queryIds.tail })
  allowed t q x s e r s' hx h := by
    cases e with
    | order =>
        simp only [Option.some.injEq, Prod.mk.injEq] at h
        exact ⟨trivial, by rw [hx, h.2]⟩
    | readDim =>
        simp only [Option.some.injEq, Prod.mk.injEq] at h
        exact ⟨by rw [hx]; exact h.1.symm, by rw [hx, h.2]⟩
    | readFct =>
        simp only [Option.some.injEq, Prod.mk.injEq] at h
        exact ⟨by rw [hx]; exact h.1.symm, by rw [hx, h.2]⟩
    | finish name dim fct =>
        obtain ⟨id, -, heq⟩ := Option.map_eq_some_iff.mp h
        simp only [Prod.mk.injEq] at heq
        exact ⟨trivial, by rw [hx, ← heq.2]⟩

/-- No floats, and types in lower case. -/
def plainPython : Python where
  floatText := id
  sameKey a b := match a, b with
    | .str x, .str y => x == y
    | _, _ => false
  lower := id

def sampleProvenance : List (Str × Str) :=
  provenanceKeys.zip [lit "tpch", lit "tiny", List.replicate 64 97,
    List.replicate 12 97 ++ 52 :: List.replicate 3 97 ++ 56 :: List.replicate 15 97, List.replicate 64 98]

/-- Five customers of five segments, with one order each. -/
def fiveSegments : Scene where
  lakehouse := {
    dim := {
      current := ⟨7, sampleProvenance, tpchDimSchema, (List.range 5).map fun k : Nat => ⟨some k, some [65 + k]⟩⟩
      past := []
      distinct := List.nodup_singleton _ }
    fct := {
      current := ⟨8, sampleProvenance, tpchFactSchema, (List.range 5).map fun k : Nat => ⟨some k, some 150, some 2⟩⟩
      past := []
      distinct := List.nodup_singleton _ } }
  queryIds := (List.range 7).map fun k => [65 + k]

def artifactOf (x : Stage Unit Lakehouse Call Answer (Except Exn Artifact) Scene) : Option Artifact :=
  match Cast.resultOf x 0 with
  | some (_, .ok a) => some a
  | _ => none

/-- An attempt over these tables returns. -/
theorem artifact_bound_fiveSegments : ∃ (p : Pool Unit Lakehouse Call Answer (Except Exn Artifact))
    (a : Artifact), Reachable (tpchMachine plainPython) (fun _ => True) p ∧
      p.threads 0 = some ⟨(), .pure (.ok a)⟩ ∧ Bound plainPython 0 a p.sys := by
  have hrun : (((biCast plainPython).play [.start 0 (), .upTo 0 fun _ => false]
      ((biCast plainPython).opening fiveSegments)).bind artifactOf).isSome = true := by decide +kernel
  obtain ⟨a, ha⟩ := Option.isSome_iff_exists.mp hrun
  obtain ⟨x, hx, hresult⟩ := Option.bind_eq_some_iff.mp ha
  have hreach : Reachable (tpchMachine plainPython) (fun _ => True) x.pool :=
    Cast.play_reachable trivial hx
  have hthread : x.pool.threads 0 = some ⟨(), .pure (.ok a)⟩ := by
    refine Cast.resultOf_eq_some ?_
    unfold artifactOf at hresult
    split at hresult
    · rename_i heq
      cases hresult
      exact heq
    · cases hresult
  exact ⟨x.pool, a, hreach, hthread, artifact_bound plainPython hreach hthread⟩

end TrinoBi
