/-
The run over the Spark store, part by part.

`Stage` says of a part of the run what the contract asks of it: if it ends with a value, its
calls fit and its facts are allowed; if it throws, it throws a failure of the run just if its
calls fit, and then a fact that does not pass has been recorded.  Stages compose, a guarded
operation is one (`stage_step`), and so is a rejection that the run decides on itself
(`stage_reject`).
-/
import DataEngLab.Quality.Guarantee
import DataEngLab.Quality.Outcomes

namespace Quality

open Lib

variable {α β : Type} {p : Place} {arguments : Arguments}

/-! ### Batches of facts -/

/-- What the store asks of every fact of a batch. -/
structure Sound (runId : Str) (f : QualityFact) : Prop where
  run : f.qualityRunId = runId
  allowed : Allowed f.ruleId f.status f.diagnosticCode
  severity : f.severity = Quality.severity f.status

theorem forM_ok {f : α → Except Thrown Unit} : ∀ {values : List α}, (∀ v ∈ values, f v = .ok ()) →
    values.forM f = .ok ()
  | [], _ => rfl
  | v :: rest, h => by
      change (f v >>= fun _ => rest.forM f) = .ok ()
      rw [h v List.mem_cons_self]
      exact forM_ok fun w hw => h w (List.mem_cons_of_mem _ hw)

/-- **Sound facts of one run about different rules may be merged.** -/
theorem requireBatch_ok {values : List QualityFact} {runId : Str} (hne : values ≠ [])
    (hlength : values.length ≤ 8) (hrun : isSha256 runId = true) (hsound : ∀ f ∈ values, Sound runId f)
    (hrules : (values.map QualityFact.ruleId).Nodup) : requireBatch values = .ok () := by
  have hone : oneRun values = true := by
    cases values with
    | nil => exact absurd rfl hne
    | cons value rest =>
        have hvalue := (hsound value List.mem_cons_self).run
        simp only [oneRun, Bool.and_eq_true, List.all_eq_true, beq_iff_eq]
        refine ⟨fun f hf => ?_, by rwa [hvalue]⟩
        rw [hvalue]
        exact (hsound f (List.mem_cons_of_mem _ hf)).run
  have hkeys : (values.map fun value => (value.qualityRunId, value.ruleId)).Nodup := by
    refine List.Nodup.of_map Prod.snd ?_
    rwa [List.map_map]
  have hexpected : (values.all fun value => expectedRuleIds.contains value.ruleId) = true := by
    rw [List.all_eq_true]
    intro value _
    cases value.ruleId <;> rfl
  have hfacts : (values.forM fun value => do
      requireRuleStatusDiagnostic value.ruleId value.status value.diagnosticCode
      require (value.severity == severity value.status) (lit "quality fact severity is invalid")) =
      .ok () := by
    refine forM_ok fun f hf => ?_
    obtain ⟨-, hallowed, hseverity⟩ := hsound f hf
    rw [(requireRuleStatusDiagnostic_ok (u := ())).mpr hallowed, hseverity]
    exact require_eq_ok.mpr (beq_self_eq_true _)
  simp only [requireBatch, require, bind_eq_ok, require_eq_ok, exists_const]
  refine ⟨?_, hone, decide_eq_true hkeys, hexpected, hfacts⟩
  simp [hne, rules, hlength]

/-- The identifier of a run. -/
def runIdOf (arguments : Arguments) (snapshot : Option SourceSnapshot) : Str :=
  sha256Text (runIdText arguments.logicalDate (snapshot.map SourceSnapshot.id))

theorem runIdOf_isSha256 (arguments : Arguments) (snapshot : Option SourceSnapshot) :
    isSha256 (runIdOf arguments snapshot) = true := sha256_isSha256 _

theorem factOf_sound {snapshot : Option SourceSnapshot} {runId : Str} {ruleId : RuleId}
    {metric : Metric} {status : Status} {diagnostic : Diagnostic} (h : Allowed ruleId status diagnostic) :
    Sound runId (factOf arguments snapshot runId ruleId.definition metric status diagnostic) :=
  ⟨rfl, by simpa [factOf] using h, rfl⟩

/-- A single allowed fact may be merged. -/
theorem requireBatch_single (arguments : Arguments) (snapshot : Option SourceSnapshot) (metric : Metric)
    {ruleId : RuleId} {status : Status} {diagnostic : Diagnostic} (h : Allowed ruleId status diagnostic) :
    requireBatch [factOf arguments snapshot (runIdOf arguments snapshot) ruleId.definition metric status
      diagnostic] = .ok () := by
  refine requireBatch_ok (List.cons_ne_nil _ _) (Nat.succ_le_succ (Nat.zero_le 7)) (runIdOf_isSha256 arguments snapshot) (fun f hf => ?_)
    (List.nodup_singleton _)
  rw [List.mem_singleton.mp hf]
  exact factOf_sound h

/-! ### Records -/

/-- What is recorded is merged, and nothing but a fatal error comes of it. -/
theorem plays_persistDiagnostic {facts : List QualityFact} {l : List BackendEvent}
    {r : Except Thrown Unit} (hne : facts ≠ []) (hbatch : requireBatch facts = .ok ()) (hcalm : Calm l)
    (h : Plays (persistDiagnostic sparkQualityStore facts) l r) :
    r = .ok () ∧ ∃ a, l = [answered .diagnostics (BackendCall.mergeFacts facts) a] := by
  have hmerge : ∀ {l : List BackendEvent} {r : Except Thrown Unit},
      Plays (mergeFacts .diagnostics facts) l r →
        l = [answered .diagnostics (BackendCall.mergeFacts facts) r] := by
    intro l r h
    rcases plays_lift_bind.mp h with ⟨e, he, -⟩ | ⟨u, -, h⟩
    · rw [hbatch] at he
      cases he
    · exact plays_ask.mp h
  rw [persistDiagnostic, if_neg (by simpa using hne)] at h
  rcases plays_handle.mp h with ⟨u, hu, rfl⟩ | ⟨l₁, l₂, e, rfl, he, hrest⟩
  · exact ⟨rfl, _, hmerge hu⟩
  · have hlog := hmerge he
    subst hlog
    have hnot := hcalm _ (List.mem_append_left _ (List.mem_singleton.mpr rfl))
    cases e with
    | fatal => exact absurd rfl hnot
    | _ =>
        obtain ⟨rfl, rfl⟩ := plays_pure.mp hrest
        exact ⟨rfl, _, List.append_nil _⟩

theorem fit_of_diagnostics {facts : List QualityFact} {a : Except Thrown Unit} :
    Fit [answered .diagnostics (BackendCall.mergeFacts facts) a] := by
  intro x hx
  rw [List.mem_singleton.mp hx]
  exact ⟨(fun f _ ruleId hrule => nomatch hrule), (fun h => nomatch h)⟩

theorem attempted_of_diagnostics {facts : List QualityFact} {a : Except Thrown Unit}
    (h : ∃ f ∈ facts, f.status ≠ .pass) :
    Attempted [answered .diagnostics (BackendCall.mergeFacts facts) a] :=
  ⟨facts, a, List.mem_singleton.mpr rfl, h⟩

theorem marked_of_store {q : Place} {c : BackendCall} {a : Except Thrown (BackendAnswer c)} :
    Marked [answered q c a] := by
  intro ruleId status diagnostic hmem
  cases List.mem_singleton.mp hmem

theorem fit_noted {ruleId : RuleId} {status : Status} {diagnostic : Diagnostic} :
    Fit [noted ruleId status diagnostic] := by
  intro x hx
  rw [List.mem_singleton.mp hx]
  trivial

theorem marked_noted {ruleId : RuleId} {status : Status} {diagnostic : Diagnostic}
    (h : Allowed ruleId status diagnostic) : Marked [noted ruleId status diagnostic] := by
  intro r s d hmem
  cases List.mem_singleton.mp hmem
  exact h

theorem not_published_noted {ruleId : RuleId} {status : Status} {diagnostic : Diagnostic} :
    ¬ Published [noted ruleId status diagnostic] := by
  rintro ⟨c, a, hmem⟩
  cases List.mem_singleton.mp hmem

theorem builtFact_of_allowed (arguments : Arguments) (metric : Metric) {snapshot : Option SourceSnapshot}
    {ruleId : RuleId} {status : Status} {diagnostic : Diagnostic}
    (hid : ∀ s, snapshot = some s → 0 < s.id) (h : Allowed ruleId status diagnostic) :
    builtFact arguments snapshot ruleId metric status diagnostic =
      .ok (factOf arguments snapshot (runIdOf arguments snapshot) ruleId.definition metric status
        diagnostic) :=
  builtFact_ok.mpr ⟨h, hid, rfl⟩

/-- A handler either records the failure it caught, or builds a fact that is not allowed and
leaves with the exception of that. -/
theorem plays_recordFailure {snapshot : Option SourceSnapshot} {ruleId : RuleId} {metric : Metric}
    {diagnostic : Diagnostic} {l : List BackendEvent} {r : Except Thrown Unit}
    (hid : ∀ s, snapshot = some s → 0 < s.id) (hcalm : Calm l)
    (h : Plays (recordFailure sparkQualityStore arguments snapshot ruleId metric diagnostic) l r) :
    (Allowed ruleId .fail diagnostic ∧ r = .ok () ∧ Fit l ∧ Marked l ∧ Attempted l) ∨
      (¬ Allowed ruleId .fail diagnostic ∧ ∃ message, r = .error (.illegalArgument message)) := by
  by_cases hallowed : Allowed ruleId .fail diagnostic
  · left
    have hbuilt := builtFact_of_allowed arguments metric hid hallowed
    rcases plays_bind.mp h with ⟨e, he, -⟩ | ⟨l₁, l₂, f, rfl, hfact, hpersist⟩
    · cases (plays_fact.mp he).2.trans hbuilt
    · obtain ⟨rfl, hf⟩ := plays_fact.mp hfact
      obtain rfl := Except.ok.inj (hf.trans hbuilt)
      have hbatch := requireBatch_single arguments snapshot metric hallowed
      obtain ⟨rfl, a, rfl⟩ := plays_persistDiagnostic (List.cons_ne_nil _ _) hbatch
        (calm_append.mp hcalm).2 hpersist
      refine ⟨hallowed, rfl, fit_append.mpr ⟨fit_noted, fit_of_diagnostics⟩,
        marked_append.mpr ⟨marked_noted hallowed, marked_of_store⟩, ?_⟩
      exact (attempted_of_diagnostics ⟨_, List.mem_singleton.mpr rfl,
        (by decide : Status.fail ≠ .pass)⟩).append_left _
  · right
    obtain ⟨message, hmessage⟩ := requireRuleStatusDiagnostic_error hallowed
    have hbuilt : builtFact arguments snapshot ruleId metric .fail diagnostic =
        .error (.illegalArgument message) := by
      rw [builtFact, hmessage]
      rfl
    rcases plays_bind.mp h with ⟨e, he, rfl⟩ | ⟨l₁, l₂, f, rfl, hfact, -⟩
    · obtain ⟨-, he⟩ := plays_fact.mp he
      obtain rfl := Except.error.inj (he.trans hbuilt)
      exact ⟨hallowed, message, rfl⟩
    · cases (plays_fact.mp hfact).2.trans hbuilt

/-! ### Stages -/

/-- What the contract asks of a part of the run.  Only the last part publishes the facts, and only in
the first part can the run fail before the source is looked at. -/
def Stage (first last : Prop) (x : Run BackendAnswer α) (Q : α → Prop) : Prop :=
  ∀ l r, Calm l → Plays x l r → match r with
    | .ok a => Q a ∧ Fit l ∧ Marked l ∧ (Published l → last)
    | .error e => (Fit l → Marked l ∧ (first ∧ ¬ Captured l ∨ Published l ∨ Attempted l)) ∧
        (Fit l ↔ ∃ f, e = .failure f)

variable {first last : Prop}

theorem Stage.bind {x : Run BackendAnswer α} {f : α → Run BackendAnswer β} {Q : α → Prop}
    {Q' : β → Prop} (hx : Stage first False x Q) (hf : ∀ a, Q a → Stage False last (f a) Q') :
    Stage first last (x >>= f) Q' := by
  intro l r hcalm h
  rcases plays_bind.mp h with ⟨e, he, rfl⟩ | ⟨l₁, l₂, a, rfl, ha, hrest⟩
  · exact hx l _ hcalm he
  · obtain ⟨hcalm₁, hcalm₂⟩ := calm_append.mp hcalm
    obtain ⟨hQ, hfit₁, hmarked₁, hnot⟩ := hx l₁ _ hcalm₁ ha
    have hr := hf a hQ l₂ r hcalm₂ hrest
    cases r with
    | ok b =>
        obtain ⟨hQ', hfit₂, hmarked₂, hlast⟩ := hr
        refine ⟨hQ', fit_append.mpr ⟨hfit₁, hfit₂⟩, marked_append.mpr ⟨hmarked₁, hmarked₂⟩, fun hp => ?_⟩
        exact (published_append.mp hp).elim (fun h => (hnot h).elim) hlast
    | error e =>
        obtain ⟨hrecorded, hiff⟩ := hr
        refine ⟨fun hfit => ?_, (fit_append.trans (and_iff_right hfit₁)).trans hiff⟩
        obtain ⟨hmarked₂, hr⟩ := hrecorded (fit_append.mp hfit).2
        refine ⟨marked_append.mpr ⟨hmarked₁, hmarked₂⟩, ?_⟩
        rcases hr with ⟨hfalse, -⟩ | hpublished | hattempted
        · exact hfalse.elim
        · exact .inr (.inl (published_append.mpr (.inr hpublished)))
        · exact .inr (.inr (hattempted.append_left l₁))

/-- The last part, and the result made of what it leaves. -/
theorem Stage.finish {x : Run BackendAnswer α} {Q : α → Prop} {g : α → β}
    (hx : Stage first last x Q) : Stage first last (x >>= fun a => Pure.pure (g a)) fun _ => True := by
  intro l r hcalm h
  rcases plays_bind.mp h with ⟨e, he, rfl⟩ | ⟨l₁, l₂, a, rfl, ha, hrest⟩
  · exact hx l _ hcalm he
  · obtain ⟨rfl, rfl⟩ := plays_pure.mp hrest
    rw [List.append_nil] at hcalm ⊢
    exact ⟨trivial, (hx l₁ _ hcalm ha).2⟩

theorem marked_nil : Marked [] := fun _ _ _ h => nomatch h

theorem not_published_nil : ¬ Published [] := by
  rintro ⟨c, a, h⟩
  cases h

theorem Stage.pure {a : α} {Q : α → Prop} (h : Q a) :
    Stage first last (Pure.pure a : Run BackendAnswer α) Q := by
  intro l r _ hl
  obtain ⟨rfl, rfl⟩ := plays_pure.mp hl
  exact ⟨h, fit_nil, marked_nil, fun h => absurd h not_published_nil⟩

/-- A computation without calls that succeeds. -/
theorem Stage.lift {x : Except Thrown α} {a : α} {Q : α → Prop} (hx : x = .ok a) (h : Q a) :
    Stage first last (Proc.lift x : Run BackendAnswer α) Q := by
  subst hx
  exact Stage.pure h

theorem stage_fact {snapshot : Option SourceSnapshot} {ruleId : RuleId} {metric : Metric}
    {status : Status} {diagnostic : Diagnostic} (hid : ∀ s, snapshot = some s → 0 < s.id)
    (h : Allowed ruleId status diagnostic) :
    Stage first last (fact arguments snapshot ruleId metric status diagnostic : Run BackendAnswer QualityFact)
      fun f => f = factOf arguments snapshot (runIdOf arguments snapshot) ruleId.definition metric
        status diagnostic := by
  intro l r _ hl
  obtain ⟨rfl, rfl⟩ := plays_fact.mp hl
  rw [builtFact_of_allowed arguments metric hid h]
  exact ⟨rfl, fit_noted, marked_noted h, fun h => absurd h not_published_noted⟩

/-- **A rejection that the run decides on itself is recorded.** -/
theorem stage_reject {facts : List QualityFact} {f : QualityFailure} {Q : α → Prop} (hne : facts ≠ [])
    (hbatch : requireBatch facts = .ok ()) (hfail : ∃ f ∈ facts, f.status ≠ .pass) :
    Stage first last (do
      persistDiagnostic sparkQualityStore facts
      throw (.failure f) : Run BackendAnswer α) Q := by
  intro l r hcalm h
  rcases plays_bind.mp h with ⟨e, he, rfl⟩ | ⟨l₁, l₂, u, rfl, hpersist, hthrow⟩
  · cases (plays_persistDiagnostic hne hbatch hcalm he).1
  · obtain ⟨-, a, rfl⟩ := plays_persistDiagnostic hne hbatch (calm_append.mp hcalm).1 hpersist
    obtain ⟨rfl, rfl⟩ := plays_throw.mp hthrow
    rw [List.append_nil]
    exact ⟨fun _ => ⟨marked_of_store, .inr (.inr (attempted_of_diagnostics hfail))⟩,
      iff_of_true fit_of_diagnostics ⟨f, rfl⟩⟩

/-- A failed check that the run records and leaves with. -/
abbrev diagnosticThrow (arguments : Arguments) (snapshot : Option SourceSnapshot) (ruleId : RuleId)
    (metric : Metric) (diagnostic : Diagnostic) (f : QualityFailure) : Run BackendAnswer α := do
  recordFailure sparkQualityStore arguments snapshot ruleId metric diagnostic
  throw (.failure f)

/-- A rejection with a single fact. -/
theorem stage_record_reject {snapshot : Option SourceSnapshot} {ruleId : RuleId} {metric : Metric}
    {diagnostic : Diagnostic} {f : QualityFailure} {Q : α → Prop}
    (hid : ∀ s, snapshot = some s → 0 < s.id) (h : Allowed ruleId .fail diagnostic) :
    Stage first last (diagnosticThrow arguments snapshot ruleId metric diagnostic f : Run BackendAnswer α) Q := by
  intro l r hcalm hl
  rcases plays_bind.mp hl with ⟨e, he, rfl⟩ | ⟨l₁, l₂, u, rfl, hrecord, hthrow⟩
  · rcases plays_recordFailure hid hcalm he with ⟨-, hr, -⟩ | ⟨hnot, -⟩
    · cases hr
    · exact absurd h hnot
  · obtain ⟨rfl, rfl⟩ := plays_throw.mp hthrow
    rw [List.append_nil] at hcalm ⊢
    rcases plays_recordFailure hid hcalm hrecord with ⟨-, -, hfit, hmarked, hattempted⟩ | ⟨hnot, -⟩
    · exact ⟨fun _ => ⟨hmarked, .inr (.inr hattempted)⟩, iff_of_true hfit ⟨f, rfl⟩⟩
    · exact absurd h hnot

theorem marked_of_madeAt {l : List BackendEvent} (h : ∀ e ∈ l, MadeAt p e) : Marked l :=
  fun _ _ _ hmem => (h _ hmem).elim

theorem not_published_of_madeAt {l : List BackendEvent} (hp : p ≠ .writeFacts)
    (h : ∀ e ∈ l, MadeAt p e) : ¬ Published l := by
  rintro ⟨c, a, hmem⟩
  exact hp (h _ hmem).symm

/-- **A guarded operation.**  What it throws becomes a failure of the run, which its handler
records if the code allows; the handler leaves with another exception just if a call of the
operation threw a failure that cannot be recorded. -/
theorem stage_step {x : Run BackendAnswer α} {Q : α → Prop} {otherwise : QualityFailure}
    {snapshot : Option SourceSnapshot} {rule : QualityFailure → RuleId} {metric : Metric}
    (hx : Operation p x Q) (hrule : ∀ f, handlerRule p f = some (rule f))
    (hotherwise : Recordable p otherwise) (hid : ∀ s, snapshot = some s → 0 < s.id) :
    Stage first last (onFailure (controlled otherwise x) fun f =>
      recordFailure sparkQualityStore arguments snapshot (rule f) metric f.diagnosticCode) Q := by
  have hp : p ≠ .writeFacts := by
    rintro rfl
    cases hrule otherwise
  intro l r hcalm h
  cases r with
  | ok a =>
      rw [plays_onFailure_ok, plays_controlled_ok] at h
      obtain ⟨hat, hQ, hfit⟩ := hx l _ hcalm h
      exact ⟨hQ, hfit, marked_of_madeAt hat, fun hpub => absurd hpub (not_published_of_madeAt hp hat)⟩
  | error e =>
      rcases plays_onFailure_error h with ⟨hnot, hop⟩ | ⟨l₁, l₂, f, rfl, hop, hhandler⟩
      · -- only a fatal error is not a failure here
        obtain ⟨e', hop', rfl⟩ := plays_controlled_error.mp hop
        obtain ⟨-, hfatal, -⟩ := hx l _ hcalm hop'
        cases e' with
        | failure f => exact absurd rfl (hnot f)
        | illegalArgument message => exact absurd rfl (hnot otherwise)
        | nonFatal => exact absurd rfl (hnot otherwise)
        | fatal => exact absurd rfl hfatal
      · obtain ⟨e', hop', hf⟩ := plays_controlled_error.mp hop
        obtain ⟨hcalm₁, hcalm₂⟩ := calm_append.mp hcalm
        obtain ⟨hat, -, hfit⟩ := hx l₁ _ hcalm₁ hop'
        have hrecordable : Fit l₁ ↔ Allowed (rule f) .fail f.diagnosticCode := by
          refine hfit.trans ⟨fun hrec => ?_, fun hallowed g hg => ?_⟩
          · cases e' with
            | failure g =>
                obtain rfl := Thrown.failure.inj hf
                exact hrec f rfl _ (hrule f)
            | illegalArgument message =>
                obtain rfl := Thrown.failure.inj hf
                exact hotherwise _ (hrule f)
            | nonFatal =>
                obtain rfl := Thrown.failure.inj hf
                exact hotherwise _ (hrule f)
            | fatal => cases hf
          · subst hg
            obtain rfl := Thrown.failure.inj hf
            intro ruleId hruleId
            rw [hrule f] at hruleId
            obtain rfl := Option.some.inj hruleId
            exact hallowed
        rcases hhandler with hhandler | ⟨hhandler, rfl⟩
        · rcases plays_recordFailure hid hcalm₂ hhandler with ⟨-, hr, -⟩ | ⟨hnot, message, hr⟩
          · cases hr
          · obtain rfl := Except.error.inj hr
            have hunfit : ¬ Fit (l₁ ++ l₂) := fun hfit =>
              hnot (hrecordable.mp (fit_append.mp hfit).1)
            refine ⟨fun hfit => absurd hfit hunfit, iff_of_false hunfit ?_⟩
            rintro ⟨g, hg⟩
            cases hg
        · rcases plays_recordFailure hid hcalm₂ hhandler with
            ⟨hallowed, -, hfit₂, hmarked₂, hattempted⟩ | ⟨-, message, hr⟩
          · refine ⟨fun _ => ⟨marked_append.mpr ⟨marked_of_madeAt hat, hmarked₂⟩,
              .inr (.inr (hattempted.append_left l₁))⟩, iff_of_true (fit_append.mpr ?_) ⟨f, rfl⟩⟩
            exact ⟨hrecordable.mpr hallowed, hfit₂⟩
          · cases hr

/-! ### The parts of the run -/

section
variable {snapshot : SourceSnapshot}

theorem recordable_of_none {q : Place} (h : ∀ f, handlerRule q f = none) (f : QualityFailure) :
    Recordable q f := by
  intro ruleId hrule
  rw [h f] at hrule
  cases hrule

theorem positive_some (hid : 0 < snapshot.id) : ∀ s, some snapshot = some s → 0 < s.id := by
  intro s hs
  obtain rfl := Option.some.inj hs
  exact hid

/-- A guarded operation after the split. -/
theorem stage_guarded {x : Run BackendAnswer α} {Q : α → Prop} {otherwise : QualityFailure}
    (hx : Operation p x Q) (hrule : ∀ f, handlerRule p f = some .outputReadback)
    (hotherwise : otherwise.diagnosticCode = .readbackMismatch) (hid : 0 < snapshot.id) :
    Stage first last (guarded sparkQualityStore arguments snapshot otherwise x) Q := by
  refine stage_step hx hrule ?_ (positive_some hid)
  intro ruleId hruleId
  rw [hrule] at hruleId
  obtain rfl := Option.some.inj hruleId
  rw [hotherwise]
  decide

theorem capture_iff : Place.capture = .recheck ↔ ¬ Recordable .capture sourceSchemaMismatch := by
  refine iff_of_false (by decide) (not_not.mpr ?_)
  intro ruleId hrule
  obtain rfl : RuleId.schema = ruleId := Option.some.inj hrule
  decide

theorem recheck_iff : Place.recheck = .recheck ↔ ¬ Recordable .recheck sourceSchemaMismatch := by
  refine iff_of_true rfl fun h => ?_
  exact absurd (h .outputReadback rfl) (by decide)

theorem captureSnapshot_stage : Stage False False (captureSnapshot sparkQualityStore arguments) fun found =>
    ∀ s, found = some s → 0 < s.id := by
  have hmeta : ∀ f : QualityFailure, f.category = lit "source_metadata" →
      f.diagnosticCode = .readbackMismatch → Recordable .capture f := by
    intro f hcategory hcode ruleId hrule
    have hne : f.category ≠ lit "source_schema" := by
      rw [hcategory]
      decide
    obtain rfl : captureRule f = ruleId := Option.some.inj hrule
    rw [captureRule, if_neg hne, hcode]
    decide
  exact stage_step (captureSource_operation capture_iff (hmeta _ rfl rfl)) (fun f => rfl)
    (hmeta _ rfl rfl) nofun

/-- From the first look at the source on. -/
def openCaptured (store : QualityStore BackendAnswer) (arguments : Arguments) :
    Option SourceSnapshot → Run BackendAnswer SourceSnapshot
  | none => do
      let diagnosed ← fact arguments none .sourceAvailable .none .missing .sourceMissing
      persistDiagnostic store [diagnosed]
      throw (.failure sourceMissing)
  | some snapshot => do
      requireFresh store arguments snapshot
      return snapshot

theorem openCaptured_stage {found : Option SourceSnapshot} (hid : ∀ s, found = some s → 0 < s.id) :
    Stage False False (openCaptured sparkQualityStore arguments found) fun s => 0 < s.id := by
  cases found with
  | none =>
      refine Stage.bind (stage_fact nofun (by decide)) fun f hf => ?_
      subst hf
      exact stage_reject (List.cons_ne_nil _ _) (requireBatch_single arguments none .none (by decide))
        ⟨_, List.mem_singleton.mpr rfl, (by decide : Status.missing ≠ .pass)⟩
  | some snapshot =>
      refine Stage.bind (Q := fun _ => True) ?_ fun _ _ => Stage.pure (hid snapshot rfl)
      rw [requireFresh]
      split
      · refine Stage.bind (stage_fact hid (by decide)) fun f hf => ?_
        subst hf
        exact stage_reject (List.cons_ne_nil _ _)
          (requireBatch_single arguments (some snapshot) (ageMetric arguments snapshot) (by decide))
          ⟨_, List.mem_singleton.mpr rfl, (by decide : Status.stale ≠ .pass)⟩
      · exact Stage.pure trivial

theorem readSource_stage (hid : 0 < snapshot.id) :
    Stage False False (readSource sparkQualityStore arguments snapshot) fun bronze =>
      bronze.schema = bronzeSchema := by
  have hread : Stage False False (onFailure (controlled sourceUnreadable (readBronze .readBronze)) fun f =>
      recordFailure sparkQualityStore arguments (some snapshot) .sourceAvailable .none f.diagnosticCode)
      fun frame : Table => frame.schema = bronzeSchema := by
    refine stage_step (readBronze_operation (by decide)) (fun f => rfl) ?_ (positive_some hid)
    intro ruleId hrule
    obtain rfl := Option.some.inj hrule
    decide
  refine Stage.bind hread fun bronze hbronze => ?_
  have hexact : assertExactSchema bronze.toFrame = .ok () := assertExactSchema_ok.mpr hbronze
  rw [hexact]
  exact Stage.bind (Q := fun _ => True) (Stage.pure trivial) fun _ _ => Stage.pure hbronze

theorem countSource_stage {bronze : Frame} (hid : 0 < snapshot.id) :
    Stage False False (countSource sparkQualityStore arguments snapshot bronze) fun n =>
      n = bronze.count ∧ 0 < n := by
  have hcount : Stage False False (onFailure (controlled sourceUncounted (action .countBronze bronze.count))
      fun f => recordFailure sparkQualityStore arguments (some snapshot) .sourceAvailable .none
        f.diagnosticCode) fun n => n = bronze.count := by
    refine stage_step Operation.action (fun f => rfl) ?_ (positive_some hid)
    intro ruleId hrule
    obtain rfl := Option.some.inj hrule
    decide
  refine Stage.bind hcount fun n hn => ?_
  cases n with
  | zero =>
      exact Stage.bind (Q := fun _ => False) (stage_record_reject (positive_some hid) (by decide))
        fun _ h => h.elim
  | succ k => exact Stage.bind (Q := fun _ => True) (Stage.pure trivial) fun _ _ =>
      Stage.pure ⟨hn, Nat.succ_pos k⟩

/-- A fact about the snapshot. -/
theorem stage_factFor {ruleId : RuleId} {metric : Metric} {status : Status} {diagnostic : Diagnostic}
    (hid : 0 < snapshot.id) (h : Allowed ruleId status diagnostic) :
    Stage first last (fact arguments (some snapshot) ruleId metric status diagnostic :
      Run BackendAnswer QualityFact) fun f =>
        f = factFor arguments snapshot ruleId metric status diagnostic :=
  stage_fact (positive_some hid) h

theorem bronzeFacts_stage {n m : Nat} (hid : 0 < snapshot.id) :
    Stage False False (bronzeFacts arguments snapshot n (observe .invalidRatio m n) : Run BackendAnswer _)
      fun facts => facts = sourceFacts arguments snapshot n (observe .invalidRatio m n) := by
  refine Stage.bind (stage_factFor hid (by decide)) fun f₁ h₁ => ?_
  refine Stage.bind (stage_factFor hid (by decide)) fun f₂ h₂ => ?_
  refine Stage.bind (stage_factFor hid (by decide)) fun f₃ h₃ => ?_
  refine Stage.bind (stage_factFor hid (observe_allowed (.inl rfl) m n)) fun f₄ h₄ => ?_
  exact Stage.pure (by rw [h₁, h₂, h₃, h₄]; rfl)

theorem factFor_sound {ruleId : RuleId} {metric : Metric} {status : Status} {diagnostic : Diagnostic}
    (h : Allowed ruleId status diagnostic) :
    Sound (runIdOf arguments (some snapshot))
      (factFor arguments snapshot ruleId metric status diagnostic) :=
  factOf_sound h

theorem sourceFacts_sound (arguments : Arguments) (snapshot : SourceSnapshot) (n m : Nat) :
    ∀ f ∈ sourceFacts arguments snapshot n (observe .invalidRatio m n),
      Sound (runIdOf arguments (some snapshot)) f := by
  simp only [sourceFacts, List.forall_mem_cons]
  exact ⟨factFor_sound (by decide), factFor_sound (by decide), factFor_sound (by decide),
    factFor_sound (observe_allowed (.inl rfl) m n), List.forall_mem_nil _⟩

theorem outcomeFacts_sound (arguments : Arguments) (snapshot : SourceSnapshot) (n c q : Nat) :
    ∀ f ∈ outcomeFacts arguments snapshot n c q, Sound (runIdOf arguments (some snapshot)) f := by
  have hclean : Allowed .cleanNonempty (if 0 < c then .pass else .fail)
      (if 0 < c then .ok else .outputEmpty) := by
    split_ifs <;> decide
  simp only [outcomeFacts, List.forall_mem_cons]
  exact ⟨factFor_sound (by decide), factFor_sound hclean,
    factFor_sound (observe_allowed (.inr rfl) q n), factFor_sound (by decide),
    List.forall_mem_nil _⟩

theorem sourceFacts_batch (arguments : Arguments) (snapshot : SourceSnapshot) (n m : Nat) :
    requireBatch (sourceFacts arguments snapshot n (observe .invalidRatio m n)) = .ok () :=
  requireBatch_ok (List.cons_ne_nil _ _) (by simp [sourceFacts]) (runIdOf_isSha256 arguments _)
    (sourceFacts_sound arguments snapshot n m)
    (show [RuleId.sourceAvailable, .schema, .snapshotFreshness, .invalidRatio].Nodup by decide)

theorem intendedFacts_batch (arguments : Arguments) (snapshot : SourceSnapshot) (n m c q : Nat) :
    requireBatch (intendedFacts arguments snapshot n m c q) = .ok () := by
  refine requireBatch_ok (List.cons_ne_nil _ _) (by simp [intendedFacts, sourceFacts, outcomeFacts])
    (runIdOf_isSha256 arguments (some snapshot)) ?_ ?_
  · exact List.forall_mem_append.mpr ⟨sourceFacts_sound arguments snapshot n m,
      outcomeFacts_sound arguments snapshot n c q⟩
  · rw [intendedFacts_rules]
    decide

theorem judgeSource_stage {bronze : Frame} {n : Nat} (hid : 0 < snapshot.id) (hn : n = bronze.count)
    (hpos : 0 < n) :
    Stage False False (judgeSource sparkQualityStore arguments snapshot bronze n) fun facts =>
      ∃ m, facts = sourceFacts arguments snapshot n (observe .invalidRatio m n) := by
  have hcount : Stage False False (countInvalid sparkQualityStore arguments snapshot bronze n) fun m =>
      m ≤ n := by
    have hop : Operation .countInvalid (invalidCount .countInvalid bronze : Run BackendAnswer Nat)
        fun m => m ≤ n := by
      refine Operation.bind assertExactSchema_operation fun _ _ => Operation.action.mono fun m hm => ?_
      rw [hm, hn]
      exact List.countP_le_length
    refine stage_step hop (fun f => rfl) ?_ (positive_some hid)
    intro ruleId hrule
    obtain rfl := Option.some.inj hrule
    decide
  refine Stage.bind hcount fun m hm => ?_
  rw [ratioObservation_eq (.inl rfl) hpos hm]
  refine Stage.bind (Q := fun o => o = observe .invalidRatio m n) (Stage.pure rfl) fun o ho => ?_
  subst ho
  refine Stage.bind (bronzeFacts_stage hid) fun facts hfacts => ?_
  subst hfacts
  refine Stage.bind (Q := fun _ => True) ?_ fun _ _ => Stage.pure ⟨m, rfl⟩
  rw [requireBelowFail]
  split
  · rename_i hfail
    refine stage_reject (List.cons_ne_nil _ _) (sourceFacts_batch arguments snapshot n m) ?_
    refine ⟨factFor arguments snapshot .invalidRatio (ratioMetric (observe .invalidRatio m n))
      (observe .invalidRatio m n).status (observe .invalidRatio m n).diagnosticCode, ?_, ?_⟩
    · simp [sourceFacts]
    · show (observe .invalidRatio m n).status ≠ .pass
      rw [hfail]
      decide
  · exact Stage.pure trivial

theorem partitionSource_stage {bronze : Frame} {n : Nat} (hid : 0 < snapshot.id)
    (hbronze : bronze.schema = bronzeSchema) :
    Stage False False (partitionSource sparkQualityStore arguments snapshot bronze n) fun _ => True := by
  have hsplit : ∃ parts, split bronze = .ok parts := by
    rw [split, (assertExactSchema_ok (u := ())).mpr hbronze]
    exact ⟨_, rfl⟩
  obtain ⟨parts, hparts⟩ := hsplit
  rw [partitionSource, hparts]
  refine Stage.bind (Q := fun found => found = parts) (Stage.pure rfl) fun found hfound => ?_
  subst hfound
  have hcheck : Stage False False (onFailure (controlled partitionFailed
      (assertPartition .partition bronze found.clean found.quarantine)) fun f =>
        recordFailure sparkQualityStore arguments (some snapshot) .partitionConservation
          ⟨none, some n, none⟩ f.diagnosticCode) fun _ => True := by
    refine stage_step (assertPartition_operation.mono fun _ _ => trivial) (fun f => rfl) ?_
      (positive_some hid)
    intro ruleId hrule
    obtain rfl := Option.some.inj hrule
    decide
  exact Stage.bind hcheck fun _ _ => Stage.pure trivial

theorem writeSilver_stage {bronze : Frame} {parts : SplitResult} {properties : Properties}
    (hid : 0 < snapshot.id) :
    Stage False False (writeSilver sparkQualityStore arguments snapshot bronze parts properties) fun silver =>
      Partitioned bronze silver.1.toFrame silver.2.toFrame := by
  refine Stage.bind (stage_guarded (replaceSilver_operation (by decide)) (fun _ => rfl) rfl hid)
    fun _ _ => ?_
  refine Stage.bind (stage_guarded (readSilver_operation (by decide)) (fun _ => rfl) rfl hid)
    fun clean _ => ?_
  refine Stage.bind (stage_guarded (replaceSilver_operation (by decide)) (fun _ => rfl) rfl hid)
    fun _ _ => ?_
  refine Stage.bind (stage_guarded (readSilver_operation (by decide)) (fun _ => rfl) rfl hid)
    fun quarantine _ => ?_
  exact Stage.bind (stage_guarded assertPartition_operation (fun _ => rfl) rfl hid)
    fun _ h => Stage.pure h

theorem countSilver_stage {clean quarantine : Frame} (hid : 0 < snapshot.id) :
    Stage False False (countSilver sparkQualityStore arguments snapshot clean quarantine) fun counts =>
      counts = (clean.count, quarantine.count) := by
  refine stage_guarded (p := .countSilver) ?_ (fun _ => rfl) rfl hid
  refine Operation.bind Operation.action fun c hc => Operation.bind Operation.action fun q hq => ?_
  exact Operation.pure (by rw [hc, hq])

theorem recheckSource_stage (hid : 0 < snapshot.id) :
    Stage False False (recheckSource sparkQualityStore arguments snapshot) fun _ => True := by
  have hmeta : Recordable .recheck sourceMetadataInvalid := by
    intro ruleId hrule
    obtain rfl : RuleId.outputReadback = ruleId := Option.some.inj hrule
    decide
  refine Stage.bind (stage_guarded (captureSource_operation recheck_iff hmeta) (fun _ => rfl) rfl hid)
    fun found _ => ?_
  cases decide (found = some snapshot) with
  | true => exact Stage.pure trivial
  | false => exact stage_record_reject (positive_some hid) (by decide)

theorem silverFacts_stage {n c q : Nat} (hid : 0 < snapshot.id) (hpos : 0 < n) (hle : q ≤ n) :
    Stage False False (silverFacts arguments snapshot n c q : Run BackendAnswer _) fun facts =>
      facts = outcomeFacts arguments snapshot n c q := by
  have hclean : Allowed .cleanNonempty (if 0 < c then .pass else .fail)
      (if 0 < c then .ok else .outputEmpty) := by
    split_ifs <;> decide
  rw [silverFacts, ratioObservation_eq (.inr rfl) hpos hle]
  refine Stage.bind (Q := fun o => o = observe .quarantineRatio q n) (Stage.pure rfl) fun o ho => ?_
  subst ho
  refine Stage.bind (stage_factFor hid (by decide)) fun f₁ h₁ => ?_
  refine Stage.bind (stage_factFor hid hclean) fun f₂ h₂ => ?_
  refine Stage.bind (stage_factFor hid (observe_allowed (.inr rfl) q n)) fun f₃ h₃ => ?_
  refine Stage.bind (stage_factFor hid (by decide)) fun f₄ h₄ => ?_
  exact Stage.pure (by rw [h₁, h₂, h₃, h₄]; rfl)

theorem judgeOutcome_stage {n m c q : Nat} :
    Stage False False (judgeOutcome sparkQualityStore (intendedFacts arguments snapshot n m c q)) fun _ =>
      True := by
  obtain ⟨status, hstatus⟩ : ∃ status, overallStatus
      ((intendedFacts arguments snapshot n m c q).map QualityFact.status) = .ok status := ⟨_, rfl⟩
  rw [judgeOutcome, hstatus]
  refine Stage.bind (Q := fun found => found = status) (Stage.pure rfl) fun found hfound => ?_
  subst hfound
  cases found with
  | fail =>
      obtain ⟨f, hf, hfail⟩ := List.mem_map.mp (overallStatus_ok hstatus).1
      refine stage_reject (List.cons_ne_nil _ _) (intendedFacts_batch arguments snapshot n m c q)
        ⟨f, hf, ?_⟩
      rw [hfail]
      decide
  | _ => exact Stage.pure trivial

/-- A guarded operation whose failures nobody records. -/
theorem plays_controlled_fit {x : Run BackendAnswer α} {Q : α → Prop} {otherwise : QualityFailure}
    {l : List BackendEvent} {r : Except Thrown α} (hx : Operation p x Q)
    (hrule : ∀ f, handlerRule p f = none) (hcalm : Calm l)
    (h : Plays (controlled otherwise x) l r) :
    (∀ e ∈ l, MadeAt p e) ∧ Fit l ∧ ∀ e, r = .error e → ∃ f, e = .failure f := by
  cases r with
  | ok a =>
      rw [plays_controlled_ok] at h
      obtain ⟨hat, -, hfit⟩ := hx l _ hcalm h
      exact ⟨hat, hfit, fun e he => nomatch he⟩
  | error e =>
      obtain ⟨e', hop, rfl⟩ := plays_controlled_error.mp h
      obtain ⟨hat, hfatal, hfit⟩ := hx l _ hcalm hop
      refine ⟨hat, hfit.mpr fun f _ => recordable_of_none hrule f, fun e he => ?_⟩
      obtain rfl := Except.error.inj he
      cases e' with
      | fatal => exact absurd rfl hfatal
      | _ => exact ⟨_, rfl⟩

theorem ensureFacts_stage :
    Stage True False (controlled factsUnavailable (ensureFactsTable .ensureFacts)) fun _ => True := by
  intro l r hcalm h
  obtain ⟨hat, hfit, hfailure⟩ :=
    plays_controlled_fit (ensureFactsTable_operation (by decide)) (fun _ => rfl) hcalm h
  cases r with
  | ok u =>
      exact ⟨trivial, hfit, marked_of_madeAt hat,
        fun hpub => absurd hpub (not_published_of_madeAt (by decide) hat)⟩
  | error e =>
      refine ⟨fun _ => ⟨marked_of_madeAt hat, .inl ⟨trivial, ?_⟩⟩, iff_of_true hfit (hfailure e rfl)⟩
      rintro ⟨c, a, hmem⟩
      have hplace : Place.capture = .ensureFacts := hat _ hmem
      cases hplace

/-- A part of the publication after the facts were handed over. -/
def Fine (x : Run BackendAnswer α) : Prop :=
  ∀ l r, Calm l → Plays x l r → Fit l ∧ Marked l ∧ ∀ e, r = .error e → ∃ f, e = .failure f

theorem Fine.bind {x : Run BackendAnswer α} {f : α → Run BackendAnswer β} (hx : Fine x)
    (hf : ∀ a, Fine (f a)) : Fine (x >>= f) := by
  intro l r hcalm h
  rcases plays_bind.mp h with ⟨e, he, rfl⟩ | ⟨l₁, l₂, a, rfl, ha, hrest⟩
  · obtain ⟨hfit, hmarked, hfailure⟩ := hx l _ hcalm he
    refine ⟨hfit, hmarked, fun e' he' => ?_⟩
    obtain rfl := Except.error.inj he'
    exact hfailure e rfl
  · obtain ⟨hcalm₁, hcalm₂⟩ := calm_append.mp hcalm
    obtain ⟨hfit₁, hmarked₁, -⟩ := hx l₁ _ hcalm₁ ha
    obtain ⟨hfit₂, hmarked₂, hfailure⟩ := hf a l₂ r hcalm₂ hrest
    exact ⟨fit_append.mpr ⟨hfit₁, hfit₂⟩, marked_append.mpr ⟨hmarked₁, hmarked₂⟩, hfailure⟩

theorem Fine.controlled {x : Run BackendAnswer α} {Q : α → Prop} {otherwise : QualityFailure}
    (hx : Operation p x Q) (hrule : ∀ f, handlerRule p f = none) : Fine (controlled otherwise x) := by
  intro l r hcalm h
  obtain ⟨hat, hfit, hfailure⟩ := plays_controlled_fit hx hrule hcalm h
  exact ⟨hfit, marked_of_madeAt hat, hfailure⟩

theorem requireFactsReadback_operation {frame : Frame} {expected : List QualityFact} :
    Operation .matchFacts (requireFactsReadback frame expected : Run BackendAnswer Unit) fun _ =>
      True := by
  have hrequire : ∀ {c : Bool}, Operation .matchFacts
      (Proc.lift (Lib.require c (Thrown.failure factsDiffer)) : Run BackendAnswer Unit) fun _ => True := by
    intro c
    refine Operation.lift (fun _ _ => trivial) fun e he => ?_
    obtain ⟨-, rfl⟩ := require_eq_error.mp he
    exact ⟨nofun, fun f _ => recordable_of_none (fun _ => rfl) f⟩
  exact Operation.bind hrequire fun _ _ => Operation.bind Operation.action fun _ _ =>
    Operation.bind hrequire fun _ _ => Operation.bind Operation.action fun _ _ =>
    Operation.bind hrequire fun _ _ => Operation.bind Operation.action fun _ _ => hrequire

theorem publishFacts_stage {runId : Str} {facts : List QualityFact}
    (hbatch : requireBatch facts = .ok ()) :
    Stage False True (publishFacts sparkQualityStore runId facts) fun _ => True := by
  have hmerge : ∀ {l : List BackendEvent} {r : Except Thrown Unit},
      Plays (mergeFacts .writeFacts facts) l r →
        l = [answered .writeFacts (BackendCall.mergeFacts facts) r] := by
    intro l r h
    rcases plays_lift_bind.mp h with ⟨e, he, -⟩ | ⟨u, -, h⟩
    · rw [hbatch] at he
      cases he
    · exact plays_ask.mp h
  have hcontrolled : ∀ {l : List BackendEvent} {r : Except Thrown Unit},
      Plays (controlled factsUnwritten (mergeFacts .writeFacts facts)) l r → Published l := by
    intro l r h
    cases r with
    | ok u =>
        rw [plays_controlled_ok] at h
        rw [hmerge h]
        exact ⟨_, _, List.mem_singleton.mpr rfl⟩
    | error e =>
        obtain ⟨e', he, -⟩ := plays_controlled_error.mp h
        rw [hmerge he]
        exact ⟨_, _, List.mem_singleton.mpr rfl⟩
  have hfine : Fine (publishFacts sparkQualityStore runId facts) := by
    have hwrite : Operation .writeFacts (mergeFacts .writeFacts facts) fun _ => True := by
      rw [mergeFacts, hbatch]
      exact Operation.bind (Operation.lift (fun _ _ => trivial) nofun) fun _ _ =>
        Operation.ask fun h => nomatch h
    exact Fine.bind (Fine.controlled hwrite fun _ => rfl) fun _ =>
      Fine.bind (Fine.controlled (readFacts_operation (by decide)) fun _ => rfl) fun _ =>
      Fine.controlled requireFactsReadback_operation fun _ => rfl
  intro l r hcalm h
  obtain ⟨hfit, hmarked, hfailure⟩ := hfine l r hcalm h
  have hpublished : Published l := by
    rcases plays_bind.mp h with ⟨e, he, -⟩ | ⟨l₁, l₂, a, rfl, ha, -⟩
    · exact hcontrolled he
    · exact published_append.mpr (.inl (hcontrolled ha))
  cases r with
  | ok u => exact ⟨trivial, hfit, hmarked, fun _ => trivial⟩
  | error e =>
      exact ⟨fun _ => ⟨hmarked, .inr (.inl hpublished)⟩, iff_of_true hfit (hfailure e rfl)⟩

end

/-! ### The run -/

theorem prepare_stage : Stage True False (prepare sparkQualityStore arguments) fun p =>
    0 < p.snapshot.id ∧ p.sourceCount = p.bronze.count ∧ 0 < p.sourceCount ∧
      ∃ m, p.facts = sourceFacts arguments p.snapshot p.sourceCount
        (observe .invalidRatio m p.sourceCount) := by
  have hopen : Stage True False (openSource sparkQualityStore arguments) fun s => 0 < s.id := by
    refine Stage.bind ensureFacts_stage fun _ _ => ?_
    refine Stage.bind captureSnapshot_stage fun found hfound => ?_
    have h : Stage False False (openCaptured sparkQualityStore arguments found) fun s => 0 < s.id :=
      openCaptured_stage hfound
    cases found with
    | none => exact h
    | some snapshot => exact h
  refine Stage.bind hopen fun snapshot hid => ?_
  refine Stage.bind (readSource_stage hid) fun bronze hbronze => ?_
  refine Stage.bind (countSource_stage hid) fun n hn => ?_
  refine Stage.bind (judgeSource_stage hid hn.1 hn.2) fun facts hfacts => ?_
  exact Stage.bind (partitionSource_stage hid hbronze) fun parts _ =>
    Stage.pure ⟨hid, hn.1, hn.2, hfacts⟩

theorem run_stage : Stage True True (run sparkQualityStore arguments) fun _ => True := by
  refine Stage.bind prepare_stage fun p hp => ?_
  obtain ⟨hid, hn, hpos, m, hfacts⟩ := hp
  have hrunId : qualityRunId arguments.logicalDate (some p.snapshot.id) =
      .ok (runIdOf arguments (some p.snapshot)) := qualityRunId_ok.mpr ⟨fun id hs => by
        obtain rfl := Option.some.inj hs
        exact hid, rfl⟩
  obtain ⟨properties, hproperties⟩ : ∃ properties,
      forRun (runIdOf arguments (some p.snapshot)) p.snapshot.id = .ok properties := by
    simp only [forRun, require, runIdOf_isSha256, hid, decide_true, require_true]
    exact ⟨_, rfl⟩
  rw [publish, hrunId]
  refine Stage.bind (Q := fun runId => runId = runIdOf arguments (some p.snapshot)) (Stage.pure rfl)
    fun runId hrunId => ?_
  subst hrunId
  rw [hproperties]
  refine Stage.bind (Q := fun _ => True) (Stage.pure trivial) fun properties _ => ?_
  refine Stage.bind (writeSilver_stage hid) fun silver hsilver => ?_
  refine Stage.bind (countSilver_stage hid) fun counts hcounts => ?_
  have hle : counts.2 ≤ p.sourceCount := by
    rw [hcounts, hn, ← hsilver.counts]
    exact Nat.le_add_left _ _
  refine Stage.bind (recheckSource_stage hid) fun _ _ => ?_
  refine Stage.bind (silverFacts_stage hid hpos hle) fun outcome houtcome => ?_
  rw [houtcome, hfacts]
  refine Stage.bind judgeOutcome_stage fun status _ => ?_
  exact Stage.finish (publishFacts_stage (intendedFacts_batch arguments p.snapshot _ m _ _))

/-- **The contract is kept exactly when every call fits.**  A run whose backend throws no fatal error
returns or leaves with a failure of its own, builds only allowed facts and records every rejection
after its first look at the source, just if no call threw a failure that cannot be recorded where it
is caught, and the source had not lost its schema when it was looked at again. -/
theorem contract_iff (arguments : Arguments) (l : List BackendEvent) (r : Except Thrown RunResult)
    (hcalm : Calm l) (h : Plays (run sparkQualityStore arguments) l r) : Contract l r ↔ Fit l := by
  have hstage := run_stage l r hcalm h
  cases r with
  | ok result =>
      obtain ⟨-, hfit, hmarked, -⟩ := hstage
      exact iff_of_true ⟨(fun e he => nomatch he), hmarked, (fun e he => nomatch he)⟩ hfit
  | error e =>
      obtain ⟨hrecorded, hiff⟩ := hstage
      constructor
      · exact fun hcontract => hiff.mpr (hcontract.controlled e rfl)
      · intro hfit
        obtain ⟨hmarked, hwhy⟩ := hrecorded hfit
        refine ⟨fun e' he => ?_, hmarked, fun e' he hcaptured => ?_⟩
        · obtain rfl := Except.error.inj he
          exact hiff.mp hfit
        · exact hwhy.resolve_left fun hfirst => hfirst.2 hcaptured

/-! ### A source that loses its schema -/

/-- A table of another schema. -/
def otherTable : Table where
  schema := []
  rows := []
  conforms r hr := by cases hr
  countable := countable_nil

/-- The same backend, but the source has another schema when it is looked at again. -/
def lostSchemaAnswer (state : Properties × List QualityFact) :
    (e : Effect BackendCall) → Answer BackendAnswer e × (Properties × List QualityFact)
  | .store .recheck (.table _) => (.ok otherTable, state)
  | e => backendAnswer 1704067200000000 state e

def lostSchemaRun : List BackendEvent × Except Thrown RunResult :=
  record lostSchemaAnswer (run sparkQualityStore sampleArguments) ([], [])

theorem lostSchemaRun_calm : Calm lostSchemaRun.1 := by
  intro x hx
  obtain ⟨state, hstate⟩ := record_answers _ _ _ x hx
  obtain ⟨e, r⟩ := x
  obtain rfl : r = (lostSchemaAnswer state e).1 := hstate
  cases e with
  | job p => exact nofun
  | fact ruleId status diagnostic => trivial
  | store p c => cases c <;> cases p <;> exact nofun

/-- The run left with this message of a failed `require`. -/
def Refuses (r : Except Thrown RunResult) (message : Str) : Bool :=
  match r with
  | .error (.illegalArgument found) => found = message
  | _ => false

theorem eq_error_of_refuses {r : Except Thrown RunResult} {message : Str}
    (h : Refuses r message = true) : r = .error (.illegalArgument message) := by
  cases r with
  | ok result => cases h
  | error e =>
      cases e with
      | illegalArgument found => rw [of_decide_eq_true h]
      | failure f => cases h
      | nonFatal => cases h
      | fatal => cases h

def refusal : Str := lit "quality rule status and diagnostic code do not match"

theorem lostSchemaRun_plays :
    Plays (run sparkQualityStore sampleArguments) lostSchemaRun.1
      (.error (.illegalArgument refusal)) := by
  rw [← eq_error_of_refuses (r := lostSchemaRun.2) (by decide +kernel)]
  exact record_plays _ _ _

/-- **The source loses its schema while the run writes.**  No call throws anything, and the run
leaves with the exception of a failed `require` instead of a failure of its own. -/
theorem lost_schema_uncontrolled : ∃ l,
    Calm l ∧ Plays (run sparkQualityStore sampleArguments) l (.error (.illegalArgument refusal)) ∧
      ¬ Contract l (.error (.illegalArgument refusal)) := by
  refine ⟨_, lostSchemaRun_calm, lostSchemaRun_plays, fun hcontract => ?_⟩
  obtain ⟨f, hf⟩ := hcontract.controlled _ rfl
  cases hf

/-- The condition is about something: in the same run a call does not fit. -/
theorem contract_iff_lost_schema :
    Contract lostSchemaRun.1 (.error (.illegalArgument refusal)) ↔ Fit lostSchemaRun.1 :=
  contract_iff sampleArguments _ _ lostSchemaRun_calm lostSchemaRun_plays

end Quality
