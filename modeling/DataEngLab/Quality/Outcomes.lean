/-
When the run keeps to its contract.

The contract of a run over the Spark store, with a backend that may throw any non-fatal
exception: the run returns or throws a failure of its own, every fact it builds carries an
allowed combination of rule, status and diagnostic, and a rejection after the source was
captured has been recorded with a fact that does not pass, unless the facts were already
being published.

A handler records what went wrong under a rule of its own, with the diagnostic code of the
failure it caught.  Where the code does not fit the rule, building the fact throws, and the
run leaves with that.  There are two ways to bring this about.  The backend may itself throw
a failure of the run's class.  And the source may have lost its schema by the time it is
looked at again: `captureSource` then fails with `schema_mismatch`, which only the schema rule
may carry, while the handler records it under the readback rule.  A call is `Fits` when it
does neither; `contract_iff` says that the contract is kept exactly when every call fits.

The proof follows the run with two assertions.  `Operation` is about the body of a guarded
step, all of whose calls are made from one place; `Stage` is about a part of the run with its
handlers.
-/
import DataEngLab.Quality.Returned

namespace Quality

open Lib

/-- The calls of the backend, and their answers. -/
abbrev BackendEvent : Type := Event (Effect BackendCall) (Answer BackendAnswer)

/-! ### The contract -/

/-- A call of the store or a job that did not end in a fatal error. -/
def NotFatal : BackendEvent → Prop
  | ⟨.store _ _, r⟩ => r ≠ .error .fatal
  | ⟨.job _, r⟩ => r ≠ .error .fatal
  | ⟨.fact _ _ _, _⟩ => True

def Calm (l : List BackendEvent) : Prop := ∀ x ∈ l, NotFatal x

/-- The facts have begun to be published. -/
def Published (l : List BackendEvent) : Prop :=
  ∃ (c : BackendCall) (a : Except Thrown (BackendAnswer c)), answered .writeFacts c a ∈ l

/-- A fact that does not pass was to be recorded. -/
def Attempted (l : List BackendEvent) : Prop :=
  ∃ facts a, answered .diagnostics (BackendCall.mergeFacts facts) a ∈ l ∧
    ∃ f ∈ facts, f.status ≠ .pass

/-- The source has been looked at. -/
def Captured (l : List BackendEvent) : Prop :=
  ∃ (c : BackendCall) (a : Except Thrown (BackendAnswer c)), answered .capture c a ∈ l

/-- Every fact that was built carries an allowed combination. -/
def Marked (l : List BackendEvent) : Prop :=
  ∀ ruleId status diagnostic, noted ruleId status diagnostic ∈ l → Allowed ruleId status diagnostic

/-- The contract of a run that made the calls of a log and ended as `r` says. -/
structure Contract (l : List BackendEvent) (r : Except Thrown RunResult) : Prop where
  controlled : ∀ e, r = .error e → ∃ f, e = .failure f
  marked : Marked l
  recorded : ∀ e, r = .error e → Captured l → Published l ∨ Attempted l

/-! ### The condition -/

/-- The rule that a failure caught at a place is recorded under. -/
def handlerRule (p : Place) (f : QualityFailure) : Option RuleId :=
  match p with
  | .capture => some (captureRule f)
  | .readBronze | .countBronze => some .sourceAvailable
  | .countInvalid => some .invalidRatio
  | .partition => some .partitionConservation
  | .writeClean | .readClean | .writeQuarantine | .readQuarantine | .readback | .countSilver
  | .recheck => some .outputReadback
  | .ensureFacts | .writeFacts | .readFacts | .matchFacts | .diagnostics => none

/-- The failure can be recorded by the handler of its place. -/
def Recordable (p : Place) (f : QualityFailure) : Prop :=
  ∀ ruleId, handlerRule p f = some ruleId → Allowed ruleId .fail f.diagnosticCode

/-- A table the call gives has the schema of the source. -/
def KeepsSchema : (c : BackendCall) → Except Thrown (BackendAnswer c) → Prop
  | .table _, r => ∀ frame : Table, r = .ok frame → frame.schema = bronzeSchema
  | _, _ => True

/-- A failure of the run's class that the call throws can be recorded where it is caught; and when
the source is looked at again, it has kept its schema. -/
def Fits : BackendEvent → Prop
  | ⟨.store p c, r⟩ =>
      (∀ f, r = .error (.failure f) → Recordable p f) ∧ (p = .recheck → KeepsSchema c r)
  | ⟨.job p, r⟩ => ∀ f, r = .error (.failure f) → Recordable p f
  | ⟨.fact _ _ _, _⟩ => True

def Fit (l : List BackendEvent) : Prop := ∀ x ∈ l, Fits x

theorem fit_append {l₁ l₂ : List BackendEvent} : Fit (l₁ ++ l₂) ↔ Fit l₁ ∧ Fit l₂ :=
  List.forall_mem_append

theorem calm_append {l₁ l₂ : List BackendEvent} : Calm (l₁ ++ l₂) ↔ Calm l₁ ∧ Calm l₂ :=
  List.forall_mem_append

theorem marked_append {l₁ l₂ : List BackendEvent} : Marked (l₁ ++ l₂) ↔ Marked l₁ ∧ Marked l₂ := by
  constructor
  · exact fun h => ⟨fun r s d hm => h r s d (List.mem_append_left _ hm),
      fun r s d hm => h r s d (List.mem_append_right _ hm)⟩
  · rintro ⟨h₁, h₂⟩ r s d hm
    rcases List.mem_append.mp hm with hm | hm
    · exact h₁ r s d hm
    · exact h₂ r s d hm

theorem published_append {l₁ l₂ : List BackendEvent} :
    Published (l₁ ++ l₂) ↔ Published l₁ ∨ Published l₂ := by
  simp only [Published, List.mem_append, exists_or]

theorem Attempted.append_left {l₂ : List BackendEvent} (h : Attempted l₂) (l₁ : List BackendEvent) :
    Attempted (l₁ ++ l₂) := by
  obtain ⟨facts, a, hmem, hf⟩ := h
  exact ⟨facts, a, List.mem_append_right _ hmem, hf⟩

theorem fit_nil : Fit [] := List.forall_mem_nil _

/-! ### Guarded operations -/

variable {α β : Type} {p : Place} {arguments : Arguments}

/-- The call is made from the place, and is not the mark of a fact. -/
def MadeAt (p : Place) : BackendEvent → Prop
  | ⟨.store q _, _⟩ => q = p
  | ⟨.job q, _⟩ => q = p
  | ⟨.fact _ _ _, _⟩ => False

/-- All calls are made from one place; a value satisfies `Q` and its calls fit; and when it throws,
its calls fit just if what it throws, a failure, can be recorded there. -/
def Operation (p : Place) (x : Run BackendAnswer α) (Q : α → Prop) : Prop :=
  ∀ l r, Calm l → Plays x l r → (∀ e ∈ l, MadeAt p e) ∧ match r with
    | .ok a => Q a ∧ Fit l
    | .error e => e ≠ .fatal ∧ (Fit l ↔ ∀ f, e = .failure f → Recordable p f)

theorem Operation.bind {x : Run BackendAnswer α} {f : α → Run BackendAnswer β} {Q : α → Prop}
    {Q' : β → Prop} (hx : Operation p x Q) (hf : ∀ a, Q a → Operation p (f a) Q') :
    Operation p (x >>= f) Q' := by
  intro l r hcalm h
  rcases plays_bind.mp h with ⟨e, he, rfl⟩ | ⟨l₁, l₂, a, rfl, ha, hrest⟩
  · exact hx l _ hcalm he
  · obtain ⟨hcalm₁, hcalm₂⟩ := calm_append.mp hcalm
    obtain ⟨hat₁, hQ, hfit₁⟩ := hx l₁ _ hcalm₁ ha
    obtain ⟨hat₂, hr⟩ := hf a hQ l₂ r hcalm₂ hrest
    refine ⟨List.forall_mem_append.mpr ⟨hat₁, hat₂⟩, ?_⟩
    cases r with
    | ok b => exact ⟨hr.1, fit_append.mpr ⟨hfit₁, hr.2⟩⟩
    | error e => exact ⟨hr.1, (fit_append.trans (and_iff_right hfit₁)).trans hr.2⟩

theorem Operation.pure {a : α} {Q : α → Prop} (h : Q a) :
    Operation p (Pure.pure a : Run BackendAnswer α) Q := by
  intro l r _ hl
  obtain ⟨rfl, rfl⟩ := plays_pure.mp hl
  exact ⟨List.forall_mem_nil _, h, fit_nil⟩

/-- A computation without calls that fails only in a way that can be recorded. -/
theorem Operation.lift {x : Except Thrown α} {Q : α → Prop} (hok : ∀ a, x = .ok a → Q a)
    (herror : ∀ e, x = .error e → e ≠ .fatal ∧ ∀ f, e = .failure f → Recordable p f) :
    Operation p (Proc.lift x : Run BackendAnswer α) Q := by
  intro l r _ hl
  obtain ⟨rfl, hr⟩ := plays_lift.mp hl
  refine ⟨List.forall_mem_nil _, ?_⟩
  cases r with
  | ok a => exact ⟨hok a hr.symm, fit_nil⟩
  | error e =>
      obtain ⟨hfatal, hrecord⟩ := herror e hr.symm
      exact ⟨hfatal, iff_of_true fit_nil hrecord⟩

theorem Operation.require {c : Bool} {message : Str} :
    Operation p (Proc.lift (require c message) : Run BackendAnswer Unit) fun _ => c = true := by
  cases c with
  | true => exact Operation.lift (fun _ _ => rfl) nofun
  | false =>
      refine Operation.lift (fun _ hu => nomatch hu) fun e he => ?_
      obtain rfl := Except.error.inj he
      exact ⟨nofun, nofun⟩

/-- A call from any place but the second look at the source. -/
theorem Operation.ask {c : BackendCall} (hp : p = .recheck → ∀ r, KeepsSchema c r) :
    Operation p (ask p c : Run BackendAnswer (BackendAnswer c)) fun _ => True := by
  intro l r hcalm h
  obtain rfl := plays_ask.mp h
  refine ⟨fun e he => by rw [List.mem_singleton.mp he]; exact rfl, ?_⟩
  cases r with
  | ok a =>
      refine ⟨trivial, fun x hx => ?_⟩
      rw [List.mem_singleton.mp hx]
      exact ⟨nofun, fun hrecheck => hp hrecheck _⟩
  | error e =>
      have hnot := hcalm _ (List.mem_singleton.mpr rfl)
      refine ⟨fun he => hnot (congrArg Except.error he), ?_⟩
      constructor
      · rintro hfit f rfl
        exact (hfit _ (List.mem_singleton.mpr rfl)).1 f rfl
      · intro hrecord x hx
        rw [List.mem_singleton.mp hx]
        exact ⟨fun f hf => hrecord f (Except.error.inj hf), fun hrecheck => hp hrecheck _⟩

theorem Operation.action {value : α} :
    Operation p (action p value : Run BackendAnswer α) fun a => a = value := by
  intro l r hcalm h
  cases r with
  | ok a =>
      obtain ⟨rfl, rfl⟩ := plays_action_ok.mp h
      refine ⟨fun e he => by rw [List.mem_singleton.mp he]; exact rfl, rfl, fun x hx => ?_⟩
      rw [List.mem_singleton.mp hx]
      exact fun f hf => nomatch hf
  | error e =>
      obtain rfl := plays_action_error.mp h
      have hnot := hcalm _ (List.mem_singleton.mpr rfl)
      refine ⟨fun e' he => by rw [List.mem_singleton.mp he]; exact rfl, fun he => hnot (congrArg Except.error he), ?_⟩
      constructor
      · rintro hfit f rfl
        exact hfit _ (List.mem_singleton.mpr rfl) f rfl
      · intro hrecord x hx
        rw [List.mem_singleton.mp hx]
        exact fun f hf => hrecord f (Except.error.inj hf)

theorem Operation.mono {x : Run BackendAnswer α} {Q Q' : α → Prop} (h : Operation p x Q)
    (hQ : ∀ a, Q a → Q' a) : Operation p x Q' := by
  intro l r hcalm hl
  obtain ⟨hat, hr⟩ := h l r hcalm hl
  refine ⟨hat, ?_⟩
  cases r with
  | ok a => exact ⟨hQ a hr.1, hr.2⟩
  | error e => exact hr

/-! ### The operations of the Spark store -/

theorem assertExactSchema_operation {frame : Frame} :
    Operation p (Proc.lift (assertExactSchema frame) : Run BackendAnswer Unit) fun _ =>
      frame.schema = bronzeSchema :=
  Operation.require.mono fun _ h => by simpa using h

theorem ensureFactsTable_operation (hp : p ≠ .recheck) :
    Operation p (ensureFactsTable p) fun _ => True := by
  have hcall : ∀ {c : BackendCall}, Operation p (ask p c : Run BackendAnswer (BackendAnswer c))
      fun _ => True := Operation.ask fun h => absurd h hp
  refine Operation.bind hcall fun found _ => ?_
  cases found with
  | false => exact Operation.bind hcall fun _ _ => hcall
  | true =>
      exact Operation.bind hcall fun frame _ => Operation.require.mono fun _ _ => trivial

theorem readBronze_operation (hp : p ≠ .recheck) :
    Operation p (readBronze p) fun frame => frame.schema = bronzeSchema := by
  refine Operation.bind (Operation.ask fun h => absurd h hp) fun frame _ => ?_
  exact Operation.bind assertExactSchema_operation fun _ h => Operation.pure h

theorem replaceSilver_operation (hp : p ≠ .recheck) {identifier : Str} {frame : Frame}
    {properties : Properties} :
    Operation p (replaceSilver p identifier frame properties) fun _ => True := by
  have hcall : ∀ {c : BackendCall}, Operation p (ask p c : Run BackendAnswer (BackendAnswer c))
      fun _ => True := Operation.ask fun h => absurd h hp
  have hproperties : Operation p (readProperties p identifier) fun _ => True :=
    Operation.bind Operation.require fun _ _ => Operation.bind hcall fun _ _ =>
      Operation.bind Operation.require fun _ _ => Operation.pure trivial
  exact Operation.bind Operation.require fun _ _ =>
    Operation.bind assertExactSchema_operation fun _ _ => Operation.bind hcall fun _ _ =>
    Operation.bind hcall fun _ _ => Operation.bind hproperties fun _ _ =>
    Operation.require.mono fun _ _ => trivial

theorem readSilver_operation (hp : p ≠ .recheck) {identifier : Str} :
    Operation p (readSilver p identifier) fun frame => frame.schema = bronzeSchema := by
  refine Operation.bind Operation.require fun _ _ =>
    Operation.bind (Operation.ask fun h => absurd h hp) fun frame _ => ?_
  exact Operation.bind assertExactSchema_operation fun _ h => Operation.pure h

theorem readFacts_operation (hp : p ≠ .recheck) {runId : Str} :
    Operation p (readFacts p runId) fun _ => True :=
  Operation.bind Operation.require fun _ _ => Operation.ask fun h => absurd h hp

theorem mainSnapshot_operation {rows : List SnapshotRow} (hp : Recordable p sourceMetadataInvalid) :
    Operation p (Proc.lift (mainSnapshot rows) : Run BackendAnswer (Option SourceSnapshot)) fun found =>
      ∀ s, found = some s → 0 < s.id := by
  refine Operation.lift (fun found h => ?_) fun e he => ?_
  · rintro s rfl
    unfold mainSnapshot at h
    split at h
    · cases h
    · split_ifs at h with hid
      obtain rfl := Option.some.inj (Except.ok.inj h)
      exact not_le.mp hid
    · cases h
  · have hfailure : e = .failure sourceMetadataInvalid := by
      unfold mainSnapshot at he
      split at he
      · cases he
      · split_ifs at he
        exact (Except.error.inj he).symm
      · exact (Except.error.inj he).symm
    rw [hfailure]
    refine ⟨nofun, ?_⟩
    rintro f hf
    obtain rfl := Thrown.failure.inj hf
    exact hp

/-- The schema of the source, looked at for the first or for the second time. -/
theorem sourceSchema_operation (hp : p = .recheck ↔ ¬ Recordable p sourceSchemaMismatch)
    {k : Run BackendAnswer α} {Q : α → Prop} (hk : Operation p k Q) :
    Operation p (do
      let source ← Backend.table p sourceTable
      Proc.lift (requireSourceSchema source.toFrame)
      k) Q := by
  intro l r hcalm h
  rcases plays_bind.mp h with ⟨e, he, rfl⟩ | ⟨l₁, l₂, source, rfl, hsource, hrest⟩
  · obtain rfl := plays_ask.mp he
    refine ⟨fun e' he' => by rw [List.mem_singleton.mp he']; exact rfl, ?_⟩
    have hnot := hcalm _ (List.mem_singleton.mpr rfl)
    refine ⟨fun he' => hnot (congrArg Except.error he'), ?_⟩
    constructor
    · rintro hfit f rfl
      exact (hfit _ (List.mem_singleton.mpr rfl)).1 f rfl
    · intro hrecord x hx
      rw [List.mem_singleton.mp hx]
      exact ⟨fun f hf => hrecord f (Except.error.inj hf), fun _ _ hframe => ok_of_error hframe⟩
  · obtain rfl := plays_ask.mp hsource
    obtain ⟨-, hcalm₂⟩ := calm_append.mp hcalm
    have hfit : Fit [answered p (BackendCall.table sourceTable) (.ok source)] ↔
        (p = .recheck → source.schema = bronzeSchema) := by
      constructor
      · intro h hrecheck
        exact (h _ (List.mem_singleton.mpr rfl)).2 hrecheck source rfl
      · intro h x hx
        rw [List.mem_singleton.mp hx]
        refine ⟨fun _ hf => error_of_ok hf, fun hrecheck frame hframe => ?_⟩
        rw [← Except.ok.inj hframe]
        exact h hrecheck
    have hat : ∀ e ∈ [answered p (BackendCall.table sourceTable) (.ok source)], MadeAt p e :=
      fun e he => by rw [List.mem_singleton.mp he]; exact rfl
    rw [requireSourceSchema, assertExactSchema, Quality.require] at hrest
    cases hexact : source.schema == bronzeSchema with
    | true =>
        rw [hexact] at hrest
        obtain ⟨hat₂, hr⟩ := hk l₂ r hcalm₂ hrest
        have hfit₁ := hfit.mpr fun _ => by simpa using hexact
        refine ⟨List.forall_mem_append.mpr ⟨hat, hat₂⟩, ?_⟩
        cases r with
        | ok a => exact ⟨hr.1, fit_append.mpr ⟨hfit₁, hr.2⟩⟩
        | error e => exact ⟨hr.1, (fit_append.trans (and_iff_right hfit₁)).trans hr.2⟩
    | false =>
        rw [hexact] at hrest
        obtain ⟨rfl, rfl⟩ := plays_throw.mp hrest
        rw [List.append_nil]
        refine ⟨hat, And.intro (fun h => by cases h) ?_⟩
        have hne : source.schema ≠ bronzeSchema := by simpa using hexact
        refine hfit.trans ⟨fun hkept f hf => ?_, fun hrecord hrecheck => ?_⟩
        · obtain rfl := Thrown.failure.inj hf
          by_contra hnot
          exact hne (hkept (hp.mpr hnot))
        · exact absurd (hrecord _ rfl) (hp.mp hrecheck)

theorem captureSource_operation (hp : p = .recheck ↔ ¬ Recordable p sourceSchemaMismatch)
    (hmeta : Recordable p sourceMetadataInvalid) :
    Operation p (captureSource p) fun found => ∀ s, found = some s → 0 < s.id := by
  refine Operation.bind (Operation.ask fun _ _ => trivial) fun found _ => ?_
  cases found with
  | false => exact Operation.pure fun s hs => nomatch hs
  | true =>
      exact sourceSchema_operation hp (Operation.bind (Operation.ask fun _ _ => trivial) fun rows _ =>
        mainSnapshot_operation hmeta)

theorem assertPartition_operation {bronze clean quarantine : Frame} :
    Operation p (assertPartition p bronze clean quarantine : Run BackendAnswer Unit) fun _ =>
      Partitioned bronze clean quarantine := by
  have hparts : Operation p (assertPartition p bronze clean quarantine : Run BackendAnswer Unit)
      fun _ => True :=
    Operation.bind assertExactSchema_operation fun _ _ =>
    Operation.bind assertExactSchema_operation fun _ _ =>
    Operation.bind assertExactSchema_operation fun _ _ =>
    Operation.bind Operation.action fun _ _ => Operation.bind Operation.require fun _ _ =>
    Operation.bind Operation.action fun _ _ => Operation.bind Operation.require fun _ _ =>
    Operation.bind Operation.action fun _ _ => Operation.bind Operation.action fun _ _ =>
    Operation.bind Operation.action fun _ _ => Operation.bind Operation.require fun _ _ =>
    Operation.bind Operation.action fun _ _ => Operation.bind Operation.require fun _ _ =>
    Operation.bind Operation.action fun _ _ => Operation.require.mono fun _ _ => trivial
  intro l r hcalm h
  obtain ⟨hat, hr⟩ := hparts l r hcalm h
  refine ⟨hat, ?_⟩
  cases r with
  | ok u => exact ⟨(assertPartition_ok.mp h).2, hr.2⟩
  | error e => exact hr

end Quality
