/-
The manifests before a manifest.

Every manifest names its predecessor by digest, and `manifestHistory` follows the names.  It
asks of each manifest that it has the digest it is looked up under, that it is of the same
dataset and that its keys follow from its own fields; it refuses a digest it has seen, and
it gives up after `maxHistoryDepth` rounds.

Over a store whose objects stay as they are, `Links` is the chain that should be found.  A
chain holds every digest once, since a digest that came back would have to be followed for
ever, so the check for repetitions refuses nothing that ends.  What is refused and should
not be is a chain as long as the limit: the test for the end of the chain stands at the top
of a round, and after the last manifest no round is left to make it.
-/
import DataEngLab.Datasets.Publication.Codecs
import DataEngLab.Datasets.Publication.HonestStore

namespace Publication

open Lib Registry
open Datasets (Location ControlSnapshot)

/-- `_HistoricalManifest` -/
structure HistoricalManifest where
  key : Str
  digest : Sha256Hex
  manifest : ImmutableManifest

/-- `_MAX_HISTORY_DEPTH` -/
def maxHistoryDepth : Nat := 1000

/-- `_MAX_LEGACY_LIST_PAGES` -/
def maxLegacyListPages : Nat := 10000

/-- `_InventoryBudget.request`, when there is a budget: the requests made so far. -/
def budgetRequest : Option Nat → Except Exn (Option Nat)
  | none => .ok none
  | some requests =>
      if maxLegacyListPages < requests + 1 then
        .error (.ambiguousWrite "publication inventory exceeds the global request budget")
      else .ok (some (requests + 1))

/-- `except (TypeError, ValueError)`; `LockMismatch` is a `ValueError`. -/
def isValueError : Exn → Bool
  | .valueError _ | .typeError | .lockMismatch .. | .raised .valueError => true
  | _ => false

/-- `_validate_historical_manifest` -/
def validateHistoricalManifest (manifest : ImmutableManifest) (plan : ScalePlan) : Except Exn Unit := do
  require (manifest.dataset == plan.dataset.name) (.valueError "historical manifest dataset does not match its key")
  let expectedPhysicalPrefix := plan.dataset.landingPrefix ++ lit "/_generations/" ++ manifest.selectedPlanSha256 ++
    lit "/" ++ manifest.publicationId
  require (manifest.physicalPrefix == expectedPhysicalPrefix)
    (.valueError "historical manifest physical prefix is not self-consistent")
  let expectedPrefix := manifest.physicalPrefix ++ lit "/"
  let _ ← checkAll (fun item : ManifestObject =>
      require (expectedPrefix.isPrefixOf item.key && item.key == manifest.physicalPrefix ++ lit "/" ++ item.objectName)
        (.valueError "historical manifest object key is not self-consistent"))
    manifest.objects
  return ()

section
variable (digestOf : Bytes → Sha256Hex)

/-- `_read_historical_manifest`; `digestOf` is the digest of `manifest_sha256`. -/
def readHistoricalManifest (dataset : Str) (digest : Sha256Hex) (bucket : Str) : S ImmutableManifest := do
  let dataset ← lift (requireComponent (.str dataset) "dataset")
  let snapshot ← readControlObject ⟨bucket, immutableManifestKey dataset digest⟩
  lift (require (digestOf snapshot.body == digest)
    (.valueError "historical manifest digest does not match its key"))
  lift (manifestOfBytes snapshot.body)

/-- One manifest: a request of the budget, the manifest, and what is asked of it. -/
def historicalManifest (plan : ScalePlan) (bucket : Str) (digest : Sha256Hex) (budget : Option Nat) :
    S (ImmutableManifest × Option Nat) := do
  let budget ← lift (budgetRequest budget)
  let manifest ← readHistoricalManifest digestOf plan.dataset.name digest bucket
  lift (validateHistoricalManifest manifest plan)
  return (manifest, budget)

/-- The rounds of `_manifest_history`. -/
def historyLoop (plan : ScalePlan) (bucket : Str) : Nat → List HistoricalManifest → List Sha256Hex →
    Option Str → Option Sha256Hex → Option Nat → S (List HistoricalManifest × Option Nat)
  | 0, _, _, _, _, _ => throw (mismatch plan "history" (lit "history"))
  | _ + 1, history, _, none, none, budget => return (history, budget)
  | depth + 1, history, seen, some key, some digest, budget => do
      let dataset ← lift (requireComponent (.str plan.dataset.name) "dataset")
      if key ≠ immutableManifestKey dataset digest then throw (mismatch plan "history" (lit "history"))
      else if digest ∈ seen then throw (mismatch plan "history" (lit "history"))
      else
        let (manifest, budget) ← tryCatch (historicalManifest digestOf plan bucket digest budget) fun e =>
          throw (if isValueError e then mismatch plan "history" (lit "history") else e)
        historyLoop plan bucket depth (history ++ [⟨key, digest, manifest⟩]) (digest :: seen) manifest.previousKey
          manifest.previous budget
  | _ + 1, _, _, _, _, _ => throw (mismatch plan "history" (lit "history"))

/-- `_manifest_history`, and what is left of the budget. -/
def manifestHistory (plan : ScalePlan) (current : ImmutableManifest) (bucket : Str) (budget : Option Nat) :
    S (List HistoricalManifest × Option Nat) :=
  historyLoop digestOf plan bucket maxHistoryDepth [] [] current.previousKey current.previous budget

end

/-! ### The chain that should be found -/

/-- What is asked of a manifest that a dataset's history holds. -/
structure SelfConsistent (manifest : ImmutableManifest) (plan : ScalePlan) : Prop where
  dataset : manifest.dataset.1 = plan.dataset.name
  physicalPrefix : manifest.physicalPrefix.1 = plan.dataset.landingPrefix ++ lit "/_generations/" ++
    manifest.selectedPlanSha256 ++ lit "/" ++ manifest.publicationId
  keys : ∀ item ∈ manifest.objects, item.key.1 = manifest.physicalPrefix ++ lit "/" ++ item.objectName

theorem validateHistoricalManifest_eq_ok {manifest : ImmutableManifest} {plan : ScalePlan} {u : Unit} :
    validateHistoricalManifest manifest plan = .ok u ↔ SelfConsistent manifest plan := by
  have hkey : ∀ item : ManifestObject, ((manifest.physicalPrefix.1 ++ lit "/").isPrefixOf item.key.1 &&
      item.key.1 == manifest.physicalPrefix.1 ++ lit "/" ++ item.objectName.1) = true ↔
        item.key.1 = manifest.physicalPrefix ++ lit "/" ++ item.objectName := fun item => by
    rw [Bool.and_eq_true, beq_iff_eq, and_iff_right_iff_imp, List.isPrefixOf_iff_prefix]
    exact fun h => h ▸ List.prefix_append _ _
  simp only [validateHistoricalManifest, bind_eq_ok, require_eq_ok, beq_iff_eq, pure_eq_ok]
  constructor
  · rintro ⟨_, hdataset, _, hprefix, units, hkeys, -⟩
    have hall := (checkAll_eq_ok.mp hkeys).imp fun item _ h => And.intro ((hkey item).mp (require_eq_ok.mp h)) trivial
    rw [List.forall₂_and_left] at hall
    exact ⟨hdataset, hprefix, hall.1⟩
  · intro h
    refine ⟨(), h.dataset, (), h.physicalPrefix, _, checkAll_eq_map (g := fun _ => ()) fun item hitem => ?_, trivial⟩
    rw [require_eq_ok, hkey]
    exact h.keys item hitem

section
variable (digestOf : Bytes → Sha256Hex) (read : Location → Except Exn ControlSnapshot) (plan : ScalePlan) (bucket : Str)

/-- The manifests that start at a key and a digest, newest first, down to one without a predecessor. -/
inductive Links : Option Str → Option Sha256Hex → List HistoricalManifest → Prop
  | nil : Links none none []
  | cons {dataset : Component} {digest : Sha256Hex} {snapshot : ControlSnapshot} {manifest : ImmutableManifest}
      {rest : List HistoricalManifest} : dataset.1 = plan.dataset.name →
      read ⟨bucket, immutableManifestKey dataset digest⟩ = .ok snapshot → digestOf snapshot.body = digest →
      manifestOfBytes snapshot.body = .ok manifest → SelfConsistent manifest plan →
      Links manifest.previousKey manifest.previous rest →
      Links (some (immutableManifestKey dataset digest)) (some digest)
        (⟨immutableManifestKey dataset digest, digest, manifest⟩ :: rest)

end

section
variable {digestOf : Bytes → Sha256Hex} {read : Location → Except Exn ControlSnapshot} {plan : ScalePlan} {bucket : Str}
  {key : Option Str} {digest : Option Sha256Hex} {history : List HistoricalManifest}

/-- The next of a chain. -/
theorem Links.inv_cons {h : HistoricalManifest} {rest : List HistoricalManifest}
    (hlinks : Links digestOf read plan bucket key digest (h :: rest)) :
    key = some h.key ∧ digest = some h.digest ∧ Links digestOf read plan bucket h.manifest.previousKey
      h.manifest.previous rest := by
  cases hlinks with
  | cons hdataset hread hdigest hmanifest hvalid hrest => exact ⟨rfl, rfl, hrest⟩

theorem links_none_iff : Links digestOf read plan bucket none none history ↔ history = [] := by
  constructor
  · intro h
    cases h
    rfl
  · rintro rfl
    exact .nil

theorem links_some_iff {key : Str} {digest : Sha256Hex} :
    Links digestOf read plan bucket (some key) (some digest) history ↔ ∃ manifest rest,
      history = ⟨key, digest, manifest⟩ :: rest ∧ SelfConsistent manifest plan ∧
        (∃ dataset : Component, dataset.1 = plan.dataset.name ∧ key = immutableManifestKey dataset digest ∧
          ∃ snapshot, read ⟨bucket, immutableManifestKey dataset digest⟩ = .ok snapshot ∧
            digestOf snapshot.body = digest ∧ manifestOfBytes snapshot.body = .ok manifest) ∧
        Links digestOf read plan bucket manifest.previousKey manifest.previous rest := by
  constructor
  · intro h
    cases h with
    | cons hdataset hread hdigest hmanifest hvalid hrest =>
        exact ⟨_, _, rfl, hvalid, ⟨_, hdataset, rfl, _, hread, hdigest, hmanifest⟩, hrest⟩
  · rintro ⟨manifest, rest, rfl, hvalid, ⟨dataset, hdataset, rfl, snapshot, hread, hdigest, hmanifest⟩, hrest⟩
    exact .cons hdataset hread hdigest hmanifest hvalid hrest

/-- A digest determines the chain that starts at it. -/
theorem Links.unique {key' : Option Str} {history' : List HistoricalManifest}
    (h : Links digestOf read plan bucket key digest history)
    (h' : Links digestOf read plan bucket key' digest history') : history = history' := by
  induction h generalizing key' history' with
  | nil =>
      cases h'
      rfl
  | @cons dataset digest snapshot manifest rest hdataset hread _ hmanifest _ _ ih =>
      cases h' with
      | @cons dataset' _ snapshot' manifest' rest' hdataset' hread' _ hmanifest' _ hrest' =>
          obtain rfl : dataset = dataset' := Subtype.ext (hdataset.trans hdataset'.symm)
          rw [hread] at hread'
          obtain rfl := Except.ok.inj hread'
          rw [hmanifest] at hmanifest'
          obtain rfl := Except.ok.inj hmanifest'
          rw [ih hrest']

/-- A chain goes on from each of its manifests. -/
theorem Links.suffix {h : HistoricalManifest} {rest before : List HistoricalManifest}
    (hlinks : Links digestOf read plan bucket key digest (before ++ h :: rest)) :
    Links digestOf read plan bucket (some h.key) (some h.digest) (h :: rest) := by
  induction before generalizing key digest with
  | nil =>
      obtain ⟨rfl, rfl, -⟩ := hlinks.inv_cons
      exact hlinks
  | cons first before ih => exact ih hlinks.inv_cons.2.2

/-- **A chain holds every digest once.**  One that came back would start two chains of different
lengths. -/
theorem Links.nodup (h : Links digestOf read plan bucket key digest history) :
    (history.map (·.digest)).Nodup := by
  induction history generalizing key digest with
  | nil => exact List.nodup_nil
  | cons first rest ih =>
      obtain ⟨rfl, rfl, hrest⟩ := h.inv_cons
      rw [List.map_cons, List.nodup_cons]
      refine ⟨fun hmem => ?_, ih hrest⟩
      obtain ⟨again, hagain, hdigest⟩ := List.mem_map.mp hmem
      obtain ⟨before, after, rfl⟩ := List.append_of_mem hagain
      have hsuffix := hrest.suffix
      rw [hdigest] at hsuffix
      have hlength := congrArg List.length (h.unique hsuffix)
      simp only [List.length_cons, List.length_append] at hlength
      omega

end

/-! ### The walk -/

/-- The budget, if there is one, has this many requests left. -/
def Affords (budget : Option Nat) (requests : Nat) : Prop :=
  ∀ made ∈ budget, 0 < requests → made + requests ≤ maxLegacyListPages

theorem budgetRequest_eq_ok {budget budget' : Option Nat} :
    budgetRequest budget = .ok budget' ↔ Affords budget 1 ∧ budget' = budget.map (· + 1) := by
  cases budget with
  | none => simp [budgetRequest, Affords, eq_comm]
  | some made =>
      simp only [budgetRequest, Affords, Option.mem_some, forall_eq', Option.map_some, Nat.lt_one_iff, forall_const]
      split
      · rename_i hover
        simp only [reduceCtorEq, false_iff, not_and]
        exact fun h => absurd h (Nat.not_le.mpr hover)
      · rename_i hwithin
        simp only [Except.ok.injEq]
        exact ⟨fun h => ⟨Nat.le_of_not_lt hwithin, h.symm⟩, fun h => h.2.symm⟩

theorem affords_zero (budget : Option Nat) : Affords budget 0 := fun _ _ h => absurd h (Nat.lt_irrefl 0)

theorem affords_succ {budget : Option Nat} {requests : Nat} :
    Affords budget (requests + 1) ↔ Affords budget 1 ∧ Affords (budget.map (· + 1)) requests := by
  cases budget with
  | none => simp [Affords]
  | some made =>
      simp only [Affords, Option.mem_some, forall_eq', Option.map_some]
      omega

theorem requireComponent_eq_ok {name : Str} {label : String} {component : Component} :
    requireComponent (.str name) label = .ok component ↔ component.1 = name := by
  rw [requireComponent, requireText_eq_ok, Json.str.injEq, eq_comm]

section
variable {W : Type} {answer : W → (e : Call) → Answer e × W} {read : Location → Except Exn ControlSnapshot}
  {digestOf : Bytes → Sha256Hex} {plan : ScalePlan} {bucket : Str}

/-- Reading finds the manifest of a digest when the store has it under its key. -/
theorem run_readHistoricalManifest (hserves : Serves answer read) {dataset : Str} {digest : Sha256Hex}
    {manifest : ImmutableManifest} (w : W) :
    (Proc.run answer (readHistoricalManifest digestOf dataset digest bucket) w).1 = .ok manifest ↔
      ∃ component : Component, component.1 = dataset ∧ ∃ snapshot,
        read ⟨bucket, immutableManifestKey component digest⟩ = .ok snapshot ∧
          digestOf snapshot.body = digest ∧ manifestOfBytes snapshot.body = .ok manifest := by
  simp only [readHistoricalManifest, lift, run_bind, run_lift]
  cases hname : requireComponent (.str dataset) "dataset" with
  | error e =>
      simp only [reduceCtorEq, false_iff, not_exists, not_and]
      intro component hdataset
      rw [← @requireComponent_eq_ok _ "dataset", hname] at hdataset
      cases hdataset
  | ok component =>
      have hserved : ∀ loc, (Proc.run answer (readControlObject loc) w).1 = read loc := fun loc => hserves loc w
      simp only [hserved]
      have hdataset := requireComponent_eq_ok.mp hname
      constructor
      · intro h
        refine ⟨component, hdataset, ?_⟩
        split at h
        · rename_i snapshot hread
          refine ⟨snapshot, hread, ?_⟩
          split at h
          · rename_i hdigest
            rw [require_eq_ok, beq_iff_eq] at hdigest
            exact ⟨hdigest, h⟩
          · cases h
        · cases h
      · rintro ⟨component', hdataset', snapshot, hread, hdigest, hmanifest⟩
        obtain rfl : component = component' := Subtype.ext (hdataset.trans hdataset'.symm)
        simp only [hread, hdigest, beq_self_eq_true, require_true, hmanifest]

/-- One round finds the manifest of a digest when the store has it and it is what is asked for. -/
theorem run_historicalManifest (hserves : Serves answer read) {digest : Sha256Hex} {budget budget' : Option Nat}
    {manifest : ImmutableManifest} (w : W) :
    (Proc.run answer (historicalManifest digestOf plan bucket digest budget) w).1 = .ok (manifest, budget') ↔
      (Affords budget 1 ∧ budget' = budget.map (· + 1)) ∧ SelfConsistent manifest plan ∧
        ∃ dataset : Component, dataset.1 = plan.dataset.name ∧ ∃ snapshot,
          read ⟨bucket, immutableManifestKey dataset digest⟩ = .ok snapshot ∧
            digestOf snapshot.body = digest ∧ manifestOfBytes snapshot.body = .ok manifest := by
  rw [← budgetRequest_eq_ok, ← validateHistoricalManifest_eq_ok (u := ()),
    ← run_readHistoricalManifest hserves w]
  simp only [historicalManifest, lift, run_bind, run_lift, run_pure]
  cases budgetRequest budget with
  | error e => simp only [reduceCtorEq, false_and]
  | ok next =>
      simp only [Except.ok.injEq]
      rcases (Proc.run answer (readHistoricalManifest digestOf plan.dataset.name digest bucket) w).1 with e | found
      · simp only [reduceCtorEq, and_false]
      · simp only [Except.ok.injEq]
        cases hvalid : validateHistoricalManifest found plan with
        | error e =>
            simp only [reduceCtorEq, false_iff, not_and]
            rintro - hvalid' rfl
            rw [hvalid] at hvalid'
            cases hvalid'
        | ok u =>
            simp only [Except.ok.injEq, Prod.mk.injEq]
            constructor
            · rintro ⟨rfl, rfl⟩
              exact ⟨rfl, hvalid, rfl⟩
            · rintro ⟨rfl, -, rfl⟩
              exact ⟨rfl, rfl⟩

/-- **What the rounds return.**  They return a chain when one starts at the key and the digest, it leaves
a round to see its end, it holds no digest that was seen, and the budget has a request for each of its
manifests. -/
theorem run_historyLoop (hserves : Serves answer read) {result : List HistoricalManifest} {left : Option Nat} :
    ∀ {depth : Nat} {seen : List Sha256Hex} {before : List HistoricalManifest} {key : Option Str}
      {digest : Option Sha256Hex} {budget : Option Nat} {w : W},
      (Proc.run answer (historyLoop digestOf plan bucket depth before seen key digest budget) w).1 =
          .ok (result, left) ↔
        ∃ history, Links digestOf read plan bucket key digest history ∧ history.length < depth ∧
          (∀ h ∈ history, h.digest ∉ seen) ∧ Affords budget history.length ∧
          result = before ++ history ∧ left = budget.map (· + history.length) := by
  intro depth
  induction depth with
  | zero =>
      intro seen before key digest budget w
      rw [historyLoop, run_throw]
      simp only [reduceCtorEq, Nat.not_lt_zero, false_and, and_false, exists_false]
  | succ depth ih =>
      intro seen before key digest budget w
      cases key with
      | none =>
          cases digest with
          | none =>
              simp only [historyLoop, run_pure, links_none_iff, Except.ok.injEq, Prod.mk.injEq, exists_eq_left,
                List.length_nil, Nat.zero_lt_succ, List.not_mem_nil, false_implies, implies_true, affords_zero,
                List.append_nil, Nat.add_zero, Option.map_id', true_and, eq_comm]
          | some digest =>
              simp only [historyLoop, run_throw, reduceCtorEq, false_iff, not_exists, not_and]
              intro history hlinks
              cases hlinks
      | some key =>
          cases digest with
          | none =>
              simp only [historyLoop, run_throw, reduceCtorEq, false_iff, not_exists, not_and]
              intro history hlinks
              cases hlinks
          | some digest =>
              rw [historyLoop]
              simp only [lift, run_bind, run_lift, links_some_iff]
              cases hname : requireComponent (.str plan.dataset.name) "dataset" with
              | error e =>
                  simp only [reduceCtorEq, false_iff]
                  rintro ⟨_, ⟨manifest, rest, rfl, -, ⟨dataset, hdataset, -⟩, -⟩, -⟩
                  rw [← @requireComponent_eq_ok _ "dataset", hname] at hdataset
                  cases hdataset
              | ok dataset =>
                  have hdataset := requireComponent_eq_ok.mp hname
                  by_cases hkey : key = immutableManifestKey dataset digest
                  swap
                  · simp only [ne_eq, hkey, not_false_eq_true, if_true, run_throw, reduceCtorEq, false_iff]
                    rintro ⟨_, ⟨manifest, rest, rfl, -, ⟨dataset', hdataset', hkey', -⟩, -⟩, -⟩
                    obtain rfl : dataset = dataset' := Subtype.ext (hdataset.trans hdataset'.symm)
                    exact hkey hkey'
                  by_cases hseen : digest ∈ seen
                  · simp only [ne_eq, hkey, not_true_eq_false, if_false, hseen, if_true, run_throw, reduceCtorEq,
                      false_iff]
                    rintro ⟨_, ⟨manifest, rest, rfl, -⟩, -, hnew, -⟩
                    exact hnew _ List.mem_cons_self hseen
                  simp only [ne_eq, hkey, not_true_eq_false, if_false, hseen, run_bind, run_tryCatch]
                  rcases hrun : (Proc.run answer (historicalManifest digestOf plan bucket digest budget) w).1 with
                    e | ⟨found, next⟩
                  · simp only [run_throw, reduceCtorEq, false_iff]
                    rintro ⟨_, ⟨manifest, rest, rfl, hvalid, ⟨component, hcomponent, -, hfound⟩, -⟩, -, -, haffords, -⟩
                    rw [List.length_cons, affords_succ] at haffords
                    rw [(run_historicalManifest hserves w).mpr
                      ⟨⟨haffords.1, rfl⟩, hvalid, component, hcomponent, hfound⟩] at hrun
                    cases hrun
                  · obtain ⟨⟨haffords, rfl⟩, hvalid, component, hcomponent, hfound⟩ :=
                      (run_historicalManifest hserves w).mp hrun
                    obtain rfl : dataset = component := Subtype.ext (hdataset.trans hcomponent.symm)
                    simp only [ih]
                    subst hkey
                    constructor
                    · rintro ⟨rest, hrest, hlength, hnew, hafford, rfl, rfl⟩
                      refine ⟨⟨_, digest, found⟩ :: rest, ⟨found, rest, rfl, hvalid, ⟨dataset, hdataset, rfl, hfound⟩,
                        hrest⟩, Nat.succ_lt_succ hlength, ?_, affords_succ.mpr ⟨haffords, hafford⟩, ?_, ?_⟩
                      · rw [List.forall_mem_cons]
                        exact ⟨hseen, fun h hh => fun hmem => hnew h hh (List.mem_cons_of_mem _ hmem)⟩
                      · rw [List.append_assoc, List.singleton_append]
                      · simp only [Option.map_map, Function.comp_def, List.length_cons, Nat.add_assoc, Nat.add_comm 1]
                    · rintro ⟨_, ⟨manifest, rest, rfl, hvalid', ⟨dataset', hdataset', hkey', hfound'⟩, hrest⟩, hlength,
                        hnew, hafford, rfl, rfl⟩
                      obtain rfl : dataset = dataset' := Subtype.ext (hdataset.trans hdataset'.symm)
                      obtain ⟨snapshot, hread, hdigest, hmanifest⟩ := hfound
                      obtain ⟨snapshot', hread', -, hmanifest'⟩ := hfound'
                      rw [hread] at hread'
                      obtain rfl := Except.ok.inj hread'
                      rw [hmanifest] at hmanifest'
                      obtain rfl := Except.ok.inj hmanifest'
                      rw [List.length_cons] at hlength hafford
                      rw [List.forall_mem_cons] at hnew
                      have honce := (Links.cons hdataset hread hdigest hmanifest hvalid hrest).nodup
                      rw [List.map_cons, List.nodup_cons] at honce
                      refine ⟨rest, hrest, Nat.lt_of_succ_lt_succ hlength, fun h hh => ?_, (affords_succ.mp hafford).2, ?_, ?_⟩
                      · rw [List.mem_cons, not_or]
                        exact ⟨fun hsame => honce.1 (List.mem_map.mpr ⟨h, hh, hsame⟩), hnew.2 h hh⟩
                      · rw [List.append_assoc, List.singleton_append]
                      · simp only [Option.map_map, Function.comp_def, List.length_cons, Nat.add_assoc, Nat.add_comm 1]

end

end Publication
