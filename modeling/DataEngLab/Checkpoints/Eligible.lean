/-
What an eligible decision means.

`evaluateRetention` says a checkpoint may be deleted by saying nothing against it.  Here
its silence is turned into facts: one lemma per evaluator lists what an empty list of
codes proves about the values that evaluator was given, whatever their types, and
`Eligible` collects them.  The registry enters only through `WellFormed`: an entry that is
not active is a retired durable stream.
-/
import DataEngLab.Checkpoints.Evaluate
import DataEngLab.Lib.JsonWidth

namespace Checkpoints

open Lib

/-! ### The silence of each evaluator -/

variable {policy : CheckpointPolicy} {facts : EvaluationInput} {matched : MatchedCheckpoint}
  {entry : CheckpointEntry}

theorem evaluateClock_nil {e : Option Instant} {v : PyVal} (h : evaluateClock policy e v = []) :
    ∃ t, v.exactUtc? = some t := by
  unfold evaluateClock at h
  split at h
  · simp at h
  · exact ⟨_, by assumption⟩

/-- The clocks of a lease, as the evaluator compared them. -/
structure LeaseClocks (policy : CheckpointPolicy) (lease : LeaseFacts)
    (acquired heartbeat expires : Instant) : Prop where
  acquiredAt : lease.acquiredAt.exactUtc? = some acquired
  heartbeatAt : lease.heartbeatAt.exactUtc? = some heartbeat
  expiresAt : lease.expiresAt.exactUtc? = some expires
  ordered : acquired ≤ heartbeat
  ttl : expires.second = heartbeat.second + policy.lease.ttlSeconds

theorem leaseClockValid_iff {a h x : Instant} : leaseClockValid policy a h x = true ↔
    a ≤ h ∧ x.second = h.second + policy.lease.ttlSeconds := by
  simp only [leaseClockValid, Bool.and_eq_true, decide_eq_true_eq, beq_iff_eq, Instant.le_iff]
  omega

theorem evaluateLeaseState_nil {e : Option Instant} {lease : LeaseFacts}
    (h : evaluateLeaseState e lease = []) : lease.state.isText (lit "active") = false := by
  unfold evaluateLeaseState at h
  simp only [List.append_eq_nil_iff] at h
  rcases hb : lease.state.isText (lit "active") with _ | _
  · rfl
  · rw [hb, if_pos rfl] at h
    obtain ⟨-, h⟩ := h
    split at h <;> simp at h

/-- What a lease without a refusal has been found to be. -/
structure LeaseFits (policy : CheckpointPolicy) (matched : MatchedCheckpoint)
    (entry : CheckpointEntry) (lease : LeaseFacts) (terminal : TerminalFacts) : Prop where
  checkpointId : lease.checkpointId = .str (lit matched.checkpointId)
  keyPrefix : lease.keyPrefix = .str matched.keyPrefix
  inactive : lease.state ≠ .str (lit "active")
  ended : ∃ s ∈ entry.durability.leaseStates,
    lease.state = .str (lit s) ∧ terminal.state = .str (lit s)
  clocks : ∃ acquired heartbeat expires, LeaseClocks policy lease acquired heartbeat expires
  beforeTerminal : ∀ heartbeat occurred, lease.heartbeatAt.exactUtc? = some heartbeat →
    terminal.occurredAt.exactUtc? = some occurred → heartbeat ≤ occurred

theorem evaluateLease_nil {lease : LeaseFacts} {terminal : TerminalFacts}
    (h : evaluateLease policy facts matched entry lease (some terminal) = []) :
    LeaseFits policy matched entry lease terminal := by
  simp only [evaluateLease, List.append_eq_nil_iff, refuse_eq_nil, Bool.or_eq_false_iff,
    Bool.not_eq_false', PyVal.isText_iff] at h
  obtain ⟨⟨⟨⟨⟨⟨⟨⟨⟨⟨⟨-, -⟩, -⟩, hid, hpfx⟩, -⟩, ha⟩, hb⟩, hx⟩, hclock⟩, hstate⟩, hended⟩, hterm⟩ := h
  obtain ⟨a, ha⟩ := evaluateClock_nil ha
  obtain ⟨b, hb⟩ := evaluateClock_nil hb
  obtain ⟨x, hx⟩ := evaluateClock_nil hx
  refine ⟨hid, hpfx, ?_, ?_, ⟨a, b, x, ?_⟩, ?_⟩
  · have hinactive := evaluateLeaseState_nil hstate
    intro hc
    rw [PyVal.isText_iff.mpr hc] at hinactive
    cases hinactive
  · obtain ⟨s, hs, hboth⟩ := List.any_eq_true.mp hended
    simp only [Bool.and_eq_true, PyVal.isText_iff, Option.bind_some, beq_iff_eq,
      PyVal.str?_eq_some] at hboth
    exact ⟨s, hs, hboth⟩
  · simp only [ha, hb, hx, refuse_eq_nil, Bool.not_eq_false'] at hclock
    obtain ⟨hordered, httl⟩ := leaseClockValid_iff.mp hclock
    exact ⟨ha, hb, hx, hordered, httl⟩
  · intro heartbeat occurred hh ho
    simp only [hh, Option.bind_some, ho, refuse_eq_nil, decide_eq_false_iff_not] at hterm
    simp only [Instant.lt_iff, Instant.le_iff] at hterm ⊢
    omega

/-- What an inventory without a refusal has been found to be. -/
structure InventoryFits (policy : CheckpointPolicy) (inventory : InventorySummary) : Prop where
  count : ∃ n : Int, inventory.objectCount = .int n ∧ 1 ≤ n ∧ n ≤ policy.bounds.maxObjects
  bytes : ∃ n : Int, inventory.totalBytes = .int n ∧ 1 ≤ n ∧ n ≤ policy.bounds.maxBytes
  newest : ∃ t, inventory.newestLastModified.exactUtc? = some t

theorem isWithin_iff {bound : Nat} {v : PyVal} :
    v.isWithin bound = true ↔ ∃ n : Int, v = .int n ∧ 1 ≤ n ∧ n ≤ bound := by
  cases v <;> simp [PyVal.isWithin]

theorem evaluateInventory_nil {inventory : InventorySummary}
    (h : evaluateInventory policy facts inventory = []) : InventoryFits policy inventory := by
  simp only [evaluateInventory, List.append_eq_nil_iff, refuse_eq_nil, Bool.or_eq_false_iff,
    Bool.not_eq_false', isWithin_iff] at h
  obtain ⟨⟨⟨⟨⟨⟨hcount, hbytes⟩, -⟩, hnewest⟩, -⟩, -⟩, -⟩ := h
  exact ⟨hcount, hbytes, evaluateClock_nil hnewest⟩

/-- What terminal evidence without a refusal has been found to be. -/
structure TerminalFits (entry : CheckpointEntry) (matched : MatchedCheckpoint)
    (terminal : TerminalFacts) : Prop where
  occurred : ∃ t, terminal.occurredAt.exactUtc? = some t
  recovery : terminal.recoveryApproved = .bool true
  source : terminal.sourceAvailable = .bool true
  sink : terminal.sinkDispositionApproved = .bool true
  durable : entry.durability = .durableStream → entry.lifecycle = .retired →
    ∃ t review, entry.retiredAt = some t ∧ entry.retirementReview = some review ∧
      terminal.retirementReview = .str review
  generation : entry.durability ≠ .durableStream →
    ∃ kvs, terminal.generation = .mapping kvs ∧ kvs.length = matched.generation.length ∧
      ∀ x ∈ matched.generation, (PyVal.str (lit x.1), PyVal.str x.2) ∈ kvs
  disposable : entry.durability = .disposableAcceptance →
    terminal.exclusiveRun = .bool true ∧ terminal.successful = .bool true

theorem evaluateReview_nil {terminal : TerminalFacts} (h : evaluateReview entry terminal = []) :
    ∃ review, entry.retirementReview = some review ∧ terminal.retirementReview = .str review := by
  unfold evaluateReview at h
  split at h
  · simp at h
  · rename_i review hreview
    split at h
    · simp at h
    · split at h
      · simp at h
      · simp only [refuse_eq_nil, Bool.not_eq_false', PyVal.isText_iff] at h
        exact ⟨review, hreview, h⟩

theorem evaluateRetirement_nil {terminal : TerminalFacts}
    (h : evaluateRetirement policy facts entry terminal = []) :
    ∃ t review, entry.retiredAt = some t ∧ entry.retirementReview = some review ∧
      terminal.retirementReview = .str review := by
  simp only [evaluateRetirement, List.append_eq_nil_iff] at h
  obtain ⟨⟨-, hclock⟩, hreview⟩ := h
  obtain ⟨review, hentry, hterminal⟩ := evaluateReview_nil hreview
  split at hclock
  · simp at hclock
  · rename_i t ht
    exact ⟨t, review, ht, hentry, hterminal⟩

theorem evaluateTerminal_nil {terminal : TerminalFacts}
    (h : evaluateTerminal policy facts entry matched terminal = []) :
    TerminalFits entry matched terminal := by
  simp only [evaluateTerminal, List.append_eq_nil_iff, refuse_eq_nil, Bool.not_eq_false',
    PyVal.isTrue_iff] at h
  obtain ⟨⟨⟨⟨⟨⟨⟨hclock, -⟩, -⟩, -⟩, hrecovery⟩, hsource⟩, hsink⟩, hclass⟩ := h
  refine ⟨evaluateClock_nil hclock, hrecovery, hsource, hsink, ?_, ?_, ?_⟩
  · intro hd hl
    rw [hd, hl] at hclass
    exact evaluateRetirement_nil hclass
  · intro hd
    refine PyVal.isGeneration_iff.mp ?_
    rcases hdur : entry.durability with _ | _ | _
    · exact absurd hdur hd
    · simpa [hdur] using hclass
    · rw [hdur] at hclass
      simp only [List.append_eq_nil_iff, refuse_eq_nil, Bool.not_eq_false'] at hclass
      exact hclass.1.1
  · intro hd
    rw [hd] at hclass
    simp only [List.append_eq_nil_iff, refuse_eq_nil, Bool.not_eq_false', PyVal.isTrue_iff] at hclass
    exact ⟨hclass.1.2, hclass.2⟩

/-! ### The retention period -/

theorem le_laterOf_left (a b : Instant) : a ≤ laterOf a b := by
  unfold laterOf
  split
  · assumption
  · simp

theorem le_laterOf_right (a b : Instant) : b ≤ laterOf a b := by
  unfold laterOf
  split
  · simp
  · simp only [Instant.le_iff] at *; omega

theorem le_foldl_laterOf : ∀ (ts : List Instant) (t : Instant), ∀ u ∈ t :: ts,
    u ≤ ts.foldl laterOf t := by
  intro ts
  induction ts with
  | nil => intro t u hu; rw [List.mem_singleton.mp hu]; simp
  | cons s ts ih =>
      intro t u hu
      have hhead := ih (laterOf t s) (laterOf t s) (by simp)
      rcases List.mem_cons.mp hu with rfl | hu'
      · exact Nat.le_trans (le_laterOf_left u s) hhead
      · rcases List.mem_cons.mp hu' with rfl | hu''
        · exact Nat.le_trans (le_laterOf_right t u) hhead
        · exact ih (laterOf t s) u (List.mem_cons_of_mem _ hu'')

theorem mapM_id_mem {α : Type} : ∀ {xs : List (Option α)} {ys : List α}, xs.mapM id = some ys →
    ∀ y, some y ∈ xs → y ∈ ys := by
  intro xs
  induction xs with
  | nil => intro ys _ y hy; simp at hy
  | cons x xs ih =>
      intro ys h y hy
      simp only [List.mapM_cons, id_eq, Option.bind_eq_bind, Option.bind_eq_some_iff,
        Option.pure_def, Option.some.injEq] at h
      obtain ⟨a, rfl, as, has, rfl⟩ := h
      rcases List.mem_cons.mp hy with heq | hy'
      · cases heq; simp
      · exact List.mem_cons_of_mem _ (ih has y hy')

/-- No clock the period is counted from is later than the anchor. -/
theorem retentionAnchor_le {lease : LeaseFacts} {terminal : TerminalFacts}
    {inventory : InventorySummary} {anchor : Instant}
    (h : retentionAnchor entry (some lease) (some terminal) inventory = some anchor) :
    (∀ t, inventory.newestLastModified.exactUtc? = some t → t ≤ anchor) ∧
    (∀ t, lease.heartbeatAt.exactUtc? = some t → t ≤ anchor) ∧
    (∀ t, terminal.occurredAt.exactUtc? = some t → t ≤ anchor) ∧
    (entry.durability = .durableStream → entry.lifecycle = .retired →
      ∀ t, entry.retiredAt = some t → t ≤ anchor) := by
  unfold retentionAnchor at h
  split at h
  · rename_i t ts hclocks
    simp only [Option.some.injEq] at h
    subst h
    have hmem : ∀ u, some u ∈ ([inventory.newestLastModified.exactUtc?] ++
        [lease.heartbeatAt.exactUtc?] ++ [terminal.occurredAt.exactUtc?] ++
        (if entry.durability = .durableStream ∧ entry.lifecycle = .retired then [entry.retiredAt]
          else [])) → u ≤ ts.foldl laterOf t :=
      fun u hu => le_foldl_laterOf ts t u (mapM_id_mem hclocks u hu)
    refine ⟨fun u hu => hmem u (by simp [hu]), fun u hu => hmem u (by simp [hu]),
      fun u hu => hmem u (by simp [hu]), fun hd hl u hu => hmem u (by simp [hd, hl, hu])⟩
  · cases h

theorem mapM_id_isSome {α : Type} : ∀ {xs : List (Option α)}, (∀ x ∈ xs, ∃ a, x = some a) →
    ∃ ys, xs.mapM id = some ys ∧ ys.length = xs.length := by
  intro xs
  induction xs with
  | nil => intro _; exact ⟨[], rfl, rfl⟩
  | cons x xs ih =>
      intro h
      obtain ⟨a, rfl⟩ := h x (by simp)
      obtain ⟨ys, hys, hlen⟩ := ih fun y hy => h y (List.mem_cons_of_mem _ hy)
      exact ⟨a :: ys, by simp [hys], by simp [hlen]⟩

theorem retentionAnchor_isSome {lease : LeaseFacts} {terminal : TerminalFacts}
    {inventory : InventorySummary} {newest heartbeat occurred : Instant}
    (hn : inventory.newestLastModified.exactUtc? = some newest)
    (hh : lease.heartbeatAt.exactUtc? = some heartbeat)
    (ho : terminal.occurredAt.exactUtc? = some occurred)
    (hr : entry.durability = .durableStream → entry.lifecycle = .retired →
      ∃ t, entry.retiredAt = some t) :
    ∃ anchor, retentionAnchor entry (some lease) (some terminal) inventory = some anchor := by
  have hall : ∀ x ∈ ([inventory.newestLastModified.exactUtc?] ++
      [lease.heartbeatAt.exactUtc?] ++ [terminal.occurredAt.exactUtc?] ++
      (if entry.durability = .durableStream ∧ entry.lifecycle = .retired then [entry.retiredAt]
        else [])), ∃ a, x = some a := by
    intro x hx
    simp only [List.mem_append, List.mem_singleton] at hx
    rcases hx with ((rfl | rfl) | rfl) | hx
    · exact ⟨_, hn⟩
    · exact ⟨_, hh⟩
    · exact ⟨_, ho⟩
    · split at hx
      · rename_i hc
        rw [List.mem_singleton.mp hx]
        exact hr hc.1 hc.2
      · simp at hx
  obtain ⟨ys, hys, hlen⟩ := mapM_id_isSome hall
  cases ys with
  | nil => simp at hlen
  | cons t ts =>
      refine ⟨ts.foldl laterOf t, ?_⟩
      have hclocks : anchorClocks entry (some lease) (some terminal) inventory = some (t :: ts) := hys
      rw [retentionAnchor, hclocks]

/-- The end of the period has passed, and a durable stream has been retired. -/
theorem evaluatePeriod_nil {e anchor : Instant}
    (h : evaluatePeriod entry (some e) (some anchor) (anchor.add entry.retentionSeconds) = []) :
    anchor.second + entry.retentionSeconds ≤ e.second ∧
      ¬ (entry.durability = .durableStream ∧ entry.lifecycle = .active) := by
  simp only [evaluatePeriod, List.append_eq_nil_iff, refuse_eq_nil, Option.isSome_some,
    Bool.true_and] at h
  obtain ⟨hsome, hperiod⟩ := h
  rcases hadd : anchor.add entry.retentionSeconds with _ | after
  · simp [hadd] at hsome
  · rw [hadd] at hperiod
    split at hperiod
    · simp at hperiod
    · rename_i hactive
      simp only [refuse_eq_nil, decide_eq_false_iff_not, Instant.lt_iff] at hperiod
      have hafter := Instant.add_eq_some.mp hadd
      exact ⟨by omega, hactive⟩

/-! ### The decision -/

/-- Everything an eligible decision stands for.  `e` is the instant of the evaluation. -/
structure Eligible (policy : CheckpointPolicy) (facts : EvaluationInput)
    (matched : MatchedCheckpoint) (entry : CheckpointEntry) (e : Instant) (lease : LeaseFacts)
    (terminal : TerminalFacts) (heartbeat occurred newest : Instant) : Prop where
  evaluatedAt : facts.evaluatedAt.exactUtc? = some e
  leaseGiven : facts.lease = some lease
  terminalGiven : facts.terminal = some terminal
  clocks : ∃ acquired expires, LeaseClocks policy lease acquired heartbeat expires
  occurredAt : terminal.occurredAt.exactUtc? = some occurred
  newestLastModified : facts.inventory.newestLastModified.exactUtc? = some newest
  period : max (max heartbeat.second occurred.second) newest.second + entry.retentionSeconds
    ≤ e.second
  leaseFits : LeaseFits policy matched entry lease terminal
  terminalFits : TerminalFits entry matched terminal
  inventoryFits : InventoryFits policy facts.inventory
  heartbeatFirst : heartbeat ≤ occurred
  noneAfter : newest ≤ occurred
  /-- A durable stream has been retired, long enough ago and under one review. -/
  retired : entry.durability = .durableStream → entry.lifecycle = .retired ∧
    ∃ t review, entry.retiredAt = some t ∧ t.second + entry.retentionSeconds ≤ e.second ∧
      entry.retirementReview = some review ∧ terminal.retirementReview = .str review

theorem matchPrefix_keyPrefix {keyPrefix : Str} (h : policy.matchPrefix keyPrefix = .ok matched) :
    matched.keyPrefix = keyPrefix := by
  unfold CheckpointPolicy.matchPrefix at h
  split at h
  · cases h
  · split at h
    · rename_i m hm
      simp only [Except.ok.injEq] at h
      subst h
      obtain ⟨entry, -, hentry⟩ := List.exists_of_findSome?_eq_some hm
      unfold CheckpointEntry.match? at hentry
      split at hentry
      · obtain ⟨g, -, rfl⟩ := Option.map_eq_some_iff.mp hentry
        rfl
      · split at hentry
        · split at hentry
          · simp only [Option.some.injEq] at hentry
            rw [← hentry]
          · cases hentry
        · split at hentry
          · split at hentry
            · simp only [Option.some.injEq] at hentry
              rw [← hentry]
            · cases hentry
          · cases hentry
    · cases h

theorem matchValue_keyPrefix {value : PyVal} (h : policy.matchValue value = .ok matched) :
    value = .str matched.keyPrefix := by
  cases value with
  | str keyPrefix =>
      rw [matchPrefix_keyPrefix h]
  | _ => cases h

theorem eraseDups_eq_nil {xs : List String} (h : xs.eraseDups = []) : xs = [] := by
  cases xs with
  | nil => rfl
  | cons x xs => simp [List.eraseDups_cons] at h

theorem eligible_of_codes (h : refusalCodes policy facts matched entry = []) :
    ∃ e lease terminal heartbeat occurred newest,
      Eligible policy facts matched entry e lease terminal heartbeat occurred newest := by
  simp only [refusalCodes, List.append_eq_nil_iff, refuse_eq_nil] at h
  obtain ⟨⟨⟨⟨hat, hlease⟩, hinv⟩, hterm⟩, hperiod⟩ := h
  rcases he : facts.evaluatedAt.exactUtc? with _ | e
  · simp [he] at hat
  rcases hl : facts.lease with _ | lease
  · simp [hl] at hlease
  rcases ht : facts.terminal with _ | terminal
  · simp [ht] at hterm
  simp only [hl, ht] at hlease
  simp only [ht, List.append_eq_nil_iff] at hterm
  obtain ⟨hterm, hafter⟩ := hterm
  have hleaseFits := evaluateLease_nil hlease
  have hinvFits := evaluateInventory_nil hinv
  have htermFits := evaluateTerminal_nil hterm
  obtain ⟨a, heartbeat, x, hclocks⟩ := hleaseFits.clocks
  obtain ⟨occurred, ho⟩ := htermFits.occurred
  obtain ⟨newest, hn⟩ := hinvFits.newest
  obtain ⟨anchor, hanchor⟩ := @retentionAnchor_isSome entry _ _ _ _ _ _ hn hclocks.heartbeatAt ho
    (fun hd hr => by
      obtain ⟨t, -, hretired, -⟩ := htermFits.durable hd hr
      exact ⟨t, hretired⟩)
  rw [he, hl, ht, hanchor, Option.bind_some] at hperiod
  obtain ⟨hpassed, hretired⟩ := evaluatePeriod_nil hperiod
  obtain ⟨hnewest, hheartbeat, hoccurred, hret⟩ := retentionAnchor_le hanchor
  have h1 := hnewest _ hn
  have h2 := hheartbeat _ hclocks.heartbeatAt
  have h3 := hoccurred _ ho
  simp only [Instant.le_iff] at h1 h2 h3
  refine ⟨e, lease, terminal, heartbeat, occurred, newest, he, hl, ht, ⟨a, x, hclocks⟩, ho, hn,
    by omega, hleaseFits, htermFits, hinvFits,
    hleaseFits.beforeTerminal _ _ hclocks.heartbeatAt ho, ?_, ?_⟩
  · simp only [ho, hn, refuse_eq_nil, decide_eq_false_iff_not, Instant.lt_iff] at hafter
    simp only [Instant.le_iff]
    omega
  · intro hd
    have hlife : entry.lifecycle = .retired := by
      rcases hlc : entry.lifecycle with _ | _
      · exact absurd ⟨hd, hlc⟩ hretired
      · rfl
    obtain ⟨t, review, hat, hreview, hterminal⟩ := htermFits.durable hd hlife
    have h4 := hret hd hlife t hat
    simp only [Instant.le_iff] at h4
    exact ⟨hlife, t, review, hat, by omega, hreview, hterminal⟩

/-- **Soundness of eligibility.**  Whatever the types of the facts, a decision is eligible
exactly when nothing was refused, and then everything in `Eligible` holds. -/
theorem evaluateRetention_sound (load : Str → Except PolicyFailure Yaml) (text : Str)
    (policy : CheckpointPolicy) (hpolicy : parsePolicy load text = .ok policy)
    (facts : EvaluationInput) (decision : RetentionDecision)
    (h : evaluateRetention policy facts = .ok decision) :
    (decision.refusalCodes = [] ↔ decision.eligible = true) ∧
    (decision.eligible = true → ∃ matched entry e lease terminal heartbeat occurred newest,
      policy.matchValue facts.keyPrefix = .ok matched ∧
      facts.keyPrefix = .str matched.keyPrefix ∧ entry ∈ policy.entries ∧
      entry.checkpointId = matched.checkpointId ∧ entry.WellFormed ∧
      Eligible policy facts matched entry e lease terminal heartbeat occurred newest) := by
  simp only [evaluateRetention, bind_eq_ok, pure_eq_ok, orElse_eq_ok] at h
  obtain ⟨matched, hmatched, entry, hentry, _, _, _, _, rfl⟩ := h
  refine ⟨by simp, fun heligible => ?_⟩
  have hcodes := eraseDups_eq_nil (List.isEmpty_iff.mp heligible)
  obtain ⟨e, lease, terminal, heartbeat, occurred, newest, hel⟩ := eligible_of_codes hcodes
  have hmem := List.mem_of_find?_eq_some hentry
  exact ⟨matched, entry, e, lease, terminal, heartbeat, occurred, newest, hmatched,
    matchValue_keyPrefix hmatched, hmem,
    by simpa using List.find?_some hentry, (parsePolicy_wellFormed hpolicy).entry entry hmem, hel⟩

/-! ### An eligible run -/

mutual
/-- A JSON document as the YAML loader reads it. -/
def Yaml.ofJson : Json → Yaml
  | .null => .null
  | .bool b => .bool b
  | .int n => .int n
  | .float _ => .other
  | .str s => .str s
  | .arr xs => .seq (ofElems xs)
  | .obj kvs => .map (ofMembers kvs)

def Yaml.ofElems : List Json → List Yaml
  | [] => []
  | x :: xs => ofJson x :: ofElems xs

def Yaml.ofMembers : List (Str × Json) → List (Yaml × Yaml)
  | [] => []
  | (k, v) :: kvs => (.str k, ofJson v) :: ofMembers kvs
end

/-- JSON is YAML: the loader on documents written as JSON. -/
def loadJson (text : Str) : Except PolicyFailure Yaml :=
  match loads ⟨true, true⟩ text with
  | .ok v => .ok (Yaml.ofJson v)
  | .error _ => .error (.policy "invalid_yaml")

/-- The shipped registry as one line of JSON. -/
def registryText : Str := (dumps registry.payload).getD []

/-- An acceptance run stopped at second `63900000000`, planned two days later. -/
def stoppedRun : EvaluationInput :=
  let at' := fun n : Nat => PyVal.datetime ⟨⟨min n maxSecond, Nat.min_le_right _ _⟩, 0, some 0⟩
  let run := lit "00000000-0000-4000-8000-000000000000"
  let keyPrefix := lit "streaming_test/" ++ run ++ lit "/"
  { keyPrefix := .str keyPrefix
    evaluatedAt := at' 63900172800
    lease := some
      { checkpointId := .str (lit "go-live-streaming-test-v1"), keyPrefix := .str keyPrefix
        state := .str (lit "stopped"), acquiredAt := at' 63899999000, heartbeatAt := at' 63900000000
        expiresAt := at' 63900000600, etag := .str (lit "0"), conflicting := .bool false
        malformed := .bool false }
    terminal := some
      { state := .str (lit "stopped"), occurredAt := at' 63900000000
        recoveryApproved := .bool true, sourceAvailable := .bool true
        sinkDispositionApproved := .bool true, retirementReview := .none
        generation := .mapping [(.str (lit "run_uuid"), .str run)]
        exclusiveRun := .bool true, successful := .bool true }
    inventory :=
      { objectCount := .int 1, totalBytes := .int 1, newestLastModified := at' 63899999999
        inventorySha256 := .str (sha256 []), changedSincePlan := .bool false
        partialRetryConfined := .bool true } }

theorem registryText_parses : parsePolicy loadJson registryText = .ok registry := by decide +kernel

/-- The size of a plan does not depend on the digest it names. -/
theorem planPayload_width_digest {matched : MatchedCheckpoint} {codes : List String} {anchor after : Option Instant}
    {sha sha' : Str} (h : sha.length = sha'.length) :
    (planPayload facts matched codes anchor after sha).width =
      (planPayload facts matched codes anchor after sha').width := by
  simp only [planPayload, Json.width, widthMembers, h]

theorem planPayload_intsFit_digest {matched : MatchedCheckpoint} {codes : List String} {anchor after : Option Instant}
    {sha sha' : Str} : (planPayload facts matched codes anchor after sha).intsFit =
      (planPayload facts matched codes anchor after sha').intsFit := by
  simp only [planPayload, Json.intsFit, membersFit]

/-- What the prefix of the run is matched to. -/
def stoppedMatch : MatchedCheckpoint where
  checkpointId := "go-live-streaming-test-v1"
  keyPrefix := lit "streaming_test/00000000-0000-4000-8000-000000000000/"
  generation := [("run_uuid", lit "00000000-0000-4000-8000-000000000000")]

def stoppedEntry : CheckpointEntry :=
  { goLiveStreamingTest with lifecycle := .active, retiredAt := none, retirementReview := none }

theorem stoppedRun_eligible : ∃ decision, evaluateRetention registry stoppedRun = .ok decision ∧
    decision.eligible = true := by
  have hmatched : registry.matchValue stoppedRun.keyPrefix = .ok stoppedMatch := by decide
  have hentry : registry.entry? stoppedMatch.checkpointId = some stoppedEntry := by decide
  have hcodes : (refusalCodes registry stoppedRun stoppedMatch stoppedEntry).eraseDups = [] := by decide +kernel
  let anchor := retentionAnchor stoppedEntry stoppedRun.lease stoppedRun.terminal stoppedRun.inventory
  let plan := planPayload stoppedRun stoppedMatch [] anchor (anchor.bind fun a => a.add stoppedEntry.retentionSeconds)
  have hfit : (plan []).intsFit = true := by decide +kernel
  obtain ⟨planJson, hplan⟩ : ∃ planJson, dumps (plan (policySha256 registry)) = some planJson :=
    ⟨_, dumps_eq_some.mpr ⟨planPayload_intsFit_digest.trans hfit, rfl⟩⟩
  have hbound : planJson.length ≤ registry.bounds.maxSummaryBytes := by
    have hblank : (plan (List.replicate 64 48)).width ≤ registry.bounds.maxSummaryBytes := by decide +kernel
    have hsha : (policySha256 registry).length = 64 := isSha256_length (sha256_isSha256 _)
    exact (dumps_length_le hplan).trans ((planPayload_width_digest (hsha.trans (by simp))).trans_le hblank)
  refine ⟨⟨true, [], anchor, anchor.bind fun a => a.add stoppedEntry.retentionSeconds, policySha256 registry, planJson,
    sha256 (asciiBytes planJson)⟩, ?_, rfl⟩
  simp only [evaluateRetention, bind_eq_ok, pure_eq_ok, orElse_eq_ok]
  refine ⟨stoppedMatch, hmatched, stoppedEntry, hentry, planJson, ?_, (), require_eq_ok.mpr (decide_eq_true hbound), ?_⟩
  · rw [hcodes]
    exact hplan
  · rw [hcodes]
    rfl

theorem evaluateRetention_sound_stoppedRun : ∃ decision,
    evaluateRetention registry stoppedRun = .ok decision ∧ decision.eligible = true ∧
    ∃ matched entry e lease terminal heartbeat occurred newest,
      registry.matchValue stoppedRun.keyPrefix = .ok matched ∧
      stoppedRun.keyPrefix = .str matched.keyPrefix ∧ entry ∈ registry.entries ∧
      entry.checkpointId = matched.checkpointId ∧ entry.WellFormed ∧
      Eligible registry stoppedRun matched entry e lease terminal heartbeat occurred newest := by
  obtain ⟨decision, hdecision, heligible⟩ := stoppedRun_eligible
  exact ⟨decision, hdecision, heligible, (evaluateRetention_sound loadJson registryText registry
    registryText_parses stoppedRun decision hdecision).2 heligible⟩

end Checkpoints
