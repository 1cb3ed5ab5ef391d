/-
Evaluating the same facts later.

Time enters an evaluation in four ways: a clock of the facts may lie in the future, an
active lease may have expired, the retention period may have passed, and the plan prints
the time.  The first and the third only get milder.  The second trades one code for
another, and `LaterEvaluations` says with `Relaxed` what each evaluator does to the codes
when nothing but the time of the evaluation moves on.

That a later evaluation decides at all is a matter of the size of the plan, which is
bounded whatever the codes are (`planPayload_width`).
-/
import DataEngLab.Checkpoints.Metrics
import DataEngLab.Checkpoints.Prefixes
import DataEngLab.Lib.JsonWidth

namespace Checkpoints

open Lib

/-! ### Codes -/

def leaseActive : String := "lease_active"
def leaseExpired : String := "lease_expired_active_uncertain"

/-- The codes that say nothing of an active lease. -/
def plainCodes : List String := refusals.filter fun c => c ≠ leaseActive ∧ c ≠ leaseExpired

/-- The later codes are among the earlier ones, but for a lease that has expired meanwhile. -/
def Relaxed (before after : List String) : Prop :=
  ∀ c ∈ after, c ∈ before ∨ (c = leaseExpired ∧ leaseActive ∈ before)

section
variable {xs ys xs' ys' : List String} {code c : String} {b b' : Bool}

theorem Relaxed.refl (xs : List String) : Relaxed xs xs := fun _ h => .inl h

theorem Relaxed.append (h : Relaxed xs ys) (h' : Relaxed xs' ys') : Relaxed (xs ++ xs') (ys ++ ys') := by
  intro c hc
  rcases List.mem_append.mp hc with hc | hc
  · rcases h c hc with hc | ⟨hexpired, hactive⟩
    · exact .inl (List.mem_append_left _ hc)
    · exact .inr ⟨hexpired, List.mem_append_left _ hactive⟩
  · rcases h' c hc with hc | ⟨hexpired, hactive⟩
    · exact .inl (List.mem_append_right _ hc)
    · exact .inr ⟨hexpired, List.mem_append_right _ hactive⟩

theorem mem_refuse : c ∈ refuse b code ↔ b = true ∧ c = code := by
  cases b <;> simp [refuse]

theorem refuse_plain (h : code ∈ plainCodes) : refuse b code ⊆ plainCodes := by
  intro c hc
  obtain ⟨-, rfl⟩ := mem_refuse.mp hc
  exact h

end

/-! ### What moves with the time -/

section
variable {policy : CheckpointPolicy} {e e' : Instant} {lease : LeaseFacts}

theorem isFutureClock_later {t : Instant} {tolerance : Nat} (hle : e ≤ e')
    (h : isFutureClock t e' tolerance = true) : isFutureClock t e tolerance = true := by
  simp only [isFutureClock, decide_eq_true_eq, Instant.le_iff] at h hle ⊢
  omega

theorem refuse_later {t : Instant} {tolerance : Nat} {code : String} (hle : e ≤ e') :
    Relaxed (refuse (isFutureClock t e tolerance) code) (refuse (isFutureClock t e' tolerance) code) := by
  intro c hc
  obtain ⟨hfuture, rfl⟩ := mem_refuse.mp hc
  exact .inl (mem_refuse.mpr ⟨isFutureClock_later hle hfuture, rfl⟩)

theorem evaluateClock_later {v : PyVal} (hle : e ≤ e') :
    Relaxed (evaluateClock policy (some e) v) (evaluateClock policy (some e') v) := by
  unfold evaluateClock
  cases v.exactUtc? with
  | none => exact Relaxed.refl _
  | some t => exact refuse_later hle

theorem evaluateLeaseState_later (hle : e ≤ e') :
    Relaxed (evaluateLeaseState (some e) lease) (evaluateLeaseState (some e') lease) := by
  unfold evaluateLeaseState
  refine (Relaxed.refl _).append ?_
  split
  · cases lease.expiresAt.exactUtc? with
    | none => exact Relaxed.refl _
    | some expires =>
        intro c hc
        simp only [List.mem_singleton] at hc ⊢
        by_cases hbefore : e ≤ expires
        · rw [if_pos hbefore]
          split at hc
          · exact .inl hc
          · exact .inr ⟨hc, rfl⟩
        · have hafter : ¬ e' ≤ expires := by
            simp only [Instant.le_iff] at hle hbefore ⊢
            omega
          rw [if_neg hafter] at hc
          rw [if_neg hbefore]
          exact .inl hc
  · exact Relaxed.refl _

variable {facts facts' : EvaluationInput} {matched : MatchedCheckpoint} {entry : CheckpointEntry}
  {terminal : TerminalFacts}

theorem evaluateLease_later {terminal : Option TerminalFacts} (he : facts.evaluatedAt.exactUtc? = some e)
    (he' : facts'.evaluatedAt.exactUtc? = some e') (hle : e ≤ e') :
    Relaxed (evaluateLease policy facts matched entry lease terminal)
      (evaluateLease policy facts' matched entry lease terminal) := by
  unfold evaluateLease
  rw [he, he']
  refine .append (.append ?_ (Relaxed.refl _)) (Relaxed.refl _)
  refine .append (.append ?_ (Relaxed.refl _)) (evaluateLeaseState_later hle)
  exact .append (.append (.append (Relaxed.refl _) (evaluateClock_later hle)) (evaluateClock_later hle))
    (evaluateClock_later hle)

theorem evaluateInventory_later {inventory : InventorySummary} (he : facts.evaluatedAt.exactUtc? = some e)
    (he' : facts'.evaluatedAt.exactUtc? = some e') (hle : e ≤ e') :
    Relaxed (evaluateInventory policy facts inventory) (evaluateInventory policy facts' inventory) := by
  unfold evaluateInventory
  rw [he, he']
  exact .append (.append (.append (.append (Relaxed.refl _) (evaluateClock_later hle)) (Relaxed.refl _))
    (Relaxed.refl _)) (Relaxed.refl _)

theorem evaluateRetirement_later (he : facts.evaluatedAt.exactUtc? = some e)
    (he' : facts'.evaluatedAt.exactUtc? = some e') (hle : e ≤ e') :
    Relaxed (evaluateRetirement policy facts entry terminal) (evaluateRetirement policy facts' entry terminal) := by
  unfold evaluateRetirement
  rw [he, he']
  refine .append (.append (Relaxed.refl _) ?_) (Relaxed.refl _)
  cases entry.retiredAt with
  | none => exact Relaxed.refl _
  | some t => exact refuse_later hle

theorem evaluateTerminal_later (he : facts.evaluatedAt.exactUtc? = some e)
    (he' : facts'.evaluatedAt.exactUtc? = some e') (hle : e ≤ e') :
    Relaxed (evaluateTerminal policy facts entry matched terminal)
      (evaluateTerminal policy facts' entry matched terminal) := by
  unfold evaluateTerminal
  rw [he, he']
  refine .append ?_ ?_
  · refine .append (.append (.append (.append ?_ (Relaxed.refl _)) (Relaxed.refl _)) (Relaxed.refl _)) (Relaxed.refl _)
    exact .append (.append (evaluateClock_later hle) (Relaxed.refl _)) (Relaxed.refl _)
  · cases entry.durability with
    | durableStream =>
        cases entry.lifecycle with
        | retired => exact evaluateRetirement_later he he' hle
        | active => exact Relaxed.refl _
    | generationReproducibility => exact Relaxed.refl _
    | disposableAcceptance => exact Relaxed.refl _

theorem evaluatePeriod_later {anchor after : Option Instant} (hle : e ≤ e') :
    Relaxed (evaluatePeriod entry (some e) anchor after) (evaluatePeriod entry (some e') anchor after) := by
  unfold evaluatePeriod
  refine .append (Relaxed.refl _) ?_
  split
  · exact Relaxed.refl _
  · cases after with
    | none => exact Relaxed.refl _
    | some after =>
        intro c hc
        obtain ⟨hbefore, rfl⟩ := mem_refuse.mp hc
        refine .inl (mem_refuse.mpr ⟨?_, rfl⟩)
        simp only [decide_eq_true_eq, Instant.lt_iff, Instant.le_iff] at hbefore hle ⊢
        omega

/-- **The codes of a later evaluation.** -/
theorem refusalCodes_later (he : facts.evaluatedAt.exactUtc? = some e) {v : PyVal} (hv : v.exactUtc? = some e')
    (hle : e ≤ e') : Relaxed (refusalCodes policy facts matched entry)
      (refusalCodes policy { facts with evaluatedAt := v } matched entry) := by
  unfold refusalCodes
  simp only [he, hv]
  refine .append (.append (.append (.append (Relaxed.refl _) ?_) (evaluateInventory_later he hv hle)) ?_)
    (evaluatePeriod_later hle)
  · cases facts.lease with
    | none => exact Relaxed.refl _
    | some lease => exact evaluateLease_later he hv hle
  · cases facts.terminal with
    | none => exact Relaxed.refl _
    | some terminal => exact .append (evaluateTerminal_later he hv hle) (Relaxed.refl _)

end

/-! ### Which codes there are -/

section
variable {policy : CheckpointPolicy} {facts : EvaluationInput} {matched : MatchedCheckpoint}
  {entry : CheckpointEntry} {lease : LeaseFacts} {terminal : TerminalFacts} {e : Option Instant}

theorem evaluateClock_plain {v : PyVal} : evaluateClock policy e v ⊆ plainCodes := by
  unfold evaluateClock
  split
  · exact List.cons_subset.mpr ⟨by decide, List.nil_subset _⟩
  · exact refuse_plain (by decide)

theorem evaluateInventory_plain {inventory : InventorySummary} : evaluateInventory policy facts inventory ⊆ plainCodes := by
  simp only [evaluateInventory, List.append_subset]
  exact ⟨⟨⟨⟨refuse_plain (by decide), evaluateClock_plain⟩, refuse_plain (by decide)⟩, refuse_plain (by decide)⟩,
    refuse_plain (by decide)⟩

theorem evaluateReview_plain : evaluateReview entry terminal ⊆ plainCodes := by
  unfold evaluateReview
  split
  · exact List.cons_subset.mpr ⟨by decide, List.nil_subset _⟩
  · split
    · exact List.cons_subset.mpr ⟨by decide, List.nil_subset _⟩
    · split
      · exact List.cons_subset.mpr ⟨by decide, List.nil_subset _⟩
      · exact refuse_plain (by decide)

theorem evaluateRetirement_plain : evaluateRetirement policy facts entry terminal ⊆ plainCodes := by
  simp only [evaluateRetirement, List.append_subset]
  refine ⟨⟨refuse_plain (by decide), ?_⟩, evaluateReview_plain⟩
  split
  · exact List.cons_subset.mpr ⟨by decide, List.nil_subset _⟩
  · exact refuse_plain (by decide)

theorem evaluateTerminal_plain : evaluateTerminal policy facts entry matched terminal ⊆ plainCodes := by
  simp only [evaluateTerminal, List.append_subset]
  refine ⟨⟨⟨⟨⟨⟨⟨evaluateClock_plain, refuse_plain (by decide)⟩, refuse_plain (by decide)⟩, ?_⟩,
    refuse_plain (by decide)⟩, refuse_plain (by decide)⟩, refuse_plain (by decide)⟩, ?_⟩
  · intro c hc
    obtain ⟨v, -, hc⟩ := List.mem_flatMap.mp hc
    exact refuse_plain (by decide) hc
  · split
    · exact evaluateRetirement_plain
    · exact List.nil_subset _
    · exact refuse_plain (by decide)
    · exact List.append_subset.mpr ⟨List.append_subset.mpr ⟨refuse_plain (by decide), refuse_plain (by decide)⟩,
        refuse_plain (by decide)⟩

theorem evaluatePeriod_plain {anchor after : Option Instant} : evaluatePeriod entry e anchor after ⊆ plainCodes := by
  refine List.append_subset.mpr ⟨refuse_plain (by decide), ?_⟩
  split
  · exact List.cons_subset.mpr ⟨by decide, List.nil_subset _⟩
  · split
    · exact refuse_plain (by decide)
    · exact List.nil_subset _

/-- Only the state of the lease is told by a code that is not plain. -/
theorem evaluateLease_codes {terminal : Option TerminalFacts} :
    evaluateLease policy facts matched entry lease terminal ⊆
      plainCodes ++ evaluateLeaseState facts.evaluatedAt.exactUtc? lease := by
  have hplain : ∀ {xs : List String}, xs ⊆ plainCodes →
      xs ⊆ plainCodes ++ evaluateLeaseState facts.evaluatedAt.exactUtc? lease :=
    fun h => List.Subset.trans h (List.subset_append_left _ _)
  simp only [evaluateLease, List.append_subset]
  refine ⟨⟨⟨⟨⟨⟨⟨⟨⟨⟨⟨hplain (refuse_plain (by decide)), hplain (refuse_plain (by decide))⟩,
    hplain (refuse_plain (by decide))⟩, hplain (refuse_plain (by decide))⟩, hplain (refuse_plain (by decide))⟩,
    hplain evaluateClock_plain⟩, hplain evaluateClock_plain⟩, hplain evaluateClock_plain⟩, ?_⟩, ?_⟩,
    hplain (refuse_plain (by decide))⟩, ?_⟩
  · split
    · exact hplain (refuse_plain (by decide))
    · exact List.nil_subset _
  · exact List.subset_append_right _ _
  · split
    · exact hplain (refuse_plain (by decide))
    · exact List.nil_subset _

theorem refusalCodes_codes {c : String} (h : c ∈ refusalCodes policy facts matched entry) :
    c ∈ plainCodes ∨ ∃ lease, facts.lease = some lease ∧ c ∈ evaluateLeaseState facts.evaluatedAt.exactUtc? lease := by
  simp only [refusalCodes, List.mem_append] at h
  rcases h with (((h | h) | h) | h) | h
  · exact .inl (refuse_plain (by decide) h)
  · split at h
    · exact .inl (List.mem_singleton.mp h ▸ by decide)
    · rename_i lease hlease
      rcases List.mem_append.mp (evaluateLease_codes h) with h | h
      · exact .inl h
      · exact .inr ⟨lease, hlease, h⟩
  · exact .inl (evaluateInventory_plain h)
  · split at h
    · exact .inl (List.mem_singleton.mp h ▸ by decide)
    · rcases List.mem_append.mp h with h | h
      · exact .inl (evaluateTerminal_plain h)
      · split at h
        · exact .inl (refuse_plain (by decide) h)
        · cases h
  · exact .inl (evaluatePeriod_plain h)

theorem not_plain : leaseActive ∉ plainCodes ∧ leaseExpired ∉ plainCodes := by decide

theorem evaluateLeaseState_one (h : leaseExpired ∈ evaluateLeaseState e lease) :
    leaseActive ∉ evaluateLeaseState e lease := by
  have hne : ∀ b, leaseExpired ∉ refuse b "invalid_fact_type" ∧ leaseActive ∉ refuse b "invalid_fact_type" ∧
      leaseExpired ∉ refuse b "lease_state_invalid" := by decide
  unfold evaluateLeaseState at h ⊢
  rw [List.mem_append] at h ⊢
  refine not_or.mpr ⟨(hne _).2.1, ?_⟩
  have hstate := h.resolve_left (hne _).1
  split at hstate
  · rename_i hactive
    rw [if_pos hactive]
    have hcodes : leaseExpired ≠ leaseActive := by decide
    cases e with
    | none => exact absurd (List.mem_singleton.mp hstate) hcodes
    | some e =>
        cases hexpires : lease.expiresAt.exactUtc? with
        | none =>
            rw [hexpires] at hstate
            exact absurd (List.mem_singleton.mp hstate) hcodes
        | some expires =>
            rw [hexpires] at hstate
            simp only [List.mem_singleton] at hstate ⊢
            rw [← hstate]
            exact hcodes.symm
  · exact absurd hstate (hne _).2.2

/-- A lease that has expired is not called active. -/
theorem not_active_of_expired (h : leaseExpired ∈ refusalCodes policy facts matched entry) :
    leaseActive ∉ refusalCodes policy facts matched entry := by
  intro hactive
  obtain ⟨lease, hlease, hstate⟩ := (refusalCodes_codes h).resolve_left not_plain.2
  obtain ⟨lease', hlease', hstate'⟩ := (refusalCodes_codes hactive).resolve_left not_plain.1
  obtain rfl := Option.some.inj (hlease.symm.trans hlease')
  exact evaluateLeaseState_one hstate hstate'

theorem evaluateLeaseState_refusals : evaluateLeaseState e lease ⊆ refusals := by
  have hknown : ∀ code ∈ ["invalid_fact_type", "lease_state_invalid", leaseActive, leaseExpired], code ∈ refusals := by
    decide
  intro c hc
  rcases List.mem_append.mp hc with hc | hc
  · exact (mem_refuse.mp hc).2 ▸ hknown _ (by decide)
  · split at hc
    · split at hc
      · rw [List.mem_singleton.mp hc]
        split
        · exact hknown leaseActive (by decide)
        · exact hknown leaseExpired (by decide)
      · exact List.mem_singleton.mp hc ▸ hknown leaseActive (by decide)
    · exact (mem_refuse.mp hc).2 ▸ hknown _ (by decide)

/-- Every code is one that the registry of metrics knows. -/
theorem refusalCodes_refusals : refusalCodes policy facts matched entry ⊆ refusals := by
  intro c hc
  rcases refusalCodes_codes hc with hc | ⟨lease, -, hc⟩
  · exact (List.mem_filter.mp hc).1
  · exact evaluateLeaseState_refusals hc

end

/-! ### The size of a plan -/

theorem nodup_eraseDups {α : Type} [DecidableEq α] (xs : List α) : xs.eraseDups.Nodup := by
  induction h : xs.length using Nat.strong_induction_on generalizing xs with
  | _ n ih =>
      cases xs with
      | nil => simp
      | cons x xs =>
          rw [List.eraseDups_cons, List.nodup_cons]
          refine ⟨by simp, ih _ ?_ _ rfl⟩
          rw [← h, List.length_cons]
          exact Nat.lt_succ_of_le (List.length_filter_le _ _)

/-- However many codes there are, each is there once. -/
theorem codes_width {codes : List String} (hnodup : codes.Nodup) (hcodes : codes ⊆ refusals) :
    widthElems (codes.map textJson) ≤ 13000 := by
  have hall : (refusals.map fun c => (textJson c).width + 1).sum ≤ 13000 := by decide
  rw [widthElems_eq, List.map_map]
  exact (sum_map_le_of_subset (fun c => (textJson c).width + 1) hnodup hcodes).trans hall

theorem optionalUtc_width {t : Option Instant} : (optionalUtc t).width ≤ 242 := by
  cases t with
  | none => decide
  | some t => simp [optionalUtc, Json.width]

theorem intJson_width {v : PyVal} : (intJson v).width ≤ intDigitLimit + 1 := by
  cases v with
  | int n => exact le_refl _
  | _ => exact show (4 : Nat) ≤ 4301 by decide

theorem Owned.length_le {p : Str} (h : Owned p) : p.length ≤ 121 := by
  obtain ⟨segs, hsegs, rfl⟩ := h
  have hnames : ∀ name ∈ streamNames, (lit name).length ≤ 20 := by decide
  have hscales : ∀ scale ∈ scaleNames, (lit scale).length ≤ 6 := by decide
  have hroots : (lit "gh_events_file").length = 14 ∧ (lit "streaming_test").length = 14 := by decide
  cases hsegs with
  | stream name known =>
      have := hnames name known
      simp only [pathText_cons, pathText_nil, List.length_append, List.length_cons, List.length_nil]
      omega
  | generation scale known publication manifest hex hex' =>
      have := hscales scale known
      have h32 : publication.length = 32 := Pattern.fullmatch_length hex
      have h64 : manifest.length = 64 := Pattern.fullmatch_length hex'
      simp only [pathText_cons, pathText_nil, List.length_append, List.length_cons, List.length_nil]
      omega
  | scratch id hid =>
      have h36 : id.length = 36 := Pattern.fullmatch_length hid
      simp only [pathText_cons, pathText_nil, List.length_append, List.length_cons, List.length_nil]
      omega

section
variable {facts : EvaluationInput} {matched : MatchedCheckpoint} {codes : List String} {anchor after : Option Instant}
  {sha : Str}

/-- **A plan fits** in the bound on summaries, whatever it says. -/
theorem planPayload_width (hnodup : codes.Nodup) (hcodes : codes ⊆ refusals) (hpath : matched.keyPrefix.length ≤ 121)
    (hid : (lit matched.checkpointId).length ≤ 40) (hsha : sha.length = 64) :
    (planPayload facts matched codes anchor after sha).width ≤ 65536 := by
  have hwidth := codes_width hnodup hcodes
  have hdecision : (textJson (if codes.isEmpty then "eligible" else "refused")).width ≤ 98 := by
    split <;> decide
  have hinventory : (if facts.inventory.inventorySha256.isSha256 then
      (facts.inventory.inventorySha256.str?.map Json.str).getD .null else .null).width ≤ 770 := by
    split
    · rename_i hsha
      obtain ⟨s, hs, hsha⟩ := (Option.any_eq_true _ _).mp hsha
      rw [hs]
      simp [Json.width, isSha256_length hsha]
    · decide
  have hkeys : (lit "checkpoint_id").length = 13 ∧ (lit "decision").length = 8 ∧ (lit "eligible_after").length = 14 ∧
      (lit "evaluated_at").length = 12 ∧ (lit "inventory").length = 9 ∧ (lit "policy_sha256").length = 13 ∧
      (lit "prefix").length = 6 ∧ (lit "refusal_codes").length = 13 ∧ (lit "retention_anchor").length = 16 := by
    decide
  have hfields : (lit "newest_last_modified").length = 20 ∧ (lit "object_count").length = 12 ∧
      (lit "sha256").length = 6 ∧ (lit "total_bytes").length = 11 := by decide
  obtain ⟨h₁, h₂, h₃, h₄, h₅, h₆, h₇, h₈, h₉⟩ := hkeys
  obtain ⟨f₁, f₂, f₃, f₄⟩ := hfields
  have hafter := optionalUtc_width (t := after)
  have hanchor := optionalUtc_width (t := anchor)
  have hevaluated := optionalUtc_width (t := facts.evaluatedAt.exactUtc?)
  have hnewest := optionalUtc_width (t := facts.inventory.newestLastModified.exactUtc?)
  have hcount := intJson_width (v := facts.inventory.objectCount)
  have htotal := intJson_width (v := facts.inventory.totalBytes)
  have hidentity : (textJson matched.checkpointId).width = 12 * (lit matched.checkpointId).length + 2 := rfl
  simp only [intDigitLimit] at hcount htotal
  simp only [planPayload, Json.width, widthMembers, h₁, h₂, h₃, h₄, h₅, h₆, h₇, h₈, h₉, f₁, f₂, f₃, f₄, hsha, hidentity]
  omega

/-- Whether a plan can be printed depends on the counts of the inventory alone. -/
theorem planPayload_intsFit {v : PyVal} {codes' : List String} {anchor' after' : Option Instant} :
    (planPayload { facts with evaluatedAt := v } matched codes' anchor' after' sha).intsFit =
      (planPayload facts matched codes anchor after sha).intsFit := by
  have hutc : ∀ t, (optionalUtc t).intsFit = true := by
    intro t
    cases t <;> rfl
  have hcodes : ∀ codes : List String, elemsFit (codes.map textJson) = true := by
    intro codes
    induction codes with
    | nil => rfl
    | cons c codes ih => simp [elemsFit, textJson, Json.intsFit, ih]
  simp only [planPayload, Json.intsFit, membersFit, hutc, hcodes, textJson]

end

/-! ### Later decisions -/

section
variable {policy : CheckpointPolicy} {matched : MatchedCheckpoint} {entry : CheckpointEntry}

/-- **Facts are decided** whenever their numbers can be printed: no plan is too large. -/
theorem evaluateRetention_decides (facts : EvaluationInput) (hpolicy : policy.WellFormed)
    (hmatched : policy.matchValue facts.keyPrefix = .ok matched)
    (hentry : policy.entry? matched.checkpointId = some entry)
    (hfit : ∀ codes anchor after,
      (planPayload facts matched codes anchor after (policySha256 policy)).intsFit = true) :
    ∃ decision, evaluateRetention policy facts = .ok decision ∧
      decision.refusalCodes = (refusalCodes policy facts matched entry).eraseDups ∧
      decision.eligible = decision.refusalCodes.isEmpty := by
  let anchor := retentionAnchor entry facts.lease facts.terminal facts.inventory
  let after := anchor.bind fun a => a.add entry.retentionSeconds
  let codes := (refusalCodes policy facts matched entry).eraseDups
  obtain ⟨planJson, hplan⟩ : ∃ planJson, dumps (planPayload facts matched codes anchor after (policySha256 policy)) =
      some planJson := ⟨_, dumps_eq_some.mpr ⟨hfit codes anchor after, rfl⟩⟩
  have hpath : matched.keyPrefix.length ≤ 121 := by
    have hvalue := matchValue_keyPrefix hmatched
    rw [hvalue] at hmatched
    exact (matchPrefix_owned hpolicy hmatched).length_le
  have hid : (lit matched.checkpointId).length ≤ 40 := by
    have hall : ∀ e ∈ expectedEntries, (lit e.checkpointId).length ≤ 40 := by decide
    have hmem := (hpolicy.entry entry (List.mem_of_find?_eq_some hentry)).expected
    have hsame : entry.checkpointId = matched.checkpointId := by simpa using List.find?_some hentry
    exact hsame ▸ hall _ hmem
  have hsha : (policySha256 policy).length = 64 := isSha256_length (sha256_isSha256 _)
  have hbound : planJson.length ≤ policy.bounds.maxSummaryBytes := by
    rw [hpolicy.bounds]
    exact (dumps_length_le hplan).trans (planPayload_width (nodup_eraseDups _)
      (fun c hc => refusalCodes_refusals (List.mem_eraseDups.mp hc)) hpath hid hsha)
  refine ⟨⟨codes.isEmpty, codes, anchor, after, policySha256 policy, planJson, sha256 (asciiBytes planJson)⟩, ?_,
    rfl, rfl⟩
  simp only [evaluateRetention, bind_eq_ok, pure_eq_ok, orElse_eq_ok]
  exact ⟨matched, hmatched, entry, hentry, planJson, hplan, (), require_eq_ok.mpr (decide_eq_true hbound), rfl⟩

end

/-- **Eligibility is monotone in time.**  The same facts, evaluated later, are decided, stay eligible
and are refused for no new reason, except that an active lease may have expired. -/
theorem evaluateRetention_later (load : Str → Except PolicyFailure Yaml) (text : Str) (policy : CheckpointPolicy)
    (hpolicy : parsePolicy load text = .ok policy) (facts : EvaluationInput) (e e' : Instant) (later : PyVal)
    (he : facts.evaluatedAt.exactUtc? = some e) (hlater : later.exactUtc? = some e') (hle : e ≤ e')
    (decision : RetentionDecision) (h : evaluateRetention policy facts = .ok decision) :
    ∃ decision', evaluateRetention policy { facts with evaluatedAt := later } = .ok decision' ∧
      (decision.eligible = true → decision'.eligible = true) ∧
      ∀ code ∈ decision'.refusalCodes, code ∈ decision.refusalCodes ∨
        (code = leaseExpired ∧ leaseActive ∈ decision.refusalCodes ∧ leaseActive ∉ decision'.refusalCodes) := by
  simp only [evaluateRetention, bind_eq_ok, pure_eq_ok, orElse_eq_ok] at h
  obtain ⟨matched, hmatched, entry, hentry, planJson, hplan, _, -, rfl⟩ := h
  obtain ⟨decision', hdecision', hcodes', heligible'⟩ := evaluateRetention_decides
    { facts with evaluatedAt := later } (parsePolicy_wellFormed hpolicy) hmatched hentry
    fun codes anchor after => planPayload_intsFit.trans (dumps_eq_some.mp hplan).1
  have hrelaxed : ∀ code ∈ decision'.refusalCodes, code ∈ (refusalCodes policy facts matched entry).eraseDups ∨
      (code = leaseExpired ∧ leaseActive ∈ (refusalCodes policy facts matched entry).eraseDups ∧
        leaseActive ∉ decision'.refusalCodes) := by
    intro code hcode
    rw [hcodes'] at hcode ⊢
    have hlate := List.mem_eraseDups.mp hcode
    rcases refusalCodes_later he hlater hle code hlate with hold | ⟨rfl, hactive⟩
    · exact .inl (List.mem_eraseDups.mpr hold)
    · refine .inr ⟨rfl, List.mem_eraseDups.mpr hactive, fun hc => ?_⟩
      exact not_active_of_expired hlate (List.mem_eraseDups.mp hc)
  refine ⟨decision', hdecision', fun heligible => ?_, hrelaxed⟩
  -- nothing was refused before, and an active lease would have been
  rw [heligible', List.isEmpty_iff, List.eq_nil_iff_forall_not_mem]
  intro code hcode
  have hnone := List.isEmpty_iff.mp heligible
  rcases hrelaxed code hcode with hold | ⟨-, hactive, -⟩
  · rw [hnone] at hold
    cases hold
  · rw [hnone] at hactive
    cases hactive

/-- The acceptance run, evaluated a day after it became eligible. -/
theorem evaluateRetention_later_stoppedRun : ∃ decision, evaluateRetention registry
    { stoppedRun with evaluatedAt := .datetime ⟨⟨63900259200, by decide⟩, 0, some 0⟩ } = .ok decision ∧
    decision.eligible = true := by
  obtain ⟨decision, hdecision, heligible⟩ := stoppedRun_eligible
  obtain ⟨decision', hdecision', hstays, -⟩ := evaluateRetention_later loadJson registryText registry
    registryText_parses stoppedRun ⟨63900172800, by decide⟩ ⟨63900259200, by decide⟩
    (.datetime ⟨⟨63900259200, by decide⟩, 0, some 0⟩) (by decide) (by decide) (by decide) decision hdecision
  exact ⟨decision', hdecision', hstays heligible⟩

end Checkpoints
