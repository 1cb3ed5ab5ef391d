/-
Leases that can be read back.

A lease carries three clocks, and a reader accepts it only when they are in order.  An
acquisition writes all three.  A heartbeat and a terminal transition write two and keep the
time of acquisition, which they do not compare with their own reading: after a clock that
stepped back behind it, what they write is rejected by every later reader.

So leases stay readable in the runs in which no such reading lies before the acquisition of
the lease it is for, and there is a run of two requests that shows what happens otherwise.
-/
import DataEngLab.Checkpoints.LeaseRuns
import DataEngLab.Checkpoints.Planner
import DataEngLab.Checkpoints.Scene

namespace Checkpoints

open Lib

/-- What is stored, if anything, is a lease to the lease manager and to the planner. -/
def Readable (policy : CheckpointPolicy) (o : Option Stored) : Prop :=
  ∀ v, o = some v → (∃ l, decodeLease policy v.body = .ok l) ∧
    ∃ facts, decodeLeaseFacts v.body v.etag = .ok facts

def LeasesReadable (policy : CheckpointPolicy) (w : World) : Prop :=
  ∀ c, Readable policy (w.store.get (.lease c))

/-- The checkpoint and the epoch of a request that moves a lease. -/
def Request.moving : Request → Option (Str × Str)
  | .heartbeat r => some (r.checkpointId, r.epoch)
  | .terminal r => some (r.checkpointId, r.epoch)
  | _ => none

theorem Request.Moves.moving {q : Request} {c epoch state : Str}
    {evidence : Option (List (Str × Json))} (h : q.Moves c epoch state evidence) :
    q.moving = some (c, epoch) := by
  cases h with
  | heartbeat r => rfl
  | terminal r h => rfl

/-- A reading for a lease is not before its acquisition. -/
def Lease.allows (l : Lease) (now : Instant) : Bool :=
  match parseUtc l.acquiredAt with
  | some acquired => acquired ≤ now
  | none => true

/-- A heartbeat or terminal request of the active epoch that reads the clock reads no time before
the acquisition of the lease that is stored. -/
def clockFits (q : Request) (w : World) : (e : Call) → Answer e → Bool
  | .now, .ok (some reading) =>
      match q.moving, reading.instant? with
      | some (c, epoch), some now =>
          match (w.store.get (.lease c)).bind fun v => rawLease v.body with
          | some l => !(l.isActive && l.epoch == epoch) || l.allows now
          | none => true
      | _, _ => true
  | _, _ => true

/-- The condition on a run. -/
abbrev ClocksFit : Nat → Served → State → (e : Call) → Answer e → Prop :=
  fun _ q s e r => clockFits q.request s.world e r = true

section
variable {policy : CheckpointPolicy}

theorem plusSeconds_eq_ok {now t : Instant} {n : Nat} (h : plusSeconds now n = .ok t) :
    t.second = now.second + n := by
  simp only [plusSeconds, orElse_eq_ok, Instant.add_eq_some] at h
  exact h

/-- When the clocks of a moved lease are in order. -/
theorem moved_clocksValid {l : Lease} {acquired now expires : Instant} {state : Str}
    {evidence : Option (List (Str × Json))} (hl : parseUtc l.acquiredAt = some acquired)
    (hexpires : plusSeconds now policy.lease.ttlSeconds = .ok expires) :
    (l.moved now expires state evidence).clocksValid policy = decide (acquired ≤ now) := by
  have hsecond := plusSeconds_eq_ok hexpires
  have hle : now ≤ expires := by rw [Instant.le_iff]; omega
  have hdiff : expires.second - now.second = policy.lease.ttlSeconds := by omega
  have hacquired : (l.moved now expires state evidence).acquiredAt = l.acquiredAt := rfl
  have hheartbeat : (l.moved now expires state evidence).heartbeatAt = formatUtc now := rfl
  have hexpiry : (l.moved now expires state evidence).expiresAt = formatUtc expires := rfl
  rw [Lease.clocksValid, hacquired, hheartbeat, hexpiry, hl, parseUtc_formatUtc, parseUtc_formatUtc]
  simp only [hle, decide_true, Bool.and_true, hdiff, beq_self_eq_true]

theorem newLease_clocksValid {now expires : Instant} {matched : MatchedCheckpoint}
    {request : AcquireRequest} {epoch : Str}
    (hexpires : plusSeconds now policy.lease.ttlSeconds = .ok expires) :
    (newLease now expires matched request epoch).clocksValid policy = true := by
  have hsecond := plusSeconds_eq_ok hexpires
  have hle : now ≤ expires := by rw [Instant.le_iff]; omega
  have hself : now ≤ now := by rw [Instant.le_iff]
  have hdiff : expires.second - now.second = policy.lease.ttlSeconds := by omega
  have hacquired : (newLease now expires matched request epoch).acquiredAt = formatUtc now := rfl
  have hheartbeat : (newLease now expires matched request epoch).heartbeatAt = formatUtc now := rfl
  have hexpiry : (newLease now expires matched request epoch).expiresAt = formatUtc expires := rfl
  rw [Lease.clocksValid, hacquired, hheartbeat, hexpiry, parseUtc_formatUtc, parseUtc_formatUtc]
  simp only [hself, hle, decide_true, Bool.and_self, hdiff, beq_self_eq_true]

theorem clocksValid_acquired {l : Lease} (h : l.clocksValid policy = true) :
    ∃ acquired, parseUtc l.acquiredAt = some acquired := by
  unfold Lease.clocksValid at h
  split at h
  · rename_i acquired _ _ ha _ _
    exact ⟨acquired, ha⟩
  · cases h

/-- What the lease manager accepts, the planner accepts. -/
theorem decodeLeaseFacts_of_decode (hbound : policy.bounds.maxSummaryBytes ≤ maxJsonBytes) {body : Bytes}
    {l : Lease} (h : decodeLease policy body = .ok l) (etag : Str) :
    ∃ facts, decodeLeaseFacts body etag = .ok facts := by
  obtain ⟨kvs, hkvs, rfl, hversion, -, -, hclocks⟩ := decodeLease_eq_ok.mp h
  have hfields : decodeExactJson body leaseSchema maxJsonBytes = .ok kvs := by
    simp only [decodeExactJson, bind_eq_ok, require_eq_ok, decide_eq_true_eq] at hkvs ⊢
    obtain ⟨u, hlen, hrest⟩ := hkvs
    exact ⟨u, by omega, hrest⟩
  unfold Lease.clocksValid at hclocks
  split at hclocks
  · rename_i acquired heartbeat expires ha hh he
    simp only [decodeLeaseFacts, hfields, hversion, ha, hh, he]
    exact ⟨_, rfl⟩
  · cases hclocks

/-- A write is readable when the reading it was made with fits. -/
theorem LeaseWrite.decodes {step : Answers World Call Answer} {t : Nat} {q : Request} {c : Str}
    {o : Option Stored} {body : Bytes} (h : LeaseWrite policy step t q c o body)
    (hfits : ∀ {s a w}, step t s .now a w → clockFits q s.world .now a = true) :
    ∃ l, decodeLease policy body = .ok l := by
  cases h with
  | acquire hrequest _ hepoch hexpires hbody =>
      refine ⟨_, (decodeLease_written (newLease_decoded hrequest hepoch _ _) hbody).mpr
        ⟨rfl, ?_, hepoch, newLease_clocksValid hexpires⟩⟩
      show lit "active" ∈ leaseStates
      decide
  | @move q c epoch state evidence o l now expires body hq hold hclock hepoch hactive hexpires hbody =>
      obtain ⟨hstate, hevidence, hstates⟩ := hq.joined
      obtain ⟨s, a, w, hstep, hstored, hreading⟩ := hclock
      obtain ⟨v, rfl, hv⟩ := hold
      obtain ⟨kvs, -, hkvs, -, -, huuid, hvalid⟩ := decodeLease_eq_ok.mp hv
      obtain ⟨acquired, ha⟩ := clocksValid_acquired hvalid
      have hle : acquired ≤ now := by
        have hfit := hfits hstep
        cases a with
        | ok reading =>
            cases reading with
            | none => cases hreading
            | some reading =>
                simp only [exactReading, orElse_eq_ok] at hreading
                simpa only [clockFits, hq.moving, hreading, hstored, Option.bind_some,
                  rawLease_of_decode hv, hactive, hepoch, beq_self_eq_true, Bool.and_self, Bool.not_true,
                  Bool.false_or, Lease.allows, ha, decide_eq_true_eq] using hfit
        | raised => cases hreading
        | interrupt => cases hreading
      have hdecoded : l.Decoded := rawLease_decoded (rawLease_of_decode hv)
      refine ⟨_, (decodeLease_written (hdecoded.moved now expires hstate hevidence) hbody).mpr
        ⟨rfl, hstates, huuid, ?_⟩⟩
      rw [moved_clocksValid ha hexpires]
      simpa using hle

end

/-- **Leases stay readable**, by the lease manager and by the planner, in every run in which the
clock is never read before the acquisition of the lease it is read for. -/
theorem leases_readable (rt : Runtime) {p : Pool Served World Call Answer (Except Exn Response)}
    (h : Reachable ((machine rt).when ClocksFit)
      (fun w => started w ∧ LeasesReadable rt.policy w) p) :
    LeasesReadable rt.policy p.sys.world := by
  induction h with
  | init hw => exact hw.2
  | @step p p' h hs ih =>
      intro c
      rcases step_lease (serves_when rt ClocksFit) h hs c with
        hsame | ⟨t, q, body, condition, r, etag, ha, hw, hnew⟩
      · rw [hsame]
        exact ih c
      · obtain ⟨l, hl⟩ := hw.decodes fun hstep => hstep.2
        rw [hnew]
        intro v hv
        cases hv
        refine ⟨⟨l, hl⟩, decodeLeaseFacts_of_decode ?_ hl etag⟩
        rw [rt.wellFormed.bounds]
        decide

/-! ### A clock that steps back -/

abbrev LeaseStage := Stage Served World Call Answer (Except Exn Response) Scene

/-- An acquisition and a heartbeat, with the clock at these times. -/
def heartbeatRun {m : Machine Served World Call Answer (Except Exn Response)} (cast : Cast m Scene)
    (acquired heartbeat : Nat) : Option LeaseStage :=
  cast.play [.start 0 (served (.acquire sampleAcquire)), .upTo 0 fun _ => false,
    .start 1 (served (.heartbeat sampleHeartbeat)), .upTo 1 fun _ => false]
    (cast.opening (Scene.empty [second acquired, second heartbeat] [sampleEpoch]))

/-- Whether a sample lease is stored that is accepted (`true`) or rejected (`false`). -/
def sampleLease (accepted : Bool) (x : LeaseStage) : Bool :=
  (x.pool.sys.world.store.get (.lease sampleCheckpoint)).any fun v =>
    match decodeLease registry v.body with
    | .ok _ => accepted
    | .error _ => !accepted

theorem emptyReadable (policy : CheckpointPolicy) (clock : List Instant) (identifiers : List Str) :
    started (Scene.empty clock identifiers).world ∧
      LeasesReadable policy (Scene.empty clock identifiers).world :=
  ⟨fun _ => rfl, fun _ _ h => nomatch h⟩

theorem leases_readable_heartbeat : ∃ p v l,
    Reachable ((machine registryRuntime).when ClocksFit)
      (fun w => started w ∧ LeasesReadable registryRuntime.policy w) p ∧
    p.sys.world.store.get (.lease sampleCheckpoint) = some v ∧
    decodeLease registryRuntime.policy v.body = .ok l := by
  have hrun : ((heartbeatRun ((cast registryRuntime).when ClocksFit) 0 60).any (sampleLease true)) =
      true := by decide +kernel
  obtain ⟨x, hx, hlease⟩ := (Option.any_eq_true _ _).mp hrun
  have hreach : Reachable ((machine registryRuntime).when ClocksFit)
      (fun w => started w ∧ LeasesReadable registryRuntime.policy w) x.pool :=
    Cast.play_reachable (emptyReadable registry [second 0, second 60] [sampleEpoch]) hx
  obtain ⟨v, hv, -⟩ := (Option.any_eq_true _ _).mp hlease
  obtain ⟨⟨l, hl⟩, -⟩ := leases_readable registryRuntime hreach sampleCheckpoint v hv
  exact ⟨x.pool, v, l, hreach, hv, hl⟩

/-- A heartbeat read one second before the acquisition leaves a lease that no reader accepts. -/
theorem leases_unreadable_steppedBack : ¬ ∀ (rt : Runtime)
    (p : Pool Served World Call Answer (Except Exn Response)),
    Reachable (machine rt) (fun w => started w ∧ LeasesReadable rt.policy w) p →
    LeasesReadable rt.policy p.sys.world := by
  intro h
  have hrun : ((heartbeatRun (cast registryRuntime) 1 0).any (sampleLease false)) = true := by
    decide +kernel
  obtain ⟨x, hx, hlease⟩ := (Option.any_eq_true _ _).mp hrun
  obtain ⟨v, hv, hrejected⟩ := (Option.any_eq_true _ _).mp hlease
  obtain ⟨⟨l, hl⟩, -⟩ := h registryRuntime x.pool
    (Cast.play_reachable (emptyReadable registry [second 1, second 0] [sampleEpoch]) hx) sampleCheckpoint v hv
  have hl' : decodeLease registry v.body = .ok l := hl
  rw [hl'] at hrejected
  cases hrejected

end Checkpoints
