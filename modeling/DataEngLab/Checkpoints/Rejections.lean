/-
Terminal requests that are refused.

A terminal request is checked in three places: before the lock is taken, against the lease
that is stored, and once more when the evidence is written, which comes after the lease has
been replaced.  What only the last place checks are the five flags of the evidence.  So a
request with a flag that is not a Boolean is refused with nothing changed when it would not
have ended the lease anyway, and after the lease has been ended when it would.
-/
import DataEngLab.Checkpoints.FaultFree

namespace Checkpoints

open Lib

/-- The failures that `terminal` raises because of the request itself. -/
def requestCodes : List String :=
  ["terminal_state_invalid", "generation_identity_mismatch", "terminal_evidence_invalid",
    "lease_identity_mismatch", "lease_not_active"]

/-- However its calls are answered, a call that is refused because of the request leaves the lease
and the terminal record as they are. -/
def RefusedUnchanged (policy : CheckpointPolicy) (request : TerminalRequest) (s : Store) : Prop :=
  ∀ (d : Deadline) (now : Instant) (code : String) (w : World), code ∈ requestCodes →
    Runs (sequential now) (terminal policy d request) (idle s) (.error (.lease code)) w →
      w.store.get (.lease request.checkpointId) = s.get (.lease request.checkpointId) ∧
        w.store.get (.terminal request.checkpointId) = s.get (.terminal request.checkpointId)

/-- Each of the five flags is absent or a Boolean. -/
def flagsBoolean (evidence : List (Str × Json)) : Bool :=
  terminalFlags.all fun f => Json.isBool (flagOf f evidence)

/-- There is a time, not before its acquisition, at which the request ends the lease that is stored. -/
structure Endable (policy : CheckpointPolicy) (request : TerminalRequest) (s : Store) : Prop where
  valid : validateTerminal policy request = .ok ()
  ending : ∃ v l now body acquired, s.get (.lease request.checkpointId) = some v ∧
    Ending policy request v l now body ∧ parseUtc l.acquiredAt = some acquired ∧ acquired ≤ now

section
variable {policy : CheckpointPolicy} {request : TerminalRequest} {s : Store} {v : Stored} {l : Lease}
  {now : Instant} {body : Bytes}

/-- What an ending writes is read back as the lease it made, if its clocks are in order. -/
theorem Ending.decodes_written (h : Ending policy request v l now body)
    (hstate : request.state ∈ [lit "stopped", lit "completed", lit "retired"]) {lease : Lease} :
    decodeLease policy body = .ok lease ↔ ∃ expires acquired,
      lease = (l.moved now expires request.state (some request.evidence)).sorted ∧
      plusSeconds now policy.lease.ttlSeconds = .ok expires ∧ parseUtc l.acquiredAt = some acquired ∧
      acquired ≤ now := by
  obtain ⟨expires, hexpires, hbody⟩ := h.written
  obtain ⟨kvs, -, hkvs, -, -, huuid, hvalid⟩ := decodeLease_eq_ok.mp h.decodes
  obtain ⟨acquired, ha⟩ := clocksValid_acquired hvalid
  obtain ⟨hjoined, hevidence, hstates⟩ := (Request.Moves.terminal request hstate).joined
  have hdecoded := (rawLease_decoded (rawLease_of_decode h.decodes)).moved now expires hjoined hevidence
  have hclocks : (l.moved now expires request.state (some request.evidence)).clocksValid policy = decide (acquired ≤ now) :=
    moved_clocksValid ha hexpires
  rw [decodeLease_written hdecoded hbody, hclocks, decide_eq_true_eq]
  constructor
  · rintro ⟨rfl, -, -, hle⟩
    exact ⟨expires, acquired, rfl, hexpires, ha, hle⟩
  · rintro ⟨expires', acquired', rfl, hexpires', ha', hle⟩
    obtain rfl : expires = expires' := Except.ok.inj (hexpires.symm.trans hexpires')
    obtain rfl : acquired = acquired' := Option.some.inj (ha.symm.trans ha')
    exact ⟨rfl, hstates, huuid, hle⟩

/-- The lease is not active any more. -/
theorem Ending.decodes_ended (h : Ending policy request v l now body)
    (hstate : request.state ∈ [lit "stopped", lit "completed", lit "retired"]) {lease : Lease}
    (hlease : decodeLease policy body = .ok lease) : lease.isActive = false := by
  obtain ⟨expires, acquired, rfl, -⟩ := (h.decodes_written hstate).mp hlease
  show (request.state == lit "active") = false
  simp only [List.mem_cons, List.not_mem_nil, or_false] at hstate
  rcases hstate with hs | hs | hs
  · rw [hs]; decide
  · rw [hs]; decide
  · rw [hs]; decide

/-- The two ways in which the terminal record is not made with a lease failure. -/
theorem terminalBody_error {leaseBody : Bytes} {code : String}
    (h : terminalBody policy request leaseBody = .error (.lease code)) :
    code = "lease_malformed" ∨ code = "terminal_evidence_invalid" ∧ flagsBoolean request.evidence = false ∧
      ∃ lease, decodeLease policy leaseBody = .ok lease := by
  simp only [terminalBody, bind_eq_error, require_eq_error] at h
  rcases h with h | ⟨lease, hlease, h | ⟨_, -, h⟩⟩
  · unfold decodeLease at h
    split at h
    · cases h; exact .inl rfl
    · dsimp only at h
      split at h
      · cases h
      · cases h; exact .inl rfl
  · obtain ⟨hflags, he⟩ := h
    cases he
    exact .inr ⟨rfl, hflags, lease, hlease⟩
  · obtain ⟨code', he⟩ := canonicalJsonBytes_error h
    cases he

/-- **A refused request that changed the store** had a flag that is not a Boolean, and ended the
lease. -/
theorem terminal_refused {d : Deadline} {code : String} {w : World} (hcode : code ∈ requestCodes)
    (h : Runs (sequential now) (terminal policy d request) (idle s) (.error (.lease code)) w) :
    w.store = s ∨ flagsBoolean request.evidence = false ∧ Endable policy request s := by
  rcases runs_lift_bind.mp h with ⟨e, -, -, rfl⟩ | ⟨_, hvalid, hlocked⟩
  · exact .inl rfl
  rcases withLock_runs (fun _ _ _ _ ha => ha.1) hlocked with ⟨-, rfl⟩ | ⟨m, hrun, hstore⟩
  · exact .inl rfl
  rw [hstore]
  -- the world in which the lock is held has the same records
  have hheld : ((idle s).setLock request.checkpointId (some (0, 1))).store = s := rfl
  have hlost : "lease_ownership_lost" ∉ requestCodes := by decide
  rcases runs_bind.mp hrun with ⟨e, hend, he⟩ | ⟨x, m', hend, hrest⟩
  · cases he
    rcases endLease_runs hend with ⟨rfl, -⟩ | ⟨_, _, _, _, -, -, -, -, -, hcodes⟩
    · exact .inl hheld
    · exact (hlost (hcodes code rfl ▸ hcode)).elim
  rcases runs_bind.mp hrest with ⟨e, hpersist, he⟩ | ⟨_, m'', -, hreturn⟩
  swap
  · cases (runs_pure.mp hreturn).1
  cases he
  rcases persistTerminal_runs hpersist with ⟨rfl, e, hbody, he⟩ | ⟨_, -, hr | ⟨e, hr⟩, -⟩
  · rcases endLease_runs hend with ⟨rfl, -⟩ | ⟨v, l, body, etag, hstored, hending, -, -, hresult, -⟩
    · exact .inl hheld
    · right
      cases he
      obtain rfl := hresult x rfl
      rcases terminalBody_error hbody with rfl | ⟨-, hflags, hlease⟩
      · exact absurd hcode (by decide)
      · obtain ⟨lease, hlease⟩ := hlease
        obtain ⟨_, acquired, -, -, ha, hle⟩ := (hending.decodes_written (validateTerminal_ended hvalid)).mp hlease
        exact ⟨hflags, hvalid, v, l, now, body, acquired, hstored, hending, ha, hle⟩
  · cases hr
  · have hfailed : "terminal_record_failed" ∉ requestCodes := by decide
    exact (hfailed (terminalError_eq_lease (Except.error.inj hr).symm ▸ hcode)).elim

theorem isIdentity_of_leaseName {c : Str} (h : isLeaseName c = true) : isIdentity c = true := by
  unfold isLeaseName at h
  unfold isIdentity
  split at h
  · cases h
  · rename_i a rest
    have halnum : ∀ b : Nat, isDigit b = true ∨ 97 ≤ b ∧ b ≤ 122 → isAlnum b = true := by
      intro b hb
      simp only [isAlnum, Bool.or_eq_true, Bool.and_eq_true, decide_eq_true_eq]
      exact hb.elim (fun h => .inl (.inl h)) .inr
    simp only [Bool.and_eq_true, List.all_eq_true, Bool.or_eq_true, beq_iff_eq, decide_eq_true_eq] at h ⊢
    refine ⟨⟨halnum a h.1.1, h.1.2⟩, fun b hb => ?_⟩
    rcases h.2 b hb with (hb | hb) | hb
    · exact .inl (.inl (.inl (.inl (halnum b hb))))
    · exact .inl (.inl (.inr hb))
    · exact .inr hb

/-- **A request that is refused too late.**  Where nothing fails, a request that ends the lease and has
a flag that is not a Boolean is refused with the lease replaced. -/
theorem terminal_refused_late (hflags : flagsBoolean request.evidence = false) (h : Endable policy request s) :
    ∃ now w v v', Runs (sequential now) (terminal policy .none request) (idle s)
      (.error (.lease "terminal_evidence_invalid")) w ∧ s.get (.lease request.checkpointId) = some v ∧
      w.store.get (.lease request.checkpointId) = some v' ∧ v' ≠ v := by
  obtain ⟨v, l, now, body, acquired, hstored, hending, ha, hle⟩ := h.ending
  obtain ⟨r, w, hrun⟩ : ∃ r w, Runs (healthy now .none) (terminal policy .none request) (idle s) r w :=
    exists_terminal s h.valid (isIdentity_of_leaseName hending.valid)
  have hended := validateTerminal_ended h.valid
  obtain ⟨expires, hexpires, -⟩ := hending.written
  have hlease := (hending.decodes_written hended).mpr ⟨expires, acquired, rfl, hexpires, ha, hle⟩
  have hbody : terminalBody policy request body = .error (.lease "terminal_evidence_invalid") := by
    simp only [terminalBody, bind_eq_error, require_eq_error]
    exact .inr ⟨_, hlease, .inl ⟨hflags, trivial⟩⟩
  rcases withLock_runs (fun _ _ _ _ ha => ha.1) (hrun.lift_bind_of h.valid) with ⟨hno, -⟩ | ⟨m, hlocked, hstore⟩
  · rw [isIdentity_of_leaseName hending.valid] at hno
    cases hno
  obtain ⟨x, m', ⟨etag, rfl, rfl⟩, hrest⟩ := hlocked.bind_of
    (Q := fun x n => ∃ etag, x = ⟨request.epoch, etag, body⟩ ∧
      n = ((idle s).setLock request.checkpointId (some (0, 1))).put (.lease request.checkpointId) ⟨body, etag⟩)
    fun r' n hend => by
      obtain ⟨etag, hr, -, hn⟩ := endLease_healthy hend hstored hending
      exact ⟨_, hr, etag, rfl, hn⟩
  rcases runs_bind.mp hrest with ⟨e, hpersist, rfl⟩ | ⟨_, m'', hpersist, -⟩
  swap
  · rcases persistTerminal_runs (runs_sequential hpersist) with ⟨-, e, -, he⟩ | ⟨_, hok, -⟩
    · cases he
    · rw [hbody] at hok
      cases hok
  rcases persistTerminal_runs (runs_sequential hpersist) with ⟨rfl, e', he', he⟩ | ⟨_, hok, -⟩
  swap
  · rw [hbody] at hok
    cases hok
  cases he
  rw [hbody] at he'
  cases he'
  refine ⟨now, w, v, ⟨body, etag⟩, runs_sequential hrun, hstored, by rw [hstore]; simp, ?_⟩
  -- the lease that is stored now is not active
  rintro rfl
  have hactive := hending.active
  rw [← Except.ok.inj (hlease.symm.trans hending.decodes), hending.decodes_ended hended hlease] at hactive
  cases hactive

/-- **When a refused terminal request changes nothing.**  Exactly when its flags are Booleans or it
would not have ended the lease. -/
theorem refused_unchanged : RefusedUnchanged policy request s ↔
    flagsBoolean request.evidence = true ∨ ¬ Endable policy request s := by
  constructor
  · intro h
    by_contra hnot
    simp only [not_or, Bool.not_eq_true, not_not] at hnot
    obtain ⟨now, w, v, v', hrun, hstored, hstored', hne⟩ := terminal_refused_late hnot.1 hnot.2
    have hlease := (h .none now _ w (by decide) hrun).1
    rw [hstored, hstored'] at hlease
    exact hne (Option.some.inj hlease)
  · rintro h d now code w hcode hrun
    rcases terminal_refused hcode hrun with hs | ⟨hflags, hendable⟩
    · rw [hs]
      exact ⟨rfl, rfl⟩
    · rcases h with h | h
      · rw [hflags] at h
        cases h
      · exact (h hendable).elim

end

/-! ### A lease of the sample checkpoint -/

/-- The lease of the sample writer, acquired at second 0. -/
def startedLease : Lease :=
  newLease (second 0) (second 600) ⟨"go-live-streaming-test-v1", samplePrefix, []⟩ sampleAcquire sampleEpoch

/-- The sample request, with other evidence. -/
def sampleRequest (evidence : List (Str × Json)) (decoded : (Json.obj evidence).Decoded) : TerminalRequest :=
  { sampleTerminal with evidence := evidence, decoded := decoded }

theorem startedLease_decoded : startedLease.Decoded :=
  ⟨joined_formatUtc _, joined_lit _, joined_lit _, joined_formatUtc _, joined_formatUtc _, joined_lit _,
    joined_isAscii (by decide), joined_lit _, joined_lit _, trivial, joined_lit _⟩

/-- A bucket that holds the lease, and what a request one second later makes of it. -/
theorem startedLease_ending {evidence : List (Str × Json)} (decoded : (Json.obj evidence).Decoded)
    (hwritten : (canonicalSummary registry (startedLease.moved (second 1) (second 601) (lit "stopped")
      (some evidence)).json).isOk = true) :
    ∃ (s : Store) (v : Stored) (body : Bytes), s.get (.lease sampleCheckpoint) = some v ∧
      (∀ key, key ≠ .lease sampleCheckpoint → s.get key = none) ∧
      Ending registry (sampleRequest evidence decoded) v startedLease (second 1) body := by
  have hstart : (canonicalSummary registry startedLease.json).isOk = true := by decide +kernel
  rcases hb : canonicalSummary registry startedLease.json with e | leaseBody
  · rw [hb] at hstart
    cases hstart
  rcases hw : canonicalSummary registry (startedLease.moved (second 1) (second 601) (lit "stopped")
    (some evidence)).json with e | body
  · rw [hw] at hwritten
    cases hwritten
  have hvalid : (ControlKey.lease sampleCheckpoint).valid = true := by decide
  have hetag : isEtag (hexText 32 0) = true := by decide
  refine ⟨Store.empty.put (.lease sampleCheckpoint) ⟨leaseBody, hexText 32 0⟩, ⟨leaseBody, hexText 32 0⟩, body,
    by simp, fun key hkey => by simp [hkey.symm], ?_⟩
  exact
    { valid := hvalid
      etag := hetag
      decodes := (decodeLease_written startedLease_decoded hb).mpr
        ⟨rfl, by decide, by decide, by decide⟩
      active := by decide
      checkpointId := rfl
      keyPrefix := rfl
      epoch := rfl
      written := ⟨second 601, by decide, hw⟩ }

/-- A run that was stopped, with an answer that is not a Boolean. -/
def wordyEvidence : List (Str × Json) :=
  [(lit "exclusive_run", .bool true), (lit "generation", .obj [(lit "run_uuid", .str sampleRun)]),
    (lit "recovery_approved", .str (lit "yes")), (lit "successful", .bool true)]

theorem wordyEvidence_decoded : (Json.obj wordyEvidence).Decoded :=
  ⟨by decide, joined_lit _, trivial, joined_lit _, ⟨by decide, joined_lit _, joined_lit _, trivial⟩,
    joined_lit _, joined_lit _, joined_lit _, trivial, trivial⟩

theorem refused_unchanged_wordy : ¬ ∀ (policy : CheckpointPolicy) (request : TerminalRequest) (s : Store),
    freezesMembers request.evidence = true → RefusedUnchanged policy request s := by
  intro h
  obtain ⟨s, v, body, hstored, -, hending⟩ := startedLease_ending wordyEvidence_decoded (by decide +kernel)
  have hendable : Endable registry (sampleRequest wordyEvidence wordyEvidence_decoded) s :=
    ⟨by decide, v, startedLease, second 1, body, second 0, hstored, hending, by decide, by decide⟩
  obtain ⟨now, w, v₀, v', hrun, hstored₀, hstored', hne⟩ := terminal_refused_late (by decide) hendable
  have hlease := (h registry _ s (by decide) .none now _ w (by decide) hrun).1
  rw [hstored₀, hstored'] at hlease
  exact hne (Option.some.inj hlease)

end Checkpoints
