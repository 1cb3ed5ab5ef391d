/-
Lease records as they are stored.

`rawLease` is the lease a body stands for before any of the reader's checks.  A body that
a transition wrote stands for the lease that was written, its evidence sorted, whether or
not the reader would accept it; so what a checkpoint's lease says can be followed through
the store without asking whether it is still readable.
-/
import DataEngLab.Checkpoints.Leases
import DataEngLab.Checkpoints.Canonical
import DataEngLab.Lib.JsonDecoded

namespace Checkpoints

open Lib

/-- The lease a body stands for, unchecked. -/
def rawLease (body : Bytes) : Option Lease :=
  match loadsUtf8 ⟨true, true⟩ body with
  | .ok (.obj kvs) => some (leaseOf kvs)
  | _ => none

/-- The strings of a lease are joined and its evidence was read by a JSON reader. -/
structure Lease.Decoded (l : Lease) : Prop where
  acquiredAt : Str.Joined l.acquiredAt
  checkpointId : Str.Joined l.checkpointId
  epoch : Str.Joined l.epoch
  expiresAt : Str.Joined l.expiresAt
  heartbeatAt : Str.Joined l.heartbeatAt
  ownerId : Str.Joined l.ownerId
  keyPrefix : Str.Joined l.keyPrefix
  sessionId : Str.Joined l.sessionId
  state : Str.Joined l.state
  evidence : (evidenceJson l.terminalEvidence).Decoded
  workload : Str.Joined l.workload

/-- The lease with its evidence sorted, as it is read back. -/
def Lease.sorted (l : Lease) : Lease :=
  { l with terminalEvidence := l.terminalEvidence.map sortedMembers }

/-! ### Reading -/

section
variable {policy : CheckpointPolicy} {body : Bytes} {l : Lease}

/-- What an accepted lease is. -/
theorem decodeLease_eq_ok : decodeLease policy body = .ok l ↔
    ∃ kvs, decodeExactJson body leaseSchema policy.bounds.maxSummaryBytes = .ok kvs ∧
      leaseOf kvs = l ∧ (Json.get "schema_version" kvs).any (Json.isInt 1) = true ∧
      l.state ∈ leaseStates ∧ uuid.fullmatch l.epoch = true ∧ l.clocksValid policy = true := by
  unfold decodeLease
  rcases h : decodeExactJson body leaseSchema policy.bounds.maxSummaryBytes with e | kvs
  · simp
  · simp only [Except.ok.injEq, exists_eq_left']
    split
    · rename_i hc
      simp only [Bool.and_eq_true, decide_eq_true_eq] at hc
      simp only [Except.ok.injEq]
      constructor
      · rintro rfl; exact ⟨rfl, hc.1.1.1, hc.1.1.2, hc.1.2, hc.2⟩
      · exact fun h => h.1
    · rename_i hc
      simp only [reduceCtorEq, false_iff]
      rintro ⟨rfl, h1, h2, h3, h4⟩
      exact hc (by simp only [h1, h2, h3, h4, decide_true, Bool.and_self])

/-- What the exact reader accepts is an object that `loads` reads. -/
theorem decodeExactJson_loads {schema : Schema} {maxBytes : Nat} {kvs : List (Str × Json)}
    (h : decodeExactJson body schema maxBytes = .ok kvs) :
    loadsUtf8 ⟨true, true⟩ body = .ok (.obj kvs) := by
  simp only [decodeExactJson, bind_eq_ok] at h
  obtain ⟨_, _, v, hv, _, _, hfields⟩ := h
  have hobj : v = .obj kvs := by
    unfold exactFields at hfields
    split at hfields
    · simp only [bind_eq_ok, pure_eq_ok] at hfields
      obtain ⟨_, _, _, _, rfl⟩ := hfields
      rfl
    · cases hfields
  subst hobj
  unfold exactValue at hv
  split at hv
  · simp only [Except.ok.injEq] at hv
    subst hv
    assumption
  all_goals cases hv

theorem rawLease_of_decode (h : decodeLease policy body = .ok l) : rawLease body = some l := by
  obtain ⟨kvs, hkvs, rfl, -⟩ := decodeLease_eq_ok.mp h
  simp only [rawLease, decodeExactJson_loads hkvs]

theorem decoded_get {kvs : List (Str × Json)} (h : (Json.obj kvs).Decoded) {k : String} {v : Json}
    (hv : Json.get k kvs = some v) : v.Decoded := by
  simp only [Json.Decoded, decodedMembers_iff] at h
  exact (h.2 _ (get_mem hv)).2

theorem joined_textOf {kvs : List (Str × Json)} (h : (Json.obj kvs).Decoded) (k : String) :
    Str.Joined (textOf k kvs) := by
  unfold textOf
  rcases hv : Json.get k kvs with _ | v
  · trivial
  · have hd := decoded_get h hv
    cases v with
    | str s => exact hd
    | _ => trivial

theorem leaseOf_decoded {kvs : List (Str × Json)} (h : (Json.obj kvs).Decoded) :
    (leaseOf kvs).Decoded := by
  refine ⟨joined_textOf h _, joined_textOf h _, joined_textOf h _, joined_textOf h _,
    joined_textOf h _, joined_textOf h _, joined_textOf h _, joined_textOf h _, joined_textOf h _,
    ?_, joined_textOf h _⟩
  show (evidenceJson (leaseOf kvs).terminalEvidence).Decoded
  simp only [leaseOf]
  split
  · rename_i evidence hv
    exact decoded_get h hv
  · trivial

theorem rawLease_decoded (h : rawLease body = some l) : l.Decoded := by
  unfold rawLease at h
  split at h
  · rename_i kvs hkvs
    simp only [Option.some.injEq] at h
    subst h
    exact leaseOf_decoded (loadsUtf8_decoded hkvs)
  · cases h

/-! ### Writing -/

theorem Lease.fields_nodup (l : Lease) : (l.fields.map Prod.fst).Nodup := by
  simp only [Lease.fields, List.map_cons, List.map_nil]
  decide

theorem Lease.json_decoded (h : l.Decoded) : l.json.Decoded := by
  rw [Lease.json, object_eq]
  simp only [Json.Decoded, decodedMembers_iff]
  refine ⟨members_keys_nodup l.fields_nodup, ?_⟩
  intro kv hkv
  obtain ⟨f, hf, rfl⟩ := List.mem_map.mp hkv
  refine ⟨joined_lit f.1, ?_⟩
  simp only [Lease.fields, List.mem_cons, List.not_mem_nil, or_false] at hf
  rcases hf with rfl | rfl | rfl | rfl | rfl | rfl | rfl | rfl | rfl | rfl | rfl | rfl
  · exact h.acquiredAt
  · exact h.checkpointId
  · exact h.epoch
  · exact h.expiresAt
  · exact h.heartbeatAt
  · exact h.ownerId
  · exact h.keyPrefix
  · trivial
  · exact h.sessionId
  · exact h.state
  · exact h.evidence
  · exact h.workload

theorem canonicalSummary_plain {v : Json} (hd : v.Decoded) (h : canonicalSummary policy v = .ok body) :
    v.Plain :=
  hd.plain (canonicalJsonBytes_eq_ok.mp h).2.2.1

theorem leaseOf_written (l : Lease) : leaseOf (sortedMembers (members l.fields)) = l.sorted := by
  have hget := get_sorted_members l.fields_nodup
  have htext : ∀ (k : String) (s : Str), l.fields.lookup k = some (.str s) →
      textOf k (sortedMembers (members l.fields)) = s := by
    intro k s hk
    simp only [textOf, hget, hk, Option.map_some, Json.sortKeys, Option.bind_some, Json.str?,
      Option.getD_some]
  have hevidence : Json.get "terminal_evidence" (sortedMembers (members l.fields)) =
      some (evidenceJson l.terminalEvidence).sortKeys := by
    rw [hget]; rfl
  unfold leaseOf Lease.sorted
  rw [htext "acquired_at" l.acquiredAt rfl, htext "checkpoint_id" l.checkpointId rfl,
    htext "epoch" l.epoch rfl, htext "expires_at" l.expiresAt rfl,
    htext "heartbeat_at" l.heartbeatAt rfl, htext "owner_id" l.ownerId rfl,
    htext "prefix" l.keyPrefix rfl, htext "session_id" l.sessionId rfl, htext "state" l.state rfl,
    htext "workload" l.workload rfl, hevidence]
  rcases l.terminalEvidence with _ | evidence
  · rfl
  · simp only [evidenceJson, sortKeys_obj, Option.map_some]

theorem rawLease_written (hl : l.Decoded) (h : canonicalSummary policy l.json = .ok body) :
    rawLease body = some l.sorted := by
  have hp := canonicalSummary_plain (Lease.json_decoded hl) h
  have hload := (loads_canonical hp h ⟨true, true⟩).2
  rw [Lease.json, object_eq, sortKeys_obj] at hload
  simp only [rawLease, hload, leaseOf_written]

theorem exactFields_written (l : Lease) :
    exactFields leaseSchema (.obj (sortedMembers (members l.fields))) =
      .ok (sortedMembers (members l.fields)) := by
  have hexact : Json.hasExactly (leaseSchema.map Prod.fst) (sortedMembers (members l.fields)) = true :=
    hasExactly_sorted_members l.fields_nodup
  have htypes : (leaseSchema.all fun f => (Json.get f.1 (sortedMembers (members l.fields))).any fun v =>
      f.2.any fun t => t.admits v) = true := by
    simp only [get_sorted_members l.fields_nodup, List.all_eq_true]
    intro f hf
    simp only [leaseSchema, List.mem_cons, List.not_mem_nil, or_false] at hf
    have hev : l.fields.lookup "terminal_evidence" = some (evidenceJson l.terminalEvidence) := rfl
    rcases hf with rfl | rfl | rfl | rfl | rfl | rfl | rfl | rfl | rfl | rfl | rfl | rfl
    case _ => rfl
    case _ => rfl
    case _ => rfl
    case _ => rfl
    case _ => rfl
    case _ => rfl
    case _ => rfl
    case _ => rfl
    case _ => rfl
    case _ => rfl
    case _ =>
      rw [hev]
      rcases l.terminalEvidence with _ | evidence
      · rfl
      · simp only [evidenceJson, Option.map_some, sortKeys_obj]
        rfl
    case _ => rfl
  simp only [exactFields, hexact, htypes, require]
  rfl

/-- **When a written lease is accepted.**  The reader accepts the lease that was written exactly
when its state, its epoch and its clocks are in order. -/
theorem decodeLease_written (hl : l.Decoded) (h : canonicalSummary policy l.json = .ok body)
    {l' : Lease} : decodeLease policy body = .ok l' ↔ l' = l.sorted ∧ l.state ∈ leaseStates ∧
      uuid.fullmatch l.epoch = true ∧ l.clocksValid policy = true := by
  have hp := canonicalSummary_plain (Lease.json_decoded hl) h
  have hlen : body.length ≤ policy.bounds.maxSummaryBytes := canonicalJsonBytes_length h
  have hdecode : decodeExactJson body leaseSchema policy.bounds.maxSummaryBytes =
      exactFields leaseSchema (.obj (sortedMembers (members l.fields))) :=
    decodeExactJson_canonical hp h le_rfl hlen leaseSchema
  rw [exactFields_written] at hdecode
  have hversion : (Json.get "schema_version" (sortedMembers (members l.fields))).any (Json.isInt 1) =
      true := by
    rw [get_sorted_members l.fields_nodup]; rfl
  rw [decodeLease_eq_ok]
  constructor
  · rintro ⟨kvs, hkvs, rfl, -, hrest⟩
    have hk : sortedMembers (members l.fields) = kvs := by
      rw [hdecode] at hkvs
      exact Except.ok.inj hkvs
    subst hk
    rw [leaseOf_written] at hrest ⊢
    exact ⟨rfl, hrest⟩
  · rintro ⟨rfl, hrest⟩
    exact ⟨_, hdecode, leaseOf_written l, hversion, hrest⟩

end

/-! ### Transitions -/

theorem joined_formatUtc (t : Instant) : Str.Joined (formatUtc t) :=
  Str.joined_of_ascii fun c hc => by have := formatUtc_ascii t c hc; omega

/-- A heartbeat or a terminal transition of a readable lease is again of decoded parts. -/
theorem Lease.Decoded.moved {l : Lease} (h : l.Decoded) (now expires : Instant) {state : Str}
    {evidence : Option (List (Str × Json))} (hs : Str.Joined state)
    (he : (evidenceJson evidence).Decoded) : (l.moved now expires state evidence).Decoded :=
  ⟨h.acquiredAt, h.checkpointId, h.epoch, joined_formatUtc expires, joined_formatUtc now, h.ownerId,
    h.keyPrefix, h.sessionId, hs, he, h.workload⟩

theorem joined_isIdentity {s : Str} (h : isIdentity s = true) : Str.Joined s := by
  refine Str.joined_of_ascii fun c hc => ?_
  unfold isIdentity at h
  split at h
  · cases h
  · rename_i d rest
    simp only [Bool.and_eq_true, List.all_eq_true, Bool.or_eq_true, beq_iff_eq, decide_eq_true_eq] at h
    rcases List.mem_cons.mp hc with rfl | hc'
    · exact isAlnum_lt h.1.1
    · rcases h.2 c hc' with (((h1 | h1) | h1) | h1) | h1
      · exact isAlnum_lt h1
      all_goals omega

theorem joined_uuid {s : Str} (h : uuid.fullmatch s = true) : Str.Joined s :=
  Str.joined_of_ascii (uuid_ascii.of_fullmatch h)

end Checkpoints
