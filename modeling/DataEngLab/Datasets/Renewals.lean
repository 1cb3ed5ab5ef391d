/-
A renewal at a site.

At a site a renewal goes one of four ways, and which one is decided by what the two clocks
read.  The date of the store may be too far from the local clock to be believed; the lease
may have ended; the store may still show the second in which the lease was written, and
then every observation is in vain; or the lease is written again, from the second that the
store shows.
-/
import DataEngLab.Datasets.Sites
import DataEngLab.Datasets.LeaseRecord
import DataEngLab.Lib.Scripted

namespace Datasets

open Lib

variable {α : Type} {g : Tagging} {s : Site} {m : Moment}

/-- What a call does at a site. -/
abbrev Site.run (g : Tagging) (x : S α) (s : Site) : Option (Except Exn α × Site) := Proc.runSome (Site.answer g) x s

/-- The date of the store is believed. -/
def Site.Believed (s : Site) : Prop := ∃ m, s.localNow = some m ∧ Datasets.skew s.world.now.moment m ≤ maxClockSkew

/-! ### The calls of the client -/

theorem run_perform {e : Call} {r : Answer e} {s' : Site} (h : s.answer g e = some (r, s')) :
    Site.run g (perform e) s = some (.ok r, s') := by
  rw [Site.run, perform, runSome_perform, h]
  rfl

theorem run_lift_bind {β : Type} {x : Except Exn α} {a : α} {f : α → S β} (h : x = .ok a) :
    Site.run g (lift x >>= f) s = Site.run g (f a) s :=
  runSome_bind_ok _ (by rw [h]; rfl)

theorem run_utcNow (hm : s.localNow = some m) : Site.run g utcNow s = some (.ok m, s) :=
  run_perform (by simp only [Site.answer, hm])

theorem run_monotonic : Site.run g monotonic s = some (.ok s.clock, s) := run_perform rfl

theorem run_responseServerDate (h : s.Believed) :
    Site.run g (responseServerDate (.date s.world.now)) s = some (.ok s.world.now, s) := by
  obtain ⟨m, hm, hskew⟩ := h
  rw [Site.run, responseServerDate, runSome_bind_ok _ (run_utcNow hm), if_neg (Nat.not_lt.mpr hskew)]
  rfl

theorem run_responseServerDate_unbelieved (hm : s.localNow = some m) (h : maxClockSkew < skew s.world.now.moment m) :
    Site.run g (responseServerDate (.date s.world.now)) s =
      some (.error (.ambiguousWrite "S3 response Date has implausible clock skew" none), s) := by
  rw [Site.run, responseServerDate, runSome_bind_ok _ (run_utcNow hm), if_pos h]
  rfl

section
variable {loc : Location} {o : StoredObject}

/-- The response to a read of what is stored. -/
def Site.response (s : Site) (o : StoredObject) : GetResponse :=
  ⟨.date s.world.now, some o.etag, some o.metadata, .bytes o.body, none⟩

theorem run_getObject (h : s.world.objects loc = some o) :
    Site.run g (perform (.getObject loc)) s = some (.ok (.ok (s.response o)), s) :=
  run_perform (by simp only [Site.answer, Site.getReply, h, Site.response])

theorem responseEtag_tag (g : Tagging) (b : Bytes) : responseEtag (some (g.tag b)) = .ok (g.tag b) := by
  cases h : g.tag b with
  | nil => exact absurd h (g.tag_ne_nil b)
  | cons c e => rfl

theorem run_controlSnapshot {body : Bytes} (h : s.Believed) (hbody : o.body = body) (hetag : o.etag = g.tag body)
    (hsmall : body.length ≤ maxControlBytes) :
    Site.run g (controlSnapshot (s.response o)) s = some (.ok ⟨body, g.tag body, s.world.now⟩, s) := by
  have hread : readBounded (.bytes o.body) = .ok body := by
    rw [hbody, readBounded, if_neg (Nat.not_lt.mpr hsmall)]
  have hown : Site.run g (do
      let serverDate ← responseServerDate (s.response o).date
      let etag ← lift (responseEtag (s.response o).etag)
      let body ← lift (readBounded (s.response o).body)
      return (⟨body, etag, serverDate⟩ : ControlSnapshot)) s = some (.ok ⟨body, g.tag body, s.world.now⟩, s) := by
    refine (runSome_bind_ok _ (run_responseServerDate h)).trans ?_
    simp only [Site.response, hetag, responseEtag_tag, hread]
    rfl
  rw [Site.run, controlSnapshot, ownedBody, runSome_bind_ok _ hown]
  rfl

theorem run_readControlObject {body : Bytes} (h : s.Believed) (ho : s.world.objects loc = some o) (hbody : o.body = body)
    (hetag : o.etag = g.tag body) (hsmall : body.length ≤ maxControlBytes) :
    Site.run g (readControlObject loc) s = some (.ok ⟨body, g.tag body, s.world.now⟩, s) := by
  have hget : Site.run g (getObject loc) s = some (.ok (s.response o), s) := by
    rw [Site.run, getObject, runSome_bind_ok _ (run_getObject ho)]
    rfl
  rw [Site.run, readControlObject, runSome_bind_ok _ hget]
  exact run_controlSnapshot h hbody hetag hsmall

theorem run_readLeaseObservation {body : Bytes} (h : s.Believed) (ho : s.world.objects loc = some o)
    (hbody : o.body = body) (hetag : o.etag = g.tag body) (hsmall : body.length ≤ maxControlBytes) :
    Site.run g (readLeaseObservation loc) s =
      some (.ok (some ⟨body, g.tag body, s.world.now⟩, s.world.now, s.clock), s) := by
  rw [Site.run, readLeaseObservation, runSome_bind_ok _ (run_getObject ho)]
  simp only
  rw [runSome_bind_ok _ run_monotonic, runSome_bind_ok _ (run_controlSnapshot h hbody hetag hsmall)]
  rfl

theorem run_readLeaseObservation_unbelieved (hm : s.localNow = some m) (h : maxClockSkew < skew s.world.now.moment m)
    (ho : s.world.objects loc = some o) :
    Site.run g (readLeaseObservation loc) s =
      some (.error (.ambiguousWrite "S3 response Date has implausible clock skew" none), s) := by
  have hsnapshot : Site.run g (controlSnapshot (s.response o)) s =
      some (.error (.ambiguousWrite "S3 response Date has implausible clock skew" none), s) := by
    rw [Site.run, controlSnapshot, ownedBody]
    exact runSome_bind_error _ (runSome_bind_error _ (run_responseServerDate_unbelieved hm h))
  rw [Site.run, readLeaseObservation, runSome_bind_ok _ (run_getObject ho)]
  simp only
  rw [runSome_bind_ok _ run_monotonic, runSome_bind_error _ hsnapshot]

/-! ### Writing -/

@[simp] theorem Site.put_localNow : (s.put loc o).localNow = s.localNow := rfl

@[simp] theorem Site.put_now : (s.put loc o).world.now = s.world.now := rfl

theorem Site.Believed.put (h : s.Believed) : (s.put loc o).Believed := h

theorem run_putControlRequest {body : Bytes} {condition : PutCondition} (h : s.Believed)
    (hcondition : condition.Holds (s.world.objects loc)) (hsmall : body.length ≤ maxControlBytes) :
    Site.run g (putControlRequest loc body condition) s =
      some (.ok (⟨body, g.tag body, s.world.now⟩, some (.date s.world.now)), s.put loc ⟨body, g.tag body, []⟩) := by
  have hput : Site.run g (perform (.putObject loc body [] condition)) s =
      some (.ok (.ok (.date s.world.now)), s.put loc ⟨body, g.tag body, []⟩) :=
    run_perform (by simp only [Site.answer, if_pos hcondition])
  have hread := run_readControlObject (g := g) (s := s.put loc ⟨body, g.tag body, []⟩) h.put
    (World.put_self s.world 0 loc _) rfl rfl hsmall
  have hreconcile : Site.run g (reconcileControlWrite loc body) (s.put loc ⟨body, g.tag body, []⟩) =
      some (.ok ⟨body, g.tag body, s.world.now⟩, s.put loc ⟨body, g.tag body, []⟩) := by
    rw [Site.run, reconcileControlWrite, runSome_bind_ok _ hread]
    simp only [ne_eq, not_true_eq_false, if_false]
    rfl
  rw [Site.run, putControlRequest, runSome_bind_ok _ hput]
  simp only
  rw [readBack, runSome_bind_ok _ hreconcile]
  rfl

end

/-! ### The lease that is held -/

/-- The site stores the lease as its owner has it: for a minute, from a second that has begun. -/
structure Held (g : Tagging) (s : Site) (l : Lease) (body : Bytes) : Prop where
  written : l.body = .ok body
  stored : ∃ metadata, s.world.objects l.location = some ⟨body, g.tag body, metadata⟩
  etag : l.etag = g.tag body
  small : body.length ≤ maxControlBytes
  active : l.state = .active
  created : l.createdAt.instant.moment = l.createdAt
  expires : l.expiresAt.instant.moment = l.expiresAt
  begun : l.createdAt ≤ s.world.now.moment
  minute : l.expiresAt.micros = l.createdAt.micros + 60000000

section
variable {l : Lease} {body : Bytes}

theorem Held.valid (h : Held g s l body) : l.validate none = .ok () := (body_eq_ok.mp h.written).1

/-- The date in the response is before the lease ends. -/
def Site.Before (s : Site) (l : Lease) : Prop := s.world.now.moment < l.expiresAt

instance : Decidable (s.Before l) := inferInstanceAs (Decidable (_ < _))

theorem Held.read (h : Held g s l body) :
    leaseFromSnapshot ⟨body, g.tag body, s.world.now⟩ l.dataset l.bucket l.key = .ok l := by
  rw [leaseFromSnapshot_body h.written h.active h.created h.expires h.begun, ← h.etag]

theorem Held.requireHeld (h : Held g s l body) (hbefore : s.Before l) :
    requireHeld l (some ⟨body, g.tag body, s.world.now⟩) s.world.now =
      .ok (l, ⟨body, g.tag body, s.world.now⟩) := by
  have hbefore' : s.world.now.moment < l.expiresAt := hbefore
  simp only [Datasets.requireHeld, h.read, bind_eq_ok, require_eq_ok, pure_eq_ok]
  exact ⟨l, rfl, (), by simp only [h.etag, h.active, sameLeaseOwner, hbefore', beq_self_eq_true, decide_true,
    Bool.and_self], rfl⟩

theorem Held.requireHeld_ended (h : Held g s l body) (hbefore : ¬ s.Before l) :
    Datasets.requireHeld l (some ⟨body, g.tag body, s.world.now⟩) s.world.now =
      .error (.conditionalConflict "dataset lease has been lost") := by
  have hbefore' : ¬ s.world.now.moment < l.expiresAt := hbefore
  simp only [Datasets.requireHeld, h.read, bind_eq_error, require_eq_error]
  exact .inr ⟨l, rfl, .inl ⟨by simp only [hbefore', decide_false, Bool.and_false], trivial⟩⟩

theorem moment_later {d e : Instant} (he : e.second = d.second + 60) : e.moment.micros = d.moment.micros + 60000000 := by
  rw [Instant.moment_micros, Instant.moment_micros, he, Nat.add_mul]

/-- The lease from the second that the store shows. -/
def Lease.from (l : Lease) (d e : Instant) : Lease :=
  ⟨l.dataset, l.publicationId, l.ownerNonce, .active, d.moment, e.moment, [], l.bucket, l.key⟩

theorem Held.from_valid (h : Held g s l body) {d e : Instant} (he : e.second = d.second + 60) :
    (l.from d e).validate none = .ok () := by
  have hvalid := h.valid
  simp only [Lease.validate, Lease.validateObserved, bind_eq_ok, require_eq_ok, decide_eq_true_eq] at hvalid ⊢
  obtain ⟨_, hid, -, -, -, -, -, -, -, -, hkey⟩ := hvalid
  have hmicros : (l.from d e).expiresAt.micros = (l.from d e).createdAt.micros + 60000000 := by
    simp only [Lease.from, Instant.moment_micros, he]
    omega
  refine ⟨_, hid, (), fun _ => ?_, (), fun hreleased => ?_, (), ?_, (), trivial, hkey⟩
  · rw [Moment.lt_iff]
    omega
  · cases hreleased
  · simp only [maxLeaseSeconds]
    omega

theorem Held.from_body (h : Held g s l body) {d e : Instant} (he : e.second = d.second + 60) :
    ∃ body', (l.from d e).body = .ok body' ∧ body'.length = body.length :=
  body_sameTerms (l := l) ⟨rfl, rfl, rfl, h.active.symm⟩ h.written (h.from_valid he)

theorem Held.newLease (h : Held g s l body) {d e : Instant} (he : e.second = d.second + 60) :
    newLease l.dataset l.publicationId l.ownerNonce d l.bucket l.key leaseSeconds = .ok (l.from d e) := by
  have hvalid := h.valid
  simp only [Lease.validate, bind_eq_ok] at hvalid
  obtain ⟨_, hid, -⟩ := hvalid
  have hadd : d.add leaseSeconds.toNat = some e := Instant.add_eq_some.mpr he
  simp only [Datasets.newLease, bind_eq_ok, orElse_eq_ok, pure_eq_ok]
  exact ⟨(), rfl, (), hid, e, hadd, (), h.from_valid he, rfl⟩

/-! ### The four ways -/

theorem Held.observes (h : Held g s l body) (hbelieved : s.Believed) :
    Site.run g (readLeaseObservation l.location) s =
      some (.ok (some ⟨body, g.tag body, s.world.now⟩, s.world.now, s.clock), s) := by
  obtain ⟨metadata, hstored⟩ := h.stored
  exact run_readLeaseObservation hbelieved hstored rfl rfl h.small

/-- A date that is not believed ends the renewal. -/
theorem renewLoop_unbelieved (h : Held g s l body) (hm : s.localNow = some m)
    (hfar : maxClockSkew < skew s.world.now.moment m) (n : Nat) :
    Site.run g (renewLoop l leaseSeconds (n + 1)) s =
      some (.error (.ambiguousWrite "S3 response Date has implausible clock skew" none), s) := by
  obtain ⟨metadata, hstored⟩ := h.stored
  exact runSome_bind_error _ (run_readLeaseObservation_unbelieved hm hfar hstored)

/-- So does the end of the lease. -/
theorem renewLoop_ended (h : Held g s l body) (hbelieved : s.Believed) (hbefore : ¬ s.Before l) (n : Nat) :
    Site.run g (renewLoop l leaseSeconds (n + 1)) s =
      some (.error (.conditionalConflict "dataset lease has been lost"), s) := by
  refine (runSome_bind_ok _ (h.observes hbelieved)).trans (runSome_bind_error _ ?_)
  rw [h.requireHeld_ended hbefore]
  rfl

/-- While the store shows the second the lease was written in, no observation is of use. -/
theorem renewLoop_stalled (h : Held g s l body) (hbelieved : s.Believed) (hbefore : s.Before l) {e : Instant}
    (he : e.second = s.world.now.second + 60) (hsame : s.world.now.moment ≤ l.createdAt) (n : Nat) :
    Site.run g (renewLoop l leaseSeconds n) s =
      some (.error (.ambiguousWrite "lease renewal could not establish a changed canonical version" none), s) := by
  induction n with
  | zero => rfl
  | succ n ih =>
      obtain ⟨proposedBody, hproposed, -⟩ := h.from_body he
      have hnot : (l.from s.world.now e).expiresAt ≤ l.expiresAt := by
        have hle : s.world.now.second * 1000000 ≤ l.createdAt.micros := hsame
        have hminute := h.minute
        rw [Moment.le_iff, hminute]
        show e.second * 1000000 ≤ l.createdAt.micros + 60000000
        rw [he, Nat.add_mul]
        exact Nat.add_le_add_right hle _
      refine (runSome_bind_ok _ (h.observes hbelieved)).trans ?_
      refine (run_lift_bind (h.requireHeld hbefore)).trans ?_
      refine (run_lift_bind (h.newLease he)).trans ?_
      refine (run_lift_bind hproposed).trans ?_
      rw [if_pos (Or.inl hnot)]
      exact ih

/-- The lease as it is after a renewal. -/
def Lease.renewed (l : Lease) (d e : Instant) (etag : Str) : Lease := { l.from d e with etag := etag }

/-- The site after a renewal. -/
def Site.wrote (s : Site) (g : Tagging) (l : Lease) (body : Bytes) : Site := s.put l.location ⟨body, g.tag body, []⟩

theorem Held.renewed (h : Held g s l body) {e : Instant} {body' : Bytes} (he : e.second = s.world.now.second + 60)
    (hbody : (l.from s.world.now e).body = .ok body') (hlen : body'.length = body.length) :
    Held g (s.wrote g l body') (l.renewed s.world.now e (g.tag body')) body' := by
  have hsmall := h.small
  refine ⟨hbody, ⟨[], World.put_self ..⟩, rfl, by omega, rfl,
    congrArg Instant.moment (Instant.moment_instant _), congrArg Instant.moment (Instant.moment_instant _),
    Moment.le_iff.mpr le_rfl, moment_later he⟩

theorem run_writeLease (h : Held g s l body) (hbelieved : s.Believed) {e : Instant} {body' : Bytes}
    (he : e.second = s.world.now.second + 60) (hbody : (l.from s.world.now e).body = .ok body')
    (hlen : body'.length = body.length) :
    Site.run g (writeLease (l.from s.world.now e) s.clock (.ifMatch l.etag)) s =
      some (.ok (l.renewed s.world.now e (g.tag body')), s.wrote g l body') := by
  obtain ⟨metadata, hstored⟩ := h.stored
  have hsmall : body'.length ≤ maxControlBytes := hlen ▸ h.small
  have hcondition : (PutCondition.ifMatch l.etag).Holds (s.world.objects l.location) :=
    ⟨_, hstored, h.etag.symm⟩
  have hnow : (l.from s.world.now e).createdAt ≤ s.world.now.moment := Moment.le_iff.mpr le_rfl
  have hlive : s.world.now.moment < (l.from s.world.now e).expiresAt :=
    Moment.lt_iff.mpr (by rw [Lease.from, moment_later he]; exact Nat.lt_add_of_pos_right (by decide))
  have hwithin : require (decide (s.clock - s.clock ≤ proposalWindowSeconds)) Exn.proposalExpired = .ok () := by
    rw [require_eq_ok, decide_eq_true_eq, sub_self]
    decide
  have hread : leaseFromSnapshot ⟨body', g.tag body', s.world.now⟩ l.dataset l.bucket l.key =
      .ok (l.renewed s.world.now e (g.tag body')) :=
    leaseFromSnapshot_body hbody rfl (congrArg Instant.moment (Instant.moment_instant _))
      (congrArg Instant.moment (Instant.moment_instant _)) hnow _
  have hreconciled : checkReconciled (l.from s.world.now e) (l.renewed s.world.now e (g.tag body'))
      s.world.now.moment = .ok () := by
    simp only [checkReconciled, bind_eq_ok, require_eq_ok, decide_eq_true_eq]
    exact ⟨(), fun _ => ⟨hnow, hlive⟩, fun hreleased => by cases hreleased⟩
  have hdate : Site.run g (checkWriteDate (l.from s.world.now e) (l.renewed s.world.now e (g.tag body'))
      (some (.date s.world.now))) (s.wrote g l body') = some (.ok (), s.wrote g l body') := by
    refine (runSome_bind_ok _ (runSome_mapError_ok _ (run_responseServerDate (s := s.wrote g l body') hbelieved))).trans ?_
    refine (run_lift_bind (a := ()) (require_eq_ok.mpr (decide_eq_true fun _ => ⟨hnow, hlive⟩))).trans ?_
    exact congrArg (fun x => some (x, _)) (require_eq_ok.mpr (decide_eq_true fun hreleased => by cases hreleased))
  refine (run_lift_bind (h.from_valid he)).trans ?_
  refine (run_lift_bind hbody).trans ?_
  refine (runSome_bind_ok _ run_monotonic).trans ?_
  refine (run_lift_bind hwithin).trans ?_
  refine (runSome_bind_ok _ (run_putControlRequest hbelieved hcondition hsmall)).trans ?_
  refine (run_lift_bind hread).trans ?_
  refine (run_lift_bind hreconciled).trans ?_
  exact runSome_bind_ok _ hdate

/-- A later second is a later lease. -/
theorem renewLoop_renewed (h : Held g s l body) (hbelieved : s.Believed) (hbefore : s.Before l) {e : Instant}
    {body' : Bytes} (he : e.second = s.world.now.second + 60) (hlater : l.createdAt < s.world.now.moment)
    (hbody : (l.from s.world.now e).body = .ok body') (hlen : body'.length = body.length) (n : Nat) :
    Site.run g (renewLoop l leaseSeconds (n + 1)) s =
      some (.ok (l.renewed s.world.now e (g.tag body')), s.wrote g l body') := by
  have hend : l.expiresAt < (l.from s.world.now e).expiresAt := by
    have hminute := h.minute
    rw [Moment.lt_iff, hminute]
    show _ < e.moment.micros
    rw [moment_later he]
    exact Nat.add_lt_add_right hlater _
  have hchanged : body' ≠ body := by
    rintro rfl
    have hsame := (tenureOf_body hbody).symm.trans (tenureOf_body h.written)
    have hstop : e.moment.instant.second = l.expiresAt.instant.second := congrArg Tenure.stop (Option.some.inj hsame)
    have heq : l.expiresAt = e.moment := by
      rw [← h.expires, ← Instant.ext_second hstop, Instant.moment_instant]
    exact Nat.lt_irrefl _ (heq ▸ hend)
  have hnew : ¬ ((l.from s.world.now e).expiresAt ≤ l.expiresAt ∨ body' = body) :=
    not_or.mpr ⟨Nat.not_le.mpr hend, hchanged⟩
  have hwithin : ¬ proposalWindowSeconds < s.clock - s.clock := by
    rw [sub_self]
    decide
  have hrenewed : checkRenewed l l (l.renewed s.world.now e (g.tag body')) = .ok () := by
    have htag : g.tag body' ≠ l.etag := fun heq => hchanged (g.tag_inj (heq.trans h.etag))
    have hend' : l.expiresAt < (l.renewed s.world.now e (g.tag body')).expiresAt := hend
    simp only [checkRenewed, hend', decide_true, Bool.true_and, require_eq_ok, bne_iff_ne]
    exact htag
  refine (runSome_bind_ok _ (h.observes hbelieved)).trans ?_
  refine (run_lift_bind (h.requireHeld hbefore)).trans ?_
  refine (run_lift_bind (h.newLease he)).trans ?_
  refine (run_lift_bind hbody).trans ?_
  rw [if_neg hnew]
  refine (runSome_bind_ok _ run_monotonic).trans ?_
  rw [if_neg hwithin]
  refine (runSome_attempt_bind _ (run_writeLease h hbelieved he hbody hlen)).trans ?_
  exact run_lift_bind hrenewed

theorem run_renewLease (h : Held g s l body) {r : Except Exn Lease × Site}
    (hloop : Site.run g (renewLoop l leaseSeconds maxRenewObservations) s = some r) :
    Site.run g (renewLease l leaseSeconds) s = some r := by
  refine (run_lift_bind h.valid).trans ?_
  exact (run_lift_bind (a := ()) rfl).trans hloop

end

end Datasets
