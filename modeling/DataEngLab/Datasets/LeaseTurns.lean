/-
What is written to a lease, and by whom.

Every write to a lease object replaces exactly what its thread had read: the condition is
the ETag of the snapshot, and equal ETags are equal bytes.  So the tenures written to one
object follow one another as `Tenure.Follows` asks, whatever the clocks of the owners say
and however long a write was on its way.

`leaseDiscipline` is that promise and its invariant.  The programs keep it one proposal at
a time: `Proposal` is what is known of a proposed lease when it is sent.
-/
import DataEngLab.Datasets.LeaseRecord
import DataEngLab.Datasets.Rules

namespace Datasets

open Lib

/-- A call of the lease functions; each owner has a nonce of its own. -/
inductive LeaseRequest where
  | acquire (dataset publicationId ownerNonce bucket : Str) (leaseSeconds : Int) (fuel : Nat)
  | renew (lease : Lease) (leaseSeconds : Int)
  | release (lease : Lease) (fuel : Nat)

namespace LeaseRequest

def owner : LeaseRequest → Str
  | .acquire _ _ ownerNonce _ _ _ => ownerNonce
  | .renew lease _ => lease.ownerNonce
  | .release lease _ => lease.ownerNonce

def location : LeaseRequest → Location
  | .acquire dataset _ _ bucket _ _ => ⟨bucket, leaseKey dataset⟩
  | .renew lease _ => ⟨lease.bucket, leaseKey lease.dataset⟩
  | .release lease _ => ⟨lease.bucket, leaseKey lease.dataset⟩

def isAcquire : LeaseRequest → Bool
  | .acquire .. => true
  | _ => false

/-- It returns a lease to publish under. -/
def grants : LeaseRequest → Bool
  | .release .. => false
  | _ => true

def code : LeaseRequest → S Lease
  | .acquire dataset publicationId ownerNonce bucket leaseSeconds fuel =>
      acquireLease dataset publicationId ownerNonce bucket leaseSeconds fuel
  | .renew lease leaseSeconds => renewLease lease leaseSeconds
  | .release lease fuel => releaseLease lease fuel

end LeaseRequest

/-! ### The promise -/

/-- `b` may be written over what is stored: over nothing by an acquisition, and otherwise over a tenure
that it follows, which is the writer's own unless this is an acquisition. -/
def Replaces (q : LeaseRequest) (prior : Option Bytes) (b : Tenure Str Nat) : Prop :=
  match prior with
  | none => q.isAcquire = true
  | some body => ∃ a, tenureOf body = some a ∧ a.Follows b ∧ (q.isAcquire = false → a.owner = q.owner)

structure LeaseWrite (q : LeaseRequest) (x : Write) : Prop where
  location : x.location = q.location
  tenure : ∃ b, tenureOf x.body = some b ∧ b.owner = q.owner ∧ b.held = q.grants ∧
    Replaces q (x.prior.map StoredObject.body) b

structure LeaseInv (bytesOf : Str → Bytes) (w : World) : Prop where
  tagged : w.Tagged bytesOf
  current : ∀ loc x rest, w.writesAt loc = x :: rest → ∃ o, w.objects loc = some o ∧ o.body = x.body
  chain : ∀ loc, ∃ h, List.Forall₂ (fun x b => tenureOf x.body = some b) (w.writesAt loc) h ∧
    Succession h

section
variable {bytesOf : Str → Bytes} {w w' : World} {q : LeaseRequest} {t : Nat} {loc : Location}
  {body : Bytes} {metadata : List (Str × Str)} {condition : PutCondition}

theorem LeaseInv.init (h : Init bytesOf w) : LeaseInv bytesOf w := by
  obtain ⟨htag, hnone⟩ := h
  have hat : ∀ loc, w.writesAt loc = [] := fun loc => by simp [World.writesAt, hnone]
  refine ⟨htag, fun loc x rest hx => ?_, fun loc => ⟨[], ?_, trivial⟩⟩
  · rw [hat] at hx
    cases hx
  · rw [hat]
    exact .nil

/-- A write that follows what is stored keeps the chain. -/
theorem LeaseInv.write (h : LeaseInv bytesOf w)
    (happlied : Applied bytesOf t w loc body metadata condition w')
    (hwrite : LeaseWrite q ⟨t, loc, body, w.objects loc⟩) : LeaseInv bytesOf w' := by
  have htag := happlied.tagged h.tagged
  obtain ⟨-, etag, -, rfl⟩ := happlied
  refine ⟨htag, fun l x rest hx => ?_, fun l => ?_⟩
  · by_cases hl : l = loc
    · subst hl
      rw [World.put_writesAt_self] at hx
      cases hx
      exact ⟨_, World.put_self .., rfl⟩
    · rw [World.put_writesAt_ne _ _ _ _ hl] at hx
      rw [World.put_ne _ _ _ _ hl]
      exact h.current l x rest hx
  · obtain ⟨hs, hforall, hsucc⟩ := h.chain l
    by_cases hl : l = loc
    · subst hl
      obtain ⟨b, hb, -, -, hrep⟩ := hwrite.tenure
      rw [World.put_writesAt_self]
      refine ⟨b :: hs, .cons hb hforall, ?_⟩
      cases hat : w.writesAt l with
      | nil =>
          rw [hat] at hforall
          cases hforall
          trivial
      | cons y rest =>
          rw [hat] at hforall
          cases hforall with
          | cons hy hrest =>
              obtain ⟨o, ho, hbody⟩ := h.current l y rest hat
              rw [ho] at hrep
              obtain ⟨a, ha, hfollows, -⟩ := hrep
              rw [hbody, hy] at ha
              cases ha
              exact ⟨hfollows, hsucc⟩
    · rw [World.put_writesAt_ne _ _ _ _ hl]
      exact ⟨hs, hforall, hsucc⟩

end

theorem cons_ne_self {α : Type} (x : α) (xs : List α) : xs ≠ x :: xs := by
  intro h
  have := congrArg List.length h
  simp at this

/-- Every write is a lease that may be written. -/
def leaseDiscipline (bytesOf : Str → Bytes) : Discipline bytesOf LeaseRequest where
  inv s := LeaseInv bytesOf s.world
  good t q s _ _ s' := ∀ x, s'.world.writes = x :: s.world.writes → x.thread = t ∧ LeaseWrite q x
  inv_drift := by
    rintro s w h ⟨now, -, rfl⟩
    exact ⟨h.tagged, h.current, h.chain⟩
  inv_good := by
    intro t q s e r w h hstep hgood
    rcases answers_cases hstep with rfl | ⟨loc, body, metadata, condition, rfl, happlied⟩
    · exact h
    · refine h.write (q := q) happlied ?_
      obtain ⟨-, etag, -, rfl⟩ := happlied
      exact (hgood _ rfl).2
  given _ _ _ _ _ := True
  free _ := False
  still _ := False
  mine e := e.isPut = false
  mine_free := Discipline.putsAt_of_reads
  good_free := by
    intro t q s e r w he hstep x hx
    rcases answers_cases hstep with rfl | ⟨loc, body, metadata, condition, rfl, -⟩
    · exact absurd hx (cons_ne_self x _)
    · exact he.elim
  good_idle _ x hx := absurd hx (cons_ne_self x _)
  good_still _ _ hstill := hstill.elim

/-! ### Proposals -/

/-- A lease that its thread may send under this condition, given the snapshot it has read. -/
structure Proposal (q : LeaseRequest) (snapshot : Option ControlSnapshot) (proposed : Lease)
    (condition : PutCondition) : Prop where
  location : proposed.location = q.location
  owner : proposed.ownerNonce = q.owner
  held : decide (proposed.state = .active) = q.grants
  condition : condition = match snapshot with
    | none => .ifNoneMatch
    | some sn => .ifMatch sn.etag
  replaces : Replaces q (snapshot.map ControlSnapshot.body) proposed.tenure
  new : q.grants = true → ∀ sn, snapshot = some sn → proposed.body ≠ .ok sn.body

section
variable {dataset publicationId ownerNonce bucket key : Str} {serverDate : Instant} {leaseSeconds : Int}
  {proposed : Lease}

/-- A new lease starts at the date that was read, and is as long as was asked. -/
theorem newLease_eq_ok
    (h : newLease dataset publicationId ownerNonce serverDate bucket key leaseSeconds = .ok proposed) :
    ∃ expiresAt : Instant, serverDate.second < expiresAt.second ∧ proposed = ⟨dataset, publicationId,
      ownerNonce, .active, serverDate.moment, expiresAt.moment, [], bucket, key⟩ := by
  simp only [newLease, validateLeaseDuration, bind_eq_ok, require_eq_ok, decide_eq_true_eq, orElse_eq_ok,
    pure_eq_ok, Instant.add_eq_some] at h
  obtain ⟨-, hduration, -, -, expiresAt, hadd, -, -, rfl⟩ := h
  exact ⟨expiresAt, by omega, rfl⟩

theorem tenure_of_created {l : Lease} {d : Instant} (h : l.createdAt ≤ d.moment) :
    l.tenure.start ≤ d.second := by
  simp only [Moment.le_iff, Instant.moment_micros] at h
  simp only [Lease.tenure, Moment.instant_second]
  omega

/-- What is past its end at a date ends no later than the date. -/
theorem tenure_of_expired {l : Lease} {d : Instant} (h : ¬ d.moment < l.expiresAt) :
    l.tenure.stop ≤ d.second := by
  simp only [Moment.lt_iff, Instant.moment_micros, Nat.not_lt] at h
  simp only [Lease.tenure, Moment.instant_second]
  omega

theorem admitAcquire_eq_ok {snapshot : Option ControlSnapshot} {condition : PutCondition}
    (h : admitAcquire snapshot serverDate dataset bucket key = .ok condition) :
    (snapshot = none ∧ condition = .ifNoneMatch) ∨ ∃ sn current, snapshot = some sn ∧
      condition = .ifMatch sn.etag ∧ leaseFromSnapshot sn dataset bucket key = .ok current ∧
        (current.state = .active → ¬ serverDate.moment < current.expiresAt) := by
  cases snapshot with
  | none =>
      cases h
      exact .inl ⟨rfl, rfl⟩
  | some sn =>
      simp only [admitAcquire, bind_eq_ok, require_eq_ok, decide_eq_true_eq, pure_eq_ok] at h
      obtain ⟨current, hcurrent, -, hfree, rfl⟩ := h
      exact .inr ⟨sn, current, rfl, rfl, hcurrent, fun ha hlt => hfree ⟨ha, hlt⟩⟩

end

/-- The date an observation comes with. -/
def DatedBy (serverDate : Instant) : Option ControlSnapshot → Prop
  | none => True
  | some sn => sn.serverDate = serverDate

section
variable {snapshot : Option ControlSnapshot} {serverDate : Instant} {proposed : Lease}

theorem proposal_acquire {dataset publicationId ownerNonce bucket : Str} {leaseSeconds : Int} {fuel : Nat}
    {condition : PutCondition} (hdate : DatedBy serverDate snapshot)
    (hadm : admitAcquire snapshot serverDate dataset bucket (leaseKey dataset) = .ok condition)
    (hnew : newLease dataset publicationId ownerNonce serverDate bucket (leaseKey dataset) leaseSeconds =
      .ok proposed) :
    Proposal (.acquire dataset publicationId ownerNonce bucket leaseSeconds fuel) snapshot proposed
      condition := by
  obtain ⟨expiresAt, hlt, rfl⟩ := newLease_eq_ok hnew
  rcases admitAcquire_eq_ok hadm with ⟨rfl, rfl⟩ | ⟨sn, current, rfl, rfl, hread, hfree⟩
  · exact ⟨rfl, rfl, rfl, rfl, rfl, fun _ sn hsn => nomatch hsn⟩
  have hr := leaseFromSnapshot_eq_ok hread
  have hcreated : current.createdAt ≤ serverDate.moment := by
    have h : sn.serverDate = serverDate := hdate
    rw [← h]
    exact hr.created
  refine ⟨rfl, rfl, rfl, rfl, ⟨current.tenure, hr.tenure, .take ?_ ?_ ?_ rfl, fun h => nomatch h⟩, ?_⟩
  · simpa [Lease.tenure] using tenure_of_created hcreated
  · intro hheld
    have hstop := tenure_of_expired (hfree (by simpa [Lease.tenure] using hheld))
    simpa [Lease.tenure] using hstop
  · simpa [Lease.tenure] using hlt.le
  · -- what was read has ended, and what is proposed has not
    intro _ sn' hsn' hbody
    cases hsn'
    have htenure := tenureOf_body hbody
    rw [hr.tenure, Option.some.injEq] at htenure
    have hheld := congrArg Tenure.held htenure
    have hstop := congrArg Tenure.stop htenure
    have hended := tenure_of_expired (hfree (by simpa [Lease.tenure] using hheld))
    rw [hstop] at hended
    simp only [Lease.tenure, Instant.moment_instant] at hended
    omega

theorem requireHeld_eq_ok {lease current : Lease} {sn : ControlSnapshot}
    (h : requireHeld lease snapshot serverDate = .ok (current, sn)) :
    snapshot = some sn ∧ ReadLease sn lease.dataset lease.bucket lease.key current ∧
      sn.etag = lease.etag ∧ current.ownerNonce = lease.ownerNonce ∧ current.state = .active := by
  cases snapshot with
  | none => cases h
  | some sn' =>
      simp only [requireHeld, bind_eq_ok, require_eq_ok, pure_eq_ok, Bool.and_eq_true, beq_iff_eq,
        decide_eq_true_eq, sameLeaseOwner] at h
      obtain ⟨current', hread, -, ⟨⟨⟨hetag, ⟨-, howner⟩⟩, hactive⟩, -⟩, heq⟩ := h
      cases heq
      exact ⟨rfl, leaseFromSnapshot_eq_ok hread, hetag, howner, hactive⟩

theorem proposal_renew {lease current : Lease} {sn : ControlSnapshot} {leaseSeconds : Int}
    {proposedBody : Bytes} (hkey : lease.key = leaseKey lease.dataset) (hdate : DatedBy serverDate snapshot)
    (hheld : requireHeld lease snapshot serverDate = .ok (current, sn))
    (hnew : newLease lease.dataset lease.publicationId lease.ownerNonce serverDate lease.bucket lease.key
      leaseSeconds = .ok proposed)
    (hbody : proposed.body = .ok proposedBody)
    (hlater : ¬ (proposed.expiresAt ≤ current.expiresAt ∨ proposedBody = sn.body)) :
    Proposal (.renew lease leaseSeconds) snapshot proposed (.ifMatch lease.etag) := by
  obtain ⟨expiresAt, hlt, rfl⟩ := newLease_eq_ok hnew
  obtain ⟨rfl, hr, hetag, howner, hactive⟩ := requireHeld_eq_ok hheld
  have hcreated : current.createdAt ≤ serverDate.moment := by
    have h : sn.serverDate = serverDate := hdate
    rw [← h]
    exact hr.created
  refine ⟨?_, rfl, rfl, congrArg _ hetag.symm, ⟨current.tenure, hr.tenure, .extend ?_ ?_ ?_ ?_ rfl, fun _ => howner⟩, ?_⟩
  · simp [Lease.location, LeaseRequest.location, hkey]
  · exact howner.symm
  · simp [Lease.tenure, hactive]
  · simpa [Lease.tenure] using tenure_of_created hcreated
  · have hle : ¬ expiresAt.second * 1000000 ≤ current.expiresAt.micros := fun hle => hlater (.inl hle)
    simp only [Lease.tenure, Moment.instant_second, Instant.moment_instant]
    omega
  · intro _ sn' hsn' hsame
    cases hsn'
    rw [hsame] at hbody
    cases hbody
    exact hlater (.inr rfl)

theorem proposal_release {lease current : Lease} {sn : ControlSnapshot} {fuel : Nat}
    (hkey : lease.key = leaseKey lease.dataset)
    (hheld : requireHeld lease snapshot serverDate = .ok (current, sn)) :
    Proposal (.release lease fuel) snapshot
      { current with state := .released, expiresAt := serverDate.moment, etag := [] }
      (.ifMatch lease.etag) := by
  obtain ⟨rfl, hr, hetag, howner, hactive⟩ := requireHeld_eq_ok hheld
  refine ⟨?_, howner, rfl, congrArg _ hetag.symm,
    ⟨current.tenure, hr.tenure, .give rfl ?_ le_rfl rfl, fun _ => howner⟩, fun h => nomatch h⟩
  · have hloc := hr.location
    simp only [Lease.location, Location.mk.injEq] at hloc
    simp [Lease.location, LeaseRequest.location, hloc.1, hloc.2, hkey]
  · simp [Lease.tenure, hactive]

end

end Datasets
