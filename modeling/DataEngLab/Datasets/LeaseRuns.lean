/-
Mutual exclusion of dataset leases.

`lease_exclusion` speaks of every run of any number of acquisitions, renewals and releases,
by any owners, on a store that answers as `answers` allows: at no second of the server's
clock do two owners that have not called release both hold a lease that has begun and not
ended, and no renewal or release replaces a record that another owner wrote.

The time checks of the functions are not what this rests on.  A thread that was delayed
past its lease's end still sends its write, but under the ETag of what it read, so the
write changes nothing once anybody else has written.
-/
import DataEngLab.Datasets.LeaseTurns
import DataEngLab.Datasets.Scene

namespace Datasets

open Lib

/-! ### Observations -/

/-- What an observation says of the store at the moment it was made. -/
def Observed (loc : Location) (snapshot : Option ControlSnapshot) (serverDate : Instant) (s : State) :
    Prop :=
  DatedBy serverDate snapshot ∧ match snapshot with
    | none => s.world.objects loc = none
    | some sn => Discipline.Stored loc sn s

section
variable {bytesOf : Str → Bytes} {Q : Type} {D : Discipline bytesOf Q} {t : Nat} {q : Q} {s : State}
  {loc : Location}

theorem does_readLeaseObservation : (D.party t q).Does (readLeaseObservation loc)
    (fun x s' => ∀ y, x = .ok y → (D.party t q).Between s (Observed loc y.1 y.2.1) s') s := by
  refine Party.perform_bind (X := D.party t q) (Discipline.keeps_free trivial) fun reply s₁ hs₁ hans => ?_
  have hget := Discipline.answered_get hans
  obtain ⟨s₀, w, hs₀, hstep, -, -, hs₀₁⟩ := hans
  cases reply with
  | ok r =>
      refine Party.perform_bind (X := D.party t q) (Discipline.keeps_free trivial) fun observedAt s₂ hs₂ _ => ?_
      refine Party.bind (Discipline.does_controlSnapshot ((hget r rfl).later hs₂))
        (fun snapshot s₃ _ hsaw => ?_) fun e s₃ _ _ y h => nomatch h
      refine Party.pure fun y hy => ?_
      cases hy
      exact (hsaw snapshot rfl).mono fun s' h => ⟨rfl, h⟩
  | malformed =>
      refine Party.perform_bind (X := D.party t q) (Discipline.keeps_free trivial) fun observedAt s₂ _ _ => ?_
      exact Party.throw fun y h => nomatch h
  | raised f =>
      cases f with
      | clientError status code date =>
          refine Party.perform_bind (X := D.party t q) (Discipline.keeps_free trivial)
            fun observedAt s₂ hs₂ _ => ?_
          refine Party.ite (fun hnone => ?_) fun _ => Party.throw fun y h => nomatch h
          refine Party.bind (Discipline.does_reads (Discipline.calm_responseServerDate date))
            (fun d s₃ hs₃ _ => ?_) fun e s₃ _ _ y h => nomatch h
          refine Party.pure fun y hy => ?_
          cases hy
          exact ⟨s₀, hs₀.order, ⟨trivial, hstep.1.2.2 hnone⟩,
            Discipline.order_trans (Discipline.order_trans hs₀₁ hs₂) hs₃⟩
      | _ => exact Party.throw fun y h => nomatch h

end

/-! ### Sending a proposal -/

section
variable {bytesOf : Str → Bytes} {t : Nat} {q : LeaseRequest} {s s' s₁ : State}

/-- A lease that is returned is one that has been written. -/
def Granted (q : LeaseRequest) (l : Lease) (s : State) : Prop :=
  q.grants = true → l.ownerNonce = q.owner ∧ l.expiresAt = l.expiresAt.instant.moment ∧
    ∃ x ∈ s.world.writesAt q.location, tenureOf x.body = some l.tenure

/-- A write under the ETag of a snapshot replaces what is in the snapshot. -/
theorem holds_snapshot {snapshot : ControlSnapshot} {w : World} {loc : Location}
    (htag : w.Tagged bytesOf) (hbytes : bytesOf snapshot.etag = snapshot.body)
    (h : (PutCondition.ifMatch snapshot.etag).Holds (w.objects loc)) :
    (w.objects loc).map StoredObject.body = some snapshot.body := by
  obtain ⟨v, hv, hetag⟩ := h
  rw [hv, Option.map_some, ← htag loc v hv, hetag, hbytes]

theorem Proposal.mayPut {snapshot : Option ControlSnapshot} {proposed : Lease}
    {condition : PutCondition} {serverDate : Instant} {body : Bytes}
    (h : Proposal q snapshot proposed condition) (hinv : LeaseInv bytesOf s.world)
    (hobs : ((leaseDiscipline bytesOf).party t q).Between s (Observed q.location snapshot serverDate) s₁)
    (hbody : proposed.body = .ok body) :
    (leaseDiscipline bytesOf).MayPut t q s₁ proposed.location body [] condition := by
  intro s' w hs happlied r x hx
  obtain ⟨hholds, etag, -, rfl⟩ := happlied
  cases hx
  obtain ⟨s₀, hs₀, hseen, hs₀₁⟩ := hobs
  have htag : s'.world.Tagged bytesOf :=
    Discipline.order_tagged (Discipline.order_trans (Discipline.order_trans hs₀ hs₀₁) hs.order) hinv.tagged
  refine ⟨rfl, h.location, proposed.tenure, tenureOf_body hbody, h.owner, h.held, ?_⟩
  have hrep := h.replaces
  have hcond := h.condition
  cases snapshot with
  | none =>
      subst hcond
      have hnone : s'.world.objects proposed.location = none := hholds
      rw [hnone]
      exact hrep
  | some sn =>
      subst hcond
      have hbytes := hseen.2.bytesOf_etag (Discipline.order_tagged hs₀ hinv.tagged)
      rw [holds_snapshot htag hbytes hholds]
      exact hrep

/-- What was not there when it was looked for, and is there now, has been written. -/
theorem written_between {w w' : World} {loc : Location} {body : Bytes} {o : StoredObject}
    (h : Onward bytesOf w w') (hnot : ∀ o, w.objects loc = some o → o.body ≠ body)
    (ho : w'.objects loc = some o) (hbody : o.body = body) : ∃ x ∈ w'.writesAt loc, x.body = body := by
  obtain ⟨new, hnew, hlast⟩ := h.writesAt loc
  cases new with
  | nil => exact absurd hbody (hnot o (hlast.symm.trans ho))
  | cons x new =>
      obtain ⟨o', ho', hbody'⟩ := hlast
      rw [ho] at ho'
      cases ho'
      exact ⟨x, by rw [hnew]; exact List.mem_cons_self, hbody'.symm.trans hbody⟩

theorem mem_writesAt {w : World} {loc : Location} {x : Write} :
    x ∈ w.writesAt loc ↔ x ∈ w.writes ∧ x.location = loc := by
  simp only [World.writesAt, List.mem_filter, decide_eq_true_eq]

theorem mem_writesAt_onward {w w' : World} {loc : Location} {x : Write} (h : Onward bytesOf w w')
    (hx : x ∈ w.writesAt loc) : x ∈ w'.writesAt loc := by
  obtain ⟨new, hnew, -⟩ := h.writesAt loc
  rw [hnew]
  exact List.mem_append_right _ hx

theorem Granted.later {l : Lease} (h : Granted q l s) (hs : Onward bytesOf s.world s'.world) :
    Granted q l s' := by
  intro hgrants
  obtain ⟨howner, hwhole, x, hx, htenure⟩ := h hgrants
  exact ⟨howner, hwhole, x, mem_writesAt_onward hs hx, htenure⟩

/-- What is read back of a write that was not there before is a lease that has been written. -/
theorem granted_readBack {snapshot : Option ControlSnapshot} {proposed l : Lease}
    {condition : PutCondition} {serverDate : Instant} {written : ControlSnapshot}
    (h : Proposal q snapshot proposed condition)
    (hobs : ((leaseDiscipline bytesOf).party t q).Between s (Observed q.location snapshot serverDate) s₁)
    (hbody : proposed.body = .ok written.body)
    (hsaw : (leaseDiscipline bytesOf).Saw t q s₁ proposed.location written s')
    (hread : leaseFromSnapshot written proposed.dataset proposed.bucket proposed.key = .ok l) :
    Granted q l s' := by
  intro hgrants
  have hr := leaseFromSnapshot_eq_ok hread
  have htenure : l.tenure = proposed.tenure :=
    Option.some.inj (hr.tenure.symm.trans (tenureOf_body hbody))
  refine ⟨(congrArg Tenure.owner htenure).trans h.owner, ?_, ?_⟩
  · rw [(read_whole hbody hr).2, Instant.moment_instant]
  obtain ⟨s₀, -, ⟨-, hseen⟩, hs₀₁⟩ := hobs
  obtain ⟨s₂, hs₁₂, ⟨-, o, ho, hwritten, -⟩, hs₂⟩ := hsaw
  rw [h.location] at ho
  have hnot : ∀ o, s₀.world.objects q.location = some o → o.body ≠ written.body := by
    intro o' ho' hsame
    cases snapshot with
    | none =>
        have hboth := hseen.symm.trans ho'
        cases hboth
    | some sn =>
        obtain ⟨-, o'', ho'', hsn, -⟩ := hseen
        rw [ho'] at ho''
        cases ho''
        refine h.new hgrants sn rfl ?_
        rw [hbody, ← hsame, hsn]
  obtain ⟨x, hx, hxbody⟩ := written_between (hs₀₁.onward.trans hs₁₂.onward) hnot ho hwritten
  refine ⟨x, mem_writesAt_onward hs₂.onward hx, ?_⟩
  rw [hxbody]
  exact hr.tenure

theorem calm_checkWriteDate (proposed written : Lease) (response : Option DateHeader) :
    Only (fun e => e.isPut = false) (checkWriteDate proposed written response) := by
  cases response with
  | none => exact .pure
  | some header =>
      exact .bind (.mapError (Discipline.calm_responseServerDate header)) fun writeDate =>
        .bind .lift fun _ => .lift

theorem does_writeLease {snapshot : Option ControlSnapshot} {proposed : Lease}
    {condition : PutCondition} {serverDate : Instant} {observedAt : Rat}
    (h : Proposal q snapshot proposed condition) (hinv : LeaseInv bytesOf s.world)
    (hobs : ((leaseDiscipline bytesOf).party t q).Between s (Observed q.location snapshot serverDate) s₁) :
    ((leaseDiscipline bytesOf).party t q).Does (writeLease proposed observedAt condition)
      (fun x s' => ∀ l, x = .ok l → Granted q l s') s₁ := by
  refine Party.lift_bind (fun _ _ => ?_) fun e _ l hl => nomatch hl
  refine Party.lift_bind (fun body hbody => ?_) fun e _ l hl => nomatch hl
  refine Party.perform_bind (Discipline.keeps_free trivial) fun now s₂ hs₂ _ => ?_
  refine Party.lift_bind (fun _ _ => ?_) fun e _ l hl => nomatch hl
  have hobs₂ := hobs.later hs₂
  refine Party.bind (Discipline.does_putControlRequest (h.mayPut hinv hobs₂ hbody)) ?_
    fun e s₃ _ _ l hl => nomatch hl
  rintro ⟨written, response⟩ s₃ hs₃ hwritten
  obtain ⟨rfl, hsaw⟩ := hwritten _ rfl
  refine Party.lift_bind (fun lease hread => ?_) fun e _ l hl => nomatch hl
  refine Party.lift_bind (fun _ _ => ?_) fun e _ l hl => nomatch hl
  have hgranted := granted_readBack h hobs₂ hbody hsaw hread
  refine Party.bind (Discipline.does_reads (calm_checkWriteDate proposed lease response)) (fun _ s₄ hs₄ _ => ?_)
    fun e s₄ _ _ l hl => nomatch hl
  refine Party.pure fun l hl => ?_
  cases hl
  exact hgranted.later hs₄.onward

/-- Every lease that a function returns is one that has been written. -/
def Grants (q : LeaseRequest) (x : Except Exn Lease) (s : State) : Prop :=
  ∀ l, x = .ok l → Granted q l s

theorem does_outOfFuel {α : Type} {Q : Except Exn α → State → Prop} :
    ((leaseDiscipline bytesOf).party t q).Does (outOfFuel : S α) Q s := by
  refine Party.perform_bind (fun _ _ _ _ hstep => absurd hstep (by simp [Discipline.party, answers]))
    fun _ _ _ hans => ?_
  obtain ⟨s₀, w, -, hstep, -⟩ := hans
  exact absurd hstep (by simp [Discipline.party, answers])

/-- A proposal is written, or has grown old and is made once more. -/
theorem does_attemptWrite {snapshot : Option ControlSnapshot} {proposed : Lease}
    {condition : PutCondition} {serverDate : Instant} {observedAt : Rat} {after : Except Exn Lease → S Lease}
    (h : Proposal q snapshot proposed condition) (hinv : LeaseInv bytesOf s.world)
    (hobs : ((leaseDiscipline bytesOf).party t q).Between s (Observed q.location snapshot serverDate) s₁)
    (hafter : ∀ x s', (leaseDiscipline bytesOf).order s s' → Grants q x s' →
      ((leaseDiscipline bytesOf).party t q).Does (after x) (Grants q) s') :
    ((leaseDiscipline bytesOf).party t q).Does
      ((writeLease proposed observedAt condition).attempt >>= after : S Lease) (Grants q) s₁ := by
  obtain ⟨s₀, hs₀, hseen, hs₀₁⟩ := hobs
  refine Party.bind (P := fun r s' => ∀ x, r = .ok x → Grants q x s') ?_
    (fun x s' hs' hx => hafter x s' ?_ (hx x rfl)) fun e s' _ _ l hl => nomatch hl
  · refine Party.attempt ((does_writeLease h hinv ⟨s₀, hs₀, hseen, hs₀₁⟩).mono fun x s' hx => ?_)
    rintro _ ⟨⟩
    exact hx
  · exact Discipline.order_trans (Discipline.order_trans hs₀ hs₀₁) hs'

theorem does_acquireLoop {dataset publicationId ownerNonce bucket : Str} {leaseSeconds : Int} {total : Nat}
    (fuel : Nat) : ∀ {s : State}, LeaseInv bytesOf s.world →
      ((leaseDiscipline bytesOf).party t
        (.acquire dataset publicationId ownerNonce bucket leaseSeconds total)).Does
      (acquireLoop dataset publicationId ownerNonce bucket leaseSeconds fuel)
      (Grants (.acquire dataset publicationId ownerNonce bucket leaseSeconds total)) s := by
  induction fuel with
  | zero => exact fun _ => does_outOfFuel
  | succ fuel ih =>
      intro s hinv
      refine Party.bind does_readLeaseObservation ?_ fun e _ _ _ l hl => nomatch hl
      rintro ⟨snapshot, serverDate, observedAt⟩ s₁ hs₁ hobs
      obtain ⟨s₀, hs₀, hseen, hs₀₁⟩ := hobs _ rfl
      refine Party.lift_bind (fun condition hadm => ?_) fun e _ l hl => nomatch hl
      refine Party.lift_bind (fun proposed hnew => ?_) fun e _ l hl => nomatch hl
      refine Party.perform_bind (Discipline.keeps_free trivial) fun now s₂ hs₂ _ => ?_
      refine Party.ite (fun _ => ih (Discipline.order_trans hs₁ hs₂ |>.inv hinv)) fun _ => ?_
      refine does_attemptWrite (proposal_acquire hseen.1 hadm hnew) hinv
        ⟨s₀, hs₀, hseen, Discipline.order_trans hs₀₁ hs₂⟩ fun x s' hs' hx => ?_
      rcases x with e | lease
      · cases e with
        | proposalExpired => exact ih (hs'.inv hinv)
        | _ => exact Party.throw fun l hl => nomatch hl
      · exact Party.pure hx

theorem does_renewLoop {lease : Lease} {leaseSeconds : Int} (hkey : lease.key = leaseKey lease.dataset)
    (fuel : Nat) : ∀ {s : State}, LeaseInv bytesOf s.world →
      ((leaseDiscipline bytesOf).party t (.renew lease leaseSeconds)).Does
      (renewLoop lease leaseSeconds fuel) (Grants (.renew lease leaseSeconds)) s := by
  induction fuel with
  | zero => exact fun _ => Party.throw fun _ hl => ok_of_error hl
  | succ fuel ih =>
      intro s hinv
      refine Party.bind does_readLeaseObservation ?_ fun _ _ _ _ _ hl => ok_of_error hl
      rintro ⟨snapshot, serverDate, observedAt⟩ s₁ hs₁ hobs
      obtain ⟨s₀, hs₀, hseen, hs₀₁⟩ := hobs _ rfl
      have hloc : lease.location = (LeaseRequest.renew lease leaseSeconds).location := by
        simp [Lease.location, LeaseRequest.location, hkey]
      rw [hloc] at hseen
      refine Party.lift_bind (fun held hheld => ?_) fun _ _ _ hl => ok_of_error hl
      refine Party.lift_bind (fun proposed hnew => ?_) fun _ _ _ hl => ok_of_error hl
      refine Party.lift_bind (fun proposedBody hbody => ?_) fun _ _ _ hl => ok_of_error hl
      refine Party.ite (fun _ => ih (hs₁.inv hinv)) fun hlater => ?_
      refine Party.perform_bind (Discipline.keeps_free trivial) fun now s₂ hs₂ _ => ?_
      refine Party.ite (fun _ => ih (Discipline.order_trans hs₁ hs₂ |>.inv hinv)) fun _ => ?_
      refine does_attemptWrite (proposal_renew hkey hseen.1 hheld hnew hbody hlater) hinv
        ⟨s₀, hs₀, hseen, Discipline.order_trans hs₀₁ hs₂⟩ fun x s' hs' hx => ?_
      rcases x with e | written
      · cases e with
        | proposalExpired => exact ih (hs'.inv hinv)
        | _ => exact Party.throw fun _ hl => ok_of_error hl
      · exact Party.lift_bind (fun _ _ => Party.pure hx) fun _ _ _ hl => ok_of_error hl

theorem does_releaseLoop {lease : Lease} {total : Nat} (hkey : lease.key = leaseKey lease.dataset)
    (fuel : Nat) : ∀ {s : State}, LeaseInv bytesOf s.world →
      ((leaseDiscipline bytesOf).party t (.release lease total)).Does
      (releaseLoop lease fuel) (Grants (.release lease total)) s := by
  induction fuel with
  | zero => exact fun _ => does_outOfFuel
  | succ fuel ih =>
      intro s hinv
      refine Party.bind does_readLeaseObservation ?_ fun _ _ _ _ _ hl => ok_of_error hl
      rintro ⟨snapshot, serverDate, observedAt⟩ s₁ hs₁ hobs
      obtain ⟨s₀, hs₀, hseen, hs₀₁⟩ := hobs _ rfl
      have hloc : lease.location = (LeaseRequest.release lease total).location := by
        simp [Lease.location, LeaseRequest.location, hkey]
      rw [hloc] at hseen
      refine Party.lift_bind (fun held hheld => ?_) fun _ _ _ hl => ok_of_error hl
      refine Party.perform_bind (Discipline.keeps_free trivial) fun now s₂ hs₂ _ => ?_
      refine Party.ite (fun _ => ih (Discipline.order_trans hs₁ hs₂ |>.inv hinv)) fun _ => ?_
      refine does_attemptWrite (proposal_release hkey hheld) hinv
        ⟨s₀, hs₀, hseen, Discipline.order_trans hs₀₁ hs₂⟩ fun x s' hs' hx => ?_
      rcases x with e | released
      · cases e with
        | proposalExpired => exact ih (hs'.inv hinv)
        | _ => exact Party.throw fun _ hl => ok_of_error hl
      · exact Party.pure hx

/-- One call of the lease functions. -/
theorem does_code (hinv : LeaseInv bytesOf s.world) :
    ((leaseDiscipline bytesOf).party t q).Does q.code (Grants q) s := by
  cases q with
  | acquire dataset publicationId ownerNonce bucket leaseSeconds fuel =>
      refine Party.lift_bind (fun _ _ => ?_) fun e _ l hl => nomatch hl
      refine Party.lift_bind (fun _ _ => ?_) fun e _ l hl => nomatch hl
      exact does_acquireLoop fuel hinv
  | renew lease leaseSeconds =>
      refine Party.lift_bind (fun _ hvalid => ?_) fun e _ l hl => nomatch hl
      refine Party.lift_bind (fun _ _ => ?_) fun e _ l hl => nomatch hl
      exact does_renewLoop (validate_key hvalid) _ hinv
  | release lease fuel =>
      refine Party.lift_bind (fun _ hvalid => ?_) fun e _ l hl => nomatch hl
      exact does_releaseLoop (validate_key hvalid) fuel hinv

end

/-! ### Runs -/

abbrev LeasePool := Pool LeaseRequest World Call Answer (Except Exn Lease)

/-- Any owners, each calling the lease functions as it likes. -/
abbrev leaseMachine (bytesOf : Str → Bytes) :
    Machine LeaseRequest World Call Answer (Except Exn Lease) :=
  Discipline.machine bytesOf LeaseRequest.code

def leaseProtocol (bytesOf : Str → Bytes) : Protocol (leaseMachine bytesOf) :=
  (leaseDiscipline bytesOf).protocol (fun _ _ _ _ _ _ h => ⟨h, trivial⟩) (fun _ _ h => h)
    (fun _ q x s => Grants q x s) fun _ _ _ hinv _ => does_code hinv

section
variable {bytesOf : Str → Bytes} {p p' : LeasePool}

abbrev LeaseReached (bytesOf : Str → Bytes) (p : LeasePool) : Prop :=
  Reachable (leaseMachine bytesOf) (Init bytesOf) p

theorem LeaseReached.sound (h : LeaseReached bytesOf p) :
    p.Sound (leaseMachine bytesOf) (leaseProtocol bytesOf) :=
  Reachable.sound Discipline.rely_refl (fun _ hw => LeaseInv.init hw) h

/-- Whose write it is, and for which request. -/
theorem LeaseReached.writer (h : LeaseReached bytesOf p) {x : Write} (hx : x ∈ p.sys.world.writes) :
    ∃ q rest, p.threads x.thread = some ⟨q, rest⟩ ∧ LeaseWrite q x := by
  refine Reachable.attributed (P := leaseProtocol bytesOf) (C := LeaseWrite)
    (L := fun s t x => x ∈ s.world.writes ∧ x.thread = t) Discipline.rely_refl
    (fun _ hw => LeaseInv.init hw) ?_ ?_ ?_ h x.thread x ⟨hx, rfl⟩
  · rintro w t x ⟨-, hnone⟩ ⟨hx, -⟩
    have hx' : x ∈ w.writes := hx
    rw [hnone] at hx'
    cases hx'
  · rintro s w t x ⟨now, -, rfl⟩ hx
    exact hx
  · rintro t q s e r w - ⟨⟨w', hans, hnext⟩, hgood⟩ u y ⟨hy, rfl⟩
    rcases answers_cases hans with rfl | ⟨loc, body, metadata, condition, rfl, happlied⟩
    · rw [hnext] at hy
      exact .inl ⟨hy, rfl⟩
    obtain ⟨-, etag, -, rfl⟩ := happlied
    rw [hnext] at hy hgood
    rcases List.mem_cons.mp hy with rfl | hold
    · exact .inr (hgood _ rfl)
    · exact .inl ⟨hold, rfl⟩

theorem LeaseReached.granted (h : LeaseReached bytesOf p) {t : Nat} {q : LeaseRequest} {l : Lease}
    (ht : p.threads t = some ⟨q, .pure (.ok l)⟩) : Granted q l p.sys :=
  Reachable.post (P := leaseProtocol bytesOf) Discipline.rely_refl
    (fun _ hw => LeaseInv.init hw) (fun _ _ _ _ _ hs hpost l hl => (hpost l hl).later hs.onward) h ht l rfl

/-- Thread `t` was given the lease `l` to publish under. -/
def Holds (p : LeasePool) (t : Nat) (q : LeaseRequest) (l : Lease) : Prop :=
  p.threads t = some ⟨q, .pure (.ok l)⟩ ∧ q.grants = true

/-- The owner has not called release for the dataset. -/
def Unreleased (p : LeasePool) (owner : Str) (loc : Location) : Prop :=
  ∀ t q rest, p.threads t = some ⟨q, rest⟩ → q.owner = owner → q.location = loc → q.grants = true

/-- The lease has begun and not ended. -/
def Lease.Covers (l : Lease) (d : Instant) : Prop := l.createdAt ≤ d.moment ∧ d.moment < l.expiresAt

instance (l : Lease) (d : Instant) : Decidable (l.Covers d) :=
  inferInstanceAs (Decidable (_ ∧ _))

theorem Lease.Covers.tenure {l : Lease} {d : Instant} (h : l.Covers d)
    (hwhole : l.expiresAt = l.expiresAt.instant.moment) :
    l.tenure.start ≤ d.second ∧ d.second < l.tenure.stop := by
  obtain ⟨hcreated, hexpires⟩ := h
  refine ⟨tenure_of_created hcreated, ?_⟩
  rw [hwhole] at hexpires
  simp only [Moment.lt_iff, Instant.moment_micros] at hexpires
  simp only [Lease.tenure]
  omega

/-- What an owner that has not called release has written at a location is held. -/
theorem LeaseReached.keeps (h : LeaseReached bytesOf p) {owner : Str} {loc : Location}
    (hkeep : Unreleased p owner loc) {hs : List (Tenure Str Nat)}
    (hall : List.Forall₂ (fun x b => tenureOf x.body = some b) (p.sys.world.writesAt loc) hs) :
    Keeps hs owner := by
  intro b hb howner
  obtain ⟨x, hx, hxb⟩ := exists_left_of_mem hall hb
  obtain ⟨hmem, hloc⟩ := mem_writesAt.mp hx
  obtain ⟨q, rest, ht, hwrite⟩ := h.writer hmem
  obtain ⟨b', hb', hown, hheld, -⟩ := hwrite.tenure
  rw [hxb] at hb'
  cases hb'
  rw [hheld]
  exact hkeep x.thread q rest ht (hown.symm.trans howner) (hwrite.location.symm.trans hloc)

/-- The record at a location is the owner's: it says so, and nobody else has written it. -/
def OwnedBy (p : LeasePool) (owner : Str) (loc : Location) : Prop :=
  ∃ o a, p.sys.world.objects loc = some o ∧ tenureOf o.body = some a ∧ a.owner = owner ∧
    ∀ x ∈ p.sys.world.writesAt loc, x.body = o.body →
      ∃ q rest, p.threads x.thread = some ⟨q, rest⟩ ∧ q.owner = owner

/-- Two owners that have not released hold no leases that overlap. -/
theorem LeaseReached.disjoint (h : LeaseReached bytesOf p) {t u : Nat} {q q' : LeaseRequest} {l l' : Lease}
    (hl : Holds p t q l) (hl' : Holds p u q' l') (hloc : q.location = q'.location)
    (hne : q.owner ≠ q'.owner) (hkeep : Unreleased p q.owner q.location)
    (hkeep' : Unreleased p q'.owner q.location) (d : Instant) : ¬ (l.Covers d ∧ l'.Covers d) := by
  rintro ⟨hcovers, hcovers'⟩
  obtain ⟨howner, hwhole, x, hx, htenure⟩ := h.granted hl.1 hl.2
  obtain ⟨howner', hwhole', x', hx', htenure'⟩ := h.granted hl'.1 hl'.2
  rw [← hloc] at hx'
  obtain ⟨hs, hall, hsucc⟩ := h.sound.inv.chain q.location
  obtain ⟨b, hb, hxb⟩ := exists_right_of_mem hall hx
  obtain ⟨b', hb', hxb'⟩ := exists_right_of_mem hall hx'
  rw [htenure, Option.some.injEq] at hxb
  rw [htenure', Option.some.injEq] at hxb'
  subst hxb hxb'
  have hdiff : l.tenure.owner ≠ l'.tenure.owner := by
    show l.ownerNonce ≠ l'.ownerNonce
    rw [howner, howner']
    exact hne
  have hk : Keeps hs l.tenure.owner := h.keeps (by show Unreleased p l.ownerNonce _; rw [howner]; exact hkeep) hall
  have hk' : Keeps hs l'.tenure.owner :=
    h.keeps (by show Unreleased p l'.ownerNonce _; rw [howner']; exact hkeep') hall
  obtain ⟨hstart, hstop⟩ := hcovers.tenure hwhole
  obtain ⟨hstart', hstop'⟩ := hcovers'.tenure hwhole'
  rcases hsucc.disjoint hb hb' hdiff hk hk' with hlt | hlt <;> omega

/-- A renewal or a release changes only what its own owner has written. -/
theorem LeaseReached.changes (h : LeaseReached bytesOf p) {t : Nat} {q : LeaseRequest} {e : Call}
    {r : Answer e} {loc : Location} (ha : Acts (leaseMachine bytesOf) t q e r p p')
    (hq : q.isAcquire = false) (hchange : p'.sys.world.objects loc ≠ p.sys.world.objects loc) :
    OwnedBy p q.owner loc := by
  obtain ⟨⟨w, hans, hnext⟩, hgood⟩ := h.sound.acts Discipline.rely_refl ha
  rw [hnext] at hchange
  rcases answers_cases hans with rfl | ⟨l, body, metadata, condition, rfl, happlied⟩
  · exact absurd rfl hchange
  obtain ⟨-, etag, -, rfl⟩ := happlied
  have hl : loc = l := by
    by_contra hne
    exact hchange (World.put_ne _ _ _ _ hne)
  subst hl
  rw [hnext] at hgood
  obtain ⟨-, hwrite⟩ := hgood _ rfl
  obtain ⟨b, -, -, -, hrep⟩ := hwrite.tenure
  cases ho : p.sys.world.objects loc with
  | none =>
      rw [ho] at hrep
      have hacquire : q.isAcquire = true := hrep
      rw [hq] at hacquire
      cases hacquire
  | some o =>
      rw [ho] at hrep
      obtain ⟨a, ha', -, hown⟩ := hrep
      refine ⟨o, a, ho, ha', hown hq, fun x hx hxo => ?_⟩
      obtain ⟨q', rest, ht, hwrite'⟩ := h.writer (mem_writesAt.mp hx).1
      obtain ⟨a', ha'', hown', -⟩ := hwrite'.tenure
      rw [hxo, ha'] at ha''
      cases ha''
      exact ⟨q', rest, ht, hown'.symm.trans (hown hq)⟩

end

/-- **Mutual exclusion in server time.** -/
theorem lease_exclusion (bytesOf : Str → Bytes) (p : LeasePool) (h : LeaseReached bytesOf p) :
    (∀ t u q q' l l', Holds p t q l → Holds p u q' l' → q.location = q'.location →
      q.owner ≠ q'.owner → Unreleased p q.owner q.location → Unreleased p q'.owner q.location →
      ∀ d : Instant, ¬ (l.Covers d ∧ l'.Covers d)) ∧
    ∀ p' t q e r loc, Acts (leaseMachine bytesOf) t q e r p p' → q.isAcquire = false →
      p'.sys.world.objects loc ≠ p.sys.world.objects loc → OwnedBy p q.owner loc :=
  ⟨fun _ _ _ _ _ _ hl hl' hloc hne hkeep hkeep' d => h.disjoint hl hl' hloc hne hkeep hkeep' d,
    fun _ _ _ _ _ _ ha hq hchange => h.changes ha hq hchange⟩

/-! ### Two owners, one after the other -/

abbrev LeaseStage := Stage LeaseRequest World Call Answer (Except Exn Lease) Scene

abbrev leaseCast : Cast (leaseMachine spelled) Scene := sceneCast LeaseRequest.code

/-- A minute's lease on the dataset `d`. -/
def acquireFor (ownerNonce : Str) : LeaseRequest :=
  .acquire (lit "d") (lit "00000000000040008000000000000000") ownerNonce (lit "landing") 60 1

def firstNonce : Str := lit "aaaaaaaaaaaaaaaaaaaaaaaaaaaaaaaa"

def secondNonce : Str := lit "bbbbbbbbbbbbbbbbbbbbbbbbbbbbbbbb"

def noon : Instant := ⟨63000000000, by decide⟩

def afterNoon : Instant := ⟨63000000100, by decide⟩

/-- One owner acquires and, when its lease has ended, another does. -/
def twoOwners : Option (LeaseStage × LeaseStage) := do
  let x ← leaseCast.play [.start 0 (acquireFor firstNonce), .upTo 0 fun _ => false]
    (leaseCast.opening (Scene.empty noon))
  let y ← leaseCast.play [.start 1 (acquireFor secondNonce), .upTo 1 fun _ => false] (tick x afterNoon)
  return (x, y)

/-- The thread has acquired a lease for this owner. -/
def acquiredBy (x : LeaseStage) (t : Nat) (ownerNonce : Str) : Bool :=
  match Cast.resultOf x t with
  | some (.acquire dataset _ nonce bucket _ _, .ok _) =>
      dataset == lit "d" && nonce == ownerNonce && bucket == lit "landing"
  | _ => false

theorem holds_of_acquiredBy {x : LeaseStage} {t : Nat} {ownerNonce : Str}
    (h : acquiredBy x t ownerNonce = true) : ∃ q l, Holds x.pool t q l ∧ q.owner = ownerNonce ∧
      q.location = ⟨lit "landing", leaseKey (lit "d")⟩ := by
  unfold acquiredBy at h
  split at h
  · rename_i hres
    simp only [Bool.and_eq_true, beq_iff_eq] at h
    obtain ⟨⟨rfl, rfl⟩, rfl⟩ := h
    exact ⟨_, _, ⟨Cast.resultOf_eq_some hres, rfl⟩, rfl, rfl⟩
  · cases h

theorem lease_exclusion_twoOwners : ∃ p q q' l l', LeaseReached spelled p ∧ Holds p 0 q l ∧
    Holds p 1 q' l' ∧ q.owner = firstNonce ∧ q'.owner = secondNonce ∧
    ∀ d : Instant, ¬ (l.Covers d ∧ l'.Covers d) := by
  have hrun : (twoOwners.any fun x => decide (x.1.scene.world.now = noon) &&
      acquiredBy x.2 0 firstNonce && acquiredBy x.2 1 secondNonce) = true := by decide +kernel
  simp only [Option.any_eq_true, Bool.and_eq_true, decide_eq_true_eq] at hrun
  obtain ⟨⟨x, y⟩, hxy, ⟨hnow, hfirst⟩, hsecond⟩ := hrun
  simp only [twoOwners, Option.bind_eq_bind, Option.bind_eq_some_iff, Option.pure_def, Option.some.injEq,
    Prod.mk.injEq] at hxy
  obtain ⟨x', hx, y', hy, rfl, rfl⟩ := hxy
  have hlater : x'.scene.world.now ≤ afterNoon := by rw [hnow]; decide
  obtain ⟨hstep, hfits⟩ := tick_step hlater (Cast.play_steps (Cast.opening_fits _ _) hx).2
  have hreach : LeaseReached spelled y'.pool :=
    (Reachable.step (Cast.play_reachable (Scene.empty_init noon) hx) hstep).steps (Cast.play_steps hfits hy).1
  have hkeep : Cast.Serving (fun _ q => q.grants = true) y' := by
    have hx' : Cast.Serving (fun _ q => q.grants = true) x' :=
      Cast.play_serving (by simp [acquireFor, LeaseRequest.grants]) (Cast.opening_serving _) hx
    exact Cast.play_serving (x := tick x' afterNoon) (by simp [acquireFor, LeaseRequest.grants]) hx' hy
  obtain ⟨q, l, hl, hq, hloc⟩ := holds_of_acquiredBy hfirst
  obtain ⟨q', l', hl', hq', hloc'⟩ := holds_of_acquiredBy hsecond
  refine ⟨y'.pool, q, q', l, l', hreach, hl, hl', hq, hq', ?_⟩
  exact (lease_exclusion spelled y'.pool hreach).1 0 1 q q' l l' hl hl' (hloc.trans hloc'.symm)
    (by rw [hq, hq']; decide) (fun t q rest h _ _ => hkeep t q rest h) fun t q rest h _ _ => hkeep t q rest h

end Datasets
