/-
What a terminal request of a notebook's lease stands for.

The service takes an ended lease as proof that nobody writes any more.  `Guarded` says of
a run that each terminal request was posted when no query was bound or the bound one had
stopped, and that it spoke of success only when the body had ended without an exception.

Three steps break this, and `Clean` leaves them out: a query that cannot be stopped at the
end, a query that does not say whether it is active, and a body that fails under a lease
whose evidence speaks of success.  In every other run the promise holds, whatever the
service, the worker and the query do.
-/
import DataEngLab.Checkpoints.NotebookLease
import DataEngLab.Lib.Play

namespace Checkpoints

open Lib StreamingLease

/-! ### What a run shows -/

abbrev LeaseEvent := Event SessionCall SessionAnswer

abbrev LeaseSys := Sys LeaseObject SessionCall SessionAnswer

/-- Newest first. -/
abbrev LeaseLog := List (Nat × LeaseEvent)

def isBind : (e : SessionCall) → SessionAnswer e → Bool
  | .setQuery _, _ => true
  | _, _ => false

/-- The query has stopped: `stop` has returned, or `isActive` was false. -/
def showsStopped : (e : SessionCall) → SessionAnswer e → Bool
  | .stopQuery _, .ok _ => true
  | .isActive _, .no => true
  | .body, .stopped => true
  | _, _ => false

def isBodyEnd : (e : SessionCall) → SessionAnswer e → Bool
  | .body, .ends => true
  | _, _ => false

def isBodyFailure : (e : SessionCall) → SessionAnswer e → Bool
  | .body, .raises _ => true
  | _, _ => false

/-- Some event of the run is of this kind. -/
def LeaseLog.shows (f : (e : SessionCall) → SessionAnswer e → Bool) (log : LeaseLog) : Bool :=
  log.any fun x => f x.2.1 x.2.2

/-- No query is bound, or the bound query has stopped. -/
def LeaseLog.settled (log : LeaseLog) : Bool := !log.shows isBind || log.shows showsStopped

/-- The request says that the run was completed or successful. -/
def claimsSuccess (payload : List (Str × Json)) : Bool :=
  (match Json.get "state" payload with
    | some (.str state) => state == lit "completed"
    | _ => false) ||
  match Json.get "evidence" payload with
    | some (.obj evidence) => Json.isTrue ((Json.get "successful" evidence).getD .null)
    | _ => false

/-- A terminal request may be posted now. -/
def mayPost (payload : List (Str × Json)) (log : LeaseLog) : Bool :=
  log.settled && (!claimsSuccess payload || log.shows isBodyEnd)

/-- Whether the call may be made after what has happened. -/
def mayCall (log : LeaseLog) : SessionCall → Bool
  | .post .terminal payload => mayPost payload log
  | _ => true

/-- Every terminal request of the run was posted when it could be. -/
def Guarded : LeaseLog → Bool
  | [] => true
  | x :: earlier => mayCall earlier x.2.1 && Guarded earlier

/-- The evidence or the state that the lease was made with speaks of success. -/
def StreamingLease.claims (lease : StreamingLease) : Bool := claimsSuccess (terminalPayload lease [])

theorem claimsSuccess_terminal (lease : StreamingLease) (epoch : Str) :
    claimsSuccess (terminalPayload lease epoch) = lease.claims := rfl

/-! ### The steps that are left out -/

/-- Not so: the query could not be stopped at the end, or did not say whether it was active; or the
body failed although the evidence speaks of success. -/
def isClean (lease : StreamingLease) (q : LeaseThread) (s : LeaseSys) (e : SessionCall)
    (r : SessionAnswer e) : Bool :=
  match q, e, r with
  | .session _, .stopQuery _, .error x => LeaseLog.shows showsStopped s.log ||
      (x == .interrupt && !LeaseLog.shows isBodyFailure s.log)
  | .session _, .isActive _, .missing => LeaseLog.shows showsStopped s.log
  | .session _, .body, .raises _ => !lease.claims
  | _, _, _ => true

def Clean (lease : StreamingLease) (_ : Nat) (q : LeaseThread) (s : LeaseSys) (e : SessionCall)
    (r : SessionAnswer e) : Prop := isClean lease q s e r = true

instance {lease : StreamingLease} {t : Nat} {q : LeaseThread} {s : LeaseSys} {e : SessionCall}
    {r : SessionAnswer e} : Decidable (Clean lease t q s e r) := inferInstanceAs (Decidable (_ = true))

/-! ### What the threads promise -/

/-- The bound query is the one the events tell of. -/
structure LeaseInv (s : LeaseSys) : Prop where
  guarded : Guarded s.log = true
  unbound : s.world.query = none → LeaseLog.shows isBind s.log = false

/-- Only the thread that has entered binds a query. -/
def KeepsQuery (t : Nat) (s s' : LeaseSys) : Prop :=
  s.world.owner = some t → s'.world.owner = some t ∧ s'.world.query = s.world.query

/-- A kind of event that has happened stays so. -/
theorem LeaseLog.shows_cons {f : (e : SessionCall) → SessionAnswer e → Bool} {log : LeaseLog}
    (h : log.shows f = true) (x : Nat × LeaseEvent) : LeaseLog.shows f (x :: log) = true := by
  simp only [LeaseLog.shows, List.any_cons, Bool.or_eq_true] at h ⊢
  exact .inr h

theorem LeaseLog.shows_append {f : (e : SessionCall) → SessionAnswer e → Bool} {log later : LeaseLog}
    (h : log.shows f = true) : LeaseLog.shows f (later ++ log) = true := by
  simp only [LeaseLog.shows, List.any_append, Bool.or_eq_true] at h ⊢
  exact .inr h

/-- What another thread may have done meanwhile. -/
structure LeaseRely (t : Nat) (s s' : LeaseSys) : Prop where
  inv : LeaseInv s → LeaseInv s'
  grows : ∃ later, s'.log = later ++ s.log
  keeps : KeepsQuery t s s'

/-- What a thread does to the state. -/
structure LeaseGuar (t : Nat) (s s' : LeaseSys) : Prop where
  inv : LeaseInv s'
  grows : ∃ later, s'.log = later ++ s.log
  keeps : ∀ u, u ≠ t → KeepsQuery u s s'

theorem LeaseRely.refl (t : Nat) (s : LeaseSys) : LeaseRely t s s :=
  ⟨id, ⟨[], rfl⟩, fun h => ⟨h, rfl⟩⟩

theorem LeaseRely.trans {t : Nat} {a b c : LeaseSys} (hab : LeaseRely t a b) (hbc : LeaseRely t b c) :
    LeaseRely t a c := by
  obtain ⟨l, hl⟩ := hab.grows
  obtain ⟨l', hl'⟩ := hbc.grows
  refine ⟨fun h => hbc.inv (hab.inv h), ⟨l' ++ l, by rw [hl', hl, List.append_assoc]⟩, fun h => ?_⟩
  obtain ⟨ho, hq⟩ := hab.keeps h
  obtain ⟨ho', hq'⟩ := hbc.keeps ho
  exact ⟨ho', hq'.trans hq⟩

/-! ### Calls that need no care -/

/-- A call that posts no terminal request, binds no query and does not enter. -/
def Plain : SessionCall → Prop
  | .post .terminal _ => False
  | .setQuery _ => False
  | .enter => False
  | _ => True

section
variable {lease : StreamingLease} {t : Nat} {q : LeaseThread} {s : LeaseSys} {e : SessionCall}
  {r : SessionAnswer e} {w : LeaseObject}

/-- What a plain call leaves as it was. -/
theorem plain_world (hp : Plain e) (h : sessionAnswers t s e r w) :
    w.owner = s.world.owner ∧ w.query = s.world.query := by
  cases e with
  | enter => exact hp.elim
  | setQuery query => exact hp.elim
  | startWorker =>
      rcases r with x | x
      · cases h; exact ⟨rfl, rfl⟩
      · cases h; exact ⟨rfl, rfl⟩
  | getEpoch => obtain ⟨-, rfl⟩ := h; exact ⟨rfl, rfl⟩
  | getQuery => obtain ⟨-, rfl⟩ := h; exact ⟨rfl, rfl⟩
  | begins => obtain ⟨-, rfl⟩ := h; exact ⟨rfl, rfl⟩
  | waitStop => obtain ⟨-, rfl⟩ := h; exact ⟨rfl, rfl⟩
  | join => obtain ⟨-, rfl⟩ := h; exact ⟨rfl, rfl⟩
  | getFailure => obtain ⟨-, rfl⟩ := h; exact ⟨rfl, rfl⟩
  | _ => cases h; exact ⟨rfl, rfl⟩

theorem plain_call (hp : Plain e) (log : LeaseLog) : mayCall log e = true ∧ isBind e r = false := by
  cases e with
  | post action payload =>
      cases action with
      | terminal => exact hp.elim
      | _ => exact ⟨rfl, rfl⟩
  | setQuery query => exact hp.elim
  | _ => exact ⟨rfl, rfl⟩

/-- A call that keeps the query and may be made keeps the invariant. -/
theorem LeaseInv.next (h : LeaseInv s) (hcall : mayCall s.log e = true) (hbind : isBind e r = false)
    (hq : w.query = s.world.query) : LeaseInv (s.next t e r w) := by
  refine ⟨?_, fun hnone => ?_⟩
  · show (mayCall s.log e && Guarded s.log) = true
    rw [hcall, h.guarded]
    rfl
  · have hold := h.unbound (hq.symm.trans hnone)
    simp only [LeaseLog.shows, Sys.next_log, List.any_cons, hbind, Bool.false_or]
    exact hold

theorem LeaseGuar.of_kept (h : LeaseInv s) (hcall : mayCall s.log e = true) (hbind : isBind e r = false)
    (ho : w.owner = s.world.owner) (hq : w.query = s.world.query) : LeaseGuar t s (s.next t e r w) :=
  ⟨h.next hcall hbind hq, ⟨[(t, ⟨e, r⟩)], rfl⟩, fun _ _ howner => ⟨ho.trans howner, hq⟩⟩

theorem plain_guar (h : LeaseInv s) (hp : Plain e) (hstep : sessionAnswers t s e r w) :
    LeaseGuar t s (s.next t e r w) := by
  obtain ⟨ho, hq⟩ := plain_world hp hstep
  obtain ⟨hcall, hbind⟩ := plain_call (r := r) hp s.log
  exact .of_kept h hcall hbind ho hq

/-! ### Assertions of the session -/

/-- The thread has entered; what it knows of the query and of the run is `F`. -/
structure Held (t : Nat) (F : Option Query → LeaseLog → Prop) (s : LeaseSys) : Prop where
  inv : LeaseInv s
  owner : s.world.owner = some t
  known : F s.world.query s.log

/-- What is known stays known as the run goes on. -/
def Lasting (F : Option Query → LeaseLog → Prop) : Prop :=
  ∀ query log later, F query log → F query (later ++ log)

variable {F F' : Option Query → LeaseLog → Prop}

theorem Held.mono (h : Held t F s) (hF : ∀ query log, F query log → F' query log) : Held t F' s :=
  ⟨h.inv, h.owner, hF _ _ h.known⟩

theorem Held.rely {s' : LeaseSys} (h : Held t F s) (hF : Lasting F) (hs : LeaseRely t s s') : Held t F s' := by
  obtain ⟨later, hlater⟩ := hs.grows
  obtain ⟨ho, hq⟩ := hs.keeps h.owner
  refine ⟨hs.inv h.inv, ho, ?_⟩
  rw [hq, hlater]
  exact hF _ _ later h.known

/-- A call that keeps the query, and what is known after it. -/
theorem Held.next (h : Held t F s) (hstep : sessionAnswers t s e r w) (hp : Plain e)
    (hF : F s.world.query s.log → F' s.world.query ((t, ⟨e, r⟩) :: s.log)) : Held t F' (s.next t e r w) := by
  obtain ⟨ho, hq⟩ := plain_world hp hstep
  refine ⟨(plain_guar h.inv hp hstep).inv, ho.trans h.owner, ?_⟩
  show F' w.query _
  rw [hq]
  exact hF h.known

/-! ### The threads, call by call -/

variable {α β : Type}

/-- The rule of assertion for the threads of a lease. -/
abbrev LSat (lease : StreamingLease) (t : Nat) (q : LeaseThread) (p : Prog SessionCall SessionAnswer α)
    (Q : α → LeaseSys → Prop) (s : LeaseSys) : Prop :=
  Sat (((sessionMachine lease).when (Clean lease)).step q) (LeaseRely t) (fun s _ _ s' => LeaseGuar t s s') t p Q s

/-- A program of plain calls keeps what is known. -/
theorem plain_sat {p : Prog SessionCall SessionAnswer α} (hp : Only Plain p) (hF : Lasting F)
    (h : Held t F s) : LSat lease t q p (fun _ s => Held t F s) s := by
  refine hp.sat (fun s s' hs hrely => hs.rely hF hrely) ?_ h
  intro s e r w he hs hstep
  exact ⟨plain_guar hs.inv he hstep.1, hs.next hstep.1 he fun hknown => hF _ _ [_] hknown⟩

/-- A plain call, and what follows it. -/
theorem plain_perform {f : SessionAnswer e → L β} {Q : Except LeaseExn β → LeaseSys → Prop} (hp : Plain e)
    (hF : Lasting F) (h : Held t F s) (hf : ∀ s' r w, Held t F s' → sessionAnswers t s' e r w →
      Clean lease t q s' e r → LSat lease t q (f r) Q (s'.next t e r w)) :
    LSat lease t q (StreamingLease.perform e >>= f : L β) Q s := by
  refine Sat.bind (Sat.perform fun s' hs' r w hstep => ?_)
  have hheld := h.rely hF hs'
  exact ⟨plain_guar hheld.inv hp hstep.1, hf s' r w hheld hstep.1 hstep.2⟩

/-- Plain calls first, and what follows them. -/
theorem plain_bind {x : L α} {f : α → L β} {Q : Except LeaseExn β → LeaseSys → Prop} (hx : Only Plain x)
    (hF : Lasting F) (h : Held t F s) (hf : ∀ a s', Held t F s' → LSat lease t q (f a) Q s')
    (he : ∀ e s', Held t F s' → Q (.error e) s') : LSat lease t q (x >>= f : L β) Q s := by
  refine Sat.bind (Sat.mono ?_ (plain_sat hx hF h))
  rintro (e | a) s' hs'
  · exact he e s' hs'
  · exact hf a s' hs'

/-! ### Plain programs -/

theorem plain_call_acquire {payload : List (Str × Json)} : Only Plain (call .acquire payload) :=
  Only.bind (Only.perform trivial) fun _ => Only.lift

theorem plain_enter : Only Plain (enter lease) :=
  Only.bind plain_call_acquire fun _ => Only.bind Only.lift fun _ => Only.perform trivial

theorem plain_requireEpoch : Only Plain requireEpoch := Only.bind (Only.perform trivial) fun _ => Only.lift

theorem plain_heartbeat : Only Plain (StreamingLease.heartbeat lease) :=
  Only.bind plain_requireEpoch fun _ =>
    Only.bind (Only.bind (Only.perform trivial) fun _ => Only.lift) fun _ => Only.pure

theorem plain_giveUp : Only Plain giveUp := by
  refine Only.bind (Only.perform trivial) fun _ => Only.bind (Only.perform trivial) fun query => ?_
  cases query with
  | none => exact Only.perform trivial
  | some query => exact Only.bind (Only.perform trivial) fun _ => Only.perform trivial

theorem plain_heartbeatLoop {beats : Nat} : Only Plain (heartbeatLoop lease beats) := by
  induction beats with
  | zero => exact Only.bind (Only.perform trivial) fun never => nomatch never
  | succ beats ih =>
      refine Only.bind (Only.perform trivial) fun stopped => ?_
      cases stopped with
      | true => exact Only.pure
      | false =>
          refine Only.bind (Only.attempt plain_heartbeat) fun beat => ?_
          cases beat with
          | ok _ => exact ih
          | error _ => exact plain_giveUp

/-- **The worker** posts no terminal request and binds no query. -/
theorem plain_worker {beats : Nat} : Only Plain (worker lease beats) :=
  Only.bind (Only.perform trivial) fun _ => plain_heartbeatLoop

theorem plain_lateFailure {cleanup primary : Option LeaseExn} : Only Plain (lateFailure cleanup primary) := by
  cases primary with
  | some primary => exact Only.pure
  | none => exact Only.bind (Only.perform trivial) fun _ => Only.pure

/-! ### The body -/

/-- What is known when the body has ended. -/
def bodyKnown (lease : StreamingLease) (outcome : Except LeaseExn Unit) (_ : Option Query) (log : LeaseLog) : Prop :=
  match outcome with
  | .ok _ => log.shows isBodyEnd = true
  | .error _ => log.shows isBodyFailure = true ∧ lease.claims = false

theorem lasting_bodyKnown {outcome : Except LeaseExn Unit} : Lasting (bodyKnown lease outcome) := by
  intro query log later h
  cases outcome with
  | ok _ => exact LeaseLog.shows_append h
  | error _ => exact ⟨LeaseLog.shows_append h.1, h.2⟩

/-- Nothing in particular. -/
def noneKnown (_ : Option Query) (_ : LeaseLog) : Prop := True

theorem lasting_noneKnown : Lasting noneKnown := fun _ _ _ h => h

/-- The session binds a query: no other thread has to know it unchanged. -/
theorem bind_guar {query : Query} {done : Unit} (h : Held t noneKnown s)
    (hstep : sessionAnswers t s (.setQuery query) done w) :
    LeaseGuar t s (s.next t (.setQuery query) done w) ∧ Held t noneKnown (s.next t (.setQuery query) done w) := by
  cases hstep
  have hinv : LeaseInv (s.next t (.setQuery query) done { s.world with query := some query }) := by
    refine ⟨?_, fun hnone => nomatch hnone⟩
    show (mayCall s.log (.setQuery query) && Guarded s.log) = true
    rw [h.inv.guarded]
    rfl
  refine ⟨⟨hinv, ⟨[_], rfl⟩, fun u hu howner => ?_⟩, ⟨hinv, h.owner, trivial⟩⟩
  rw [h.owner] at howner
  exact absurd (Option.some.inj howner).symm hu

theorem sat_bindQuery {query : Query} (h : Held t noneKnown s) :
    LSat lease t q (bindQuery query) (fun _ s => Held t noneKnown s) s := by
  refine plain_perform trivial lasting_noneKnown h fun s' epoch w' h' hstep' _ => ?_
  refine plain_perform trivial lasting_noneKnown (h'.next hstep' trivial id) fun s' bound w' h' hstep' _ => ?_
  have hheld : Held t noneKnown _ := h'.next hstep' trivial id
  split
  · exact Sat.throw hheld
  · refine Sat.bind (Sat.perform fun s'' hs'' r'' w'' hstep'' => ?_)
    obtain ⟨hguar, hnext⟩ := bind_guar (hheld.rely lasting_noneKnown hs'') hstep''.1
    refine ⟨hguar, plain_bind (Only.perform trivial) lasting_noneKnown hnext ?_ fun _ _ hs => hs⟩
    exact fun _ _ hs => Sat.lift hs

theorem sat_runBody {steps n : Nat} (h : Held t noneKnown s) :
    LSat lease t (.session n) (runBody steps) (fun r s => Held t (bodyKnown lease r) s) s := by
  induction steps generalizing s with
  | zero => exact plain_perform trivial lasting_noneKnown h fun _ never _ _ _ _ => nomatch never
  | succ steps ih =>
      refine plain_perform trivial lasting_noneKnown h fun s' step w' h' hstep' hclean => ?_
      cases step with
      | ends => exact Sat.pure (h'.next hstep' trivial fun _ => rfl)
      | raises e =>
          have hclaims : lease.claims = false := by simpa [Clean, isClean] using hclean
          exact Sat.throw (h'.next hstep' trivial fun _ => ⟨rfl, hclaims⟩)
      | bind query =>
          refine Sat.bind (Sat.attempt (Sat.mono ?_ (sat_bindQuery (h'.next hstep' trivial id))))
          exact fun _ _ hs => ih hs
      | stopped => exact ih (h'.next hstep' trivial id)
      | other => exact ih (h'.next hstep' trivial id)

/-! ### The end -/

/-- What is known when the lease is ended. -/
def endKnown (lease : StreamingLease) (query : Option Query) (log : LeaseLog) : Prop :=
  (query = none ∨ log.shows showsStopped = true) ∧ (lease.claims = true → log.shows isBodyEnd = true)

theorem lasting_endKnown : Lasting (endKnown lease) :=
  fun _ _ _ h => ⟨h.1.imp id LeaseLog.shows_append, fun hc => LeaseLog.shows_append (h.2 hc)⟩

theorem bodyKnown.claims {outcome : Except LeaseExn Unit} {query : Option Query} {log : LeaseLog}
    (h : bodyKnown lease outcome query log) : lease.claims = true → log.shows isBodyEnd = true := by
  intro hclaims
  cases outcome with
  | ok _ => exact h
  | error _ => rw [h.2] at hclaims; cases hclaims

/-- The query has stopped by what the events show, or the lease is not ended. -/
theorem sat_stopActive {n : Nat} {query : Query} {outcome : Except LeaseExn Unit} {primary : Option LeaseExn}
    (hprimary : primary = none ↔ ∃ u, outcome = .ok u) (h : Held t (bodyKnown lease outcome) s) :
    LSat lease t (.session n) (stopActive query primary)
      (fun r s => ∀ p, r = .ok p → Held t (endKnown lease) s) s := by
  refine plain_perform trivial lasting_bodyKnown h fun s' active w' h' hstep' hclean => ?_
  cases active with
  | no => exact Sat.pure fun _ _ => h'.next hstep' trivial fun hk => ⟨.inr rfl, hk.claims⟩
  | missing =>
      refine Sat.pure fun _ _ => h'.next hstep' trivial fun hk => ⟨.inr ?_, hk.claims⟩
      exact LeaseLog.shows_cons hclean _
  | raised e => exact Sat.throw fun _ hp => nomatch hp
  | yes =>
      have hyes : Held t (bodyKnown lease outcome) _ :=
        h'.next hstep' trivial fun hk => lasting_bodyKnown _ _ [_] hk
      refine plain_perform trivial lasting_bodyKnown hyes fun s'' stopped w'' h'' hstep'' hclean'' => ?_
      refine Sat.lift fun p hp => ?_
      cases stopped with
      | ok _ => exact h''.next hstep'' trivial fun hk => ⟨.inr rfl, (lasting_bodyKnown _ _ [_] hk).claims⟩
      | error x =>
          refine h''.next hstep'' trivial fun hk => ⟨.inr ?_, (lasting_bodyKnown _ _ [_] hk).claims⟩
          have hleft : LeaseLog.shows showsStopped s''.log = true ∨
              (x = .interrupt ∧ LeaseLog.shows isBodyFailure s''.log = false) := by
            simpa [Clean, isClean] using hclean''
          rcases hleft with hstopped | ⟨rfl, hnofailure⟩
          · exact LeaseLog.shows_cons hstopped _
          · -- the interrupt has ended the session, unless the body had failed
            cases hout : outcome with
            | ok u =>
                have hnone := hprimary.mpr ⟨u, hout⟩
                rw [hnone] at hp
                cases hp
            | error e =>
                rw [hout] at hk
                rw [hk.1] at hnofailure
                cases hnofailure

/-- **The terminal request** is posted when it may be. -/
theorem sat_terminal (h : Held t (endKnown lease) s) :
    LSat lease t q (StreamingLease.terminal lease) (fun _ s => Held t (endKnown lease) s) s := by
  refine plain_bind plain_requireEpoch lasting_endKnown h (fun epoch s' h' => ?_) fun _ _ hs => hs
  have hpost : LSat lease t q (call .terminal (terminalPayload lease epoch))
      (fun _ s => Held t (endKnown lease) s) s' := by
    refine Sat.bind (Sat.perform fun s'' hs'' r w hstep => ?_)
    have hheld := h'.rely lasting_endKnown hs''
    have hw : w = s''.world := hstep.1
    subst hw
    have hsettled : LeaseLog.settled s''.log = true := by
      rcases hheld.known.1 with hnone | hstopped
      · have hunbound := hheld.inv.unbound hnone
        simp only [LeaseLog.settled, hunbound, Bool.not_false, Bool.true_or]
      · simp only [LeaseLog.settled, hstopped, Bool.or_true]
    have hcall : mayCall s''.log (.post .terminal (terminalPayload lease epoch)) = true := by
      show (LeaseLog.settled s''.log && (!lease.claims || LeaseLog.shows isBodyEnd s''.log)) = true
      rw [hsettled, Bool.true_and]
      cases hclaims : lease.claims with
      | false => rfl
      | true => rw [hheld.known.2 hclaims]; rfl
    have hguar := LeaseGuar.of_kept (t := t) (r := r) hheld.inv hcall rfl rfl rfl
    have hnext : Held t (endKnown lease)
        (s''.next t (.post .terminal (terminalPayload lease epoch)) r s''.world) :=
      ⟨hguar.inv, hheld.owner, lasting_endKnown _ _ [_] hheld.known⟩
    exact ⟨hguar, hnext⟩
  refine Sat.bind (Sat.mono ?_ hpost)
  rintro (e | a) s'' hs''
  · exact hs''
  · exact hs''

theorem sat_finalize (h : Held t (endKnown lease) s) :
    LSat lease t q (finalize lease) (fun _ s => Held t (endKnown lease) s) s := by
  refine plain_bind (Only.attempt plain_heartbeat) lasting_endKnown h (fun beat s' h' => ?_) fun _ _ hs => hs
  split
  · exact Sat.throw h'
  · refine Sat.bind (Sat.attempt (Sat.mono ?_ (sat_terminal h')))
    intro ended s'' hs''
    show LSat lease t q _ _ s''
    split
    · exact Sat.pure hs''
    · exact Sat.throw hs''
    · exact Sat.pure hs''
    · exact Sat.pure hs''
    · exact Sat.pure hs''

theorem sat_exit {n : Nat} {outcome : Except LeaseExn Unit} (h : Held t (bodyKnown lease outcome) s) :
    LSat lease t (.session n) (exit lease outcome) (fun _ _ => True) s := by
  -- the end of `exit`, whatever it makes of what it has collected
  have hafter : ∀ {last : Option LeaseExn → L Unit},
      (∀ primary s', LSat lease t (.session n) (last primary) (fun _ _ => True) s') →
      ∀ primary s', Held t (endKnown lease) s' → LSat lease t (.session n) (do
        let cleanup ← finalize lease
        last (← lateFailure cleanup primary) : L Unit) (fun _ _ => True) s' := by
    intro last hlast primary s' h'
    refine Sat.bind (Sat.mono ?_ (sat_finalize h'))
    rintro (e | cleanup) s'' hs''
    · trivial
    · exact plain_bind plain_lateFailure lasting_endKnown hs'' (fun primary s' _ => hlast primary s') fun _ _ _ =>
        trivial
  refine plain_bind (Only.perform trivial) lasting_bodyKnown h (fun _ s' h' => ?_) fun _ _ _ => trivial
  refine plain_bind (Only.perform trivial) lasting_bodyKnown h' (fun _ s' h' => ?_) fun _ _ _ => trivial
  refine plain_bind Only.lift lasting_bodyKnown h' (fun _ s' h' => ?_) fun _ _ _ => trivial
  refine plain_perform trivial lasting_bodyKnown h' fun s' query w' h' hstep' _ => ?_
  cases query with
  | none =>
      refine hafter (fun primary s' => ?_) _ _ (h'.next hstep' trivial fun hk => ⟨.inl hstep'.1.symm, ?_⟩)
      · cases outcome <;> cases primary
        case ok.none => exact Sat.pure trivial
        all_goals exact Sat.throw trivial
      · exact (lasting_bodyKnown _ _ [_] hk).claims
  | some query =>
      have hnext : Held t (bodyKnown lease outcome) _ :=
        h'.next hstep' trivial fun hk => lasting_bodyKnown _ _ [_] hk
      refine Sat.bind (Sat.mono ?_ (sat_stopActive ?_ hnext))
      · rintro (e | primary) s'' hs''
        · trivial
        · refine hafter (fun primary s' => ?_) primary s'' (hs'' primary rfl)
          cases outcome <;> cases primary
          case ok.none => exact Sat.pure trivial
          all_goals exact Sat.throw trivial
      · cases outcome with
        | ok u => exact ⟨fun _ => ⟨u, rfl⟩, fun _ => rfl⟩
        | error e => simp

theorem sat_session {steps n : Nat} (h : LeaseInv s) :
    LSat lease t (.session n) (session lease steps) (fun _ _ => True) s := by
  refine Sat.bind (Sat.perform fun s' hs' r w hstep => ?_)
  obtain ⟨hnone, rfl⟩ := hstep.1
  have hinv := (hs'.inv h).next (t := t) (e := .enter) (r := r) (w := { s'.world with owner := some t }) rfl rfl rfl
  refine ⟨⟨hinv, ⟨[_], rfl⟩, fun u _ howner => ?_⟩, ?_⟩
  · rw [hnone] at howner
    cases howner
  · have hheld : Held t noneKnown (s'.next t .enter r { s'.world with owner := some t }) := ⟨hinv, rfl, trivial⟩
    refine plain_bind plain_enter lasting_noneKnown hheld (fun _ s'' h'' => ?_) fun _ _ _ => trivial
    refine Sat.bind (Sat.attempt (Sat.mono ?_ (sat_runBody h'')))
    exact fun outcome _ hs => sat_exit hs

end

/-! ### Runs -/

/-- The lease object as it is made. -/
def freshLease (w : LeaseObject) : Prop := w = LeaseObject.made

def leaseThreads (lease : StreamingLease) : Protocol ((sessionMachine lease).when (Clean lease)) where
  inv := LeaseInv
  rely := LeaseRely
  guar t _ s _ _ s' := LeaseGuar t s s'
  post _ _ _ _ := True
  trans := LeaseRely.trans
  drift_rely _ _ _ _ hdrift := nomatch hdrift
  drift_inv _ _ _ hdrift := nomatch hdrift
  guar_rely _ u _ _ _ _ _ hne _ hguar := ⟨fun _ => hguar.inv, hguar.grows, hguar.keeps u hne⟩
  guar_inv _ _ _ _ _ _ _ hguar := hguar.inv
  sat t q s hs _ := by
    cases q with
    | session steps => exact sat_session hs
    | worker beats =>
        refine Sat.mono (fun _ _ _ => trivial) (plain_worker.sat (I := LeaseInv) ?_ ?_ hs)
        · exact fun s s' h hrely => hrely.inv h
        · intro s e r w he h hstep
          have hguar := plain_guar h he hstep.1
          exact ⟨hguar, hguar.inv⟩

/-- **An ended lease is proof that nobody writes**, and what it says of the run is so, in every run
in which the query can be stopped and a body that fails is not spoken of as a success. -/
theorem terminal_guarded (lease : StreamingLease)
    {p : Pool LeaseThread LeaseObject SessionCall SessionAnswer (Except LeaseExn Unit)}
    (h : Reachable ((sessionMachine lease).when (Clean lease)) freshLease p) : Guarded p.sys.log = true := by
  refine (h.sound (P := leaseThreads lease) LeaseRely.refl ?_).inv.guarded
  intro w hw
  rw [hw]
  exact ⟨rfl, fun _ => rfl⟩

/-! ### Three sessions -/

/-- What is to come from outside. -/
structure LeaseScene where
  world : LeaseObject
  body : List BodyStep
  active : ActiveReply
  stopping : Except LeaseExn Unit

def epochText : Str := lit "550e8400-e29b-41d4-a716-446655440000"

/-- The service accepts everything. -/
def sceneAnswer (t : Nat) (s : LeaseScene) : (e : SessionCall) → Option (SessionAnswer e × LeaseScene)
  | .enter => if s.world.owner = none then some ((), { s with world.owner := some t }) else none
  | .body =>
      match s.body with
      | [] => none
      | step :: rest => some (step, { s with body := rest })
  | .post .acquire _ => some (.mapping [(lit "epoch", .str epochText)], s)
  | .post _ _ => some (.mapping [], s)
  | .getEpoch => some (s.world.epoch, s)
  | .setEpoch epoch => some ((), { s with world.epoch := some epoch })
  | .getQuery => some (s.world.query, s)
  | .setQuery query => some ((), { s with world.query := some query })
  | .startWorker => some (.ok (), { s with world.worker := some true })
  | .setStop => some ((), { s with world.stop := true })
  | .join => if s.world.worker = some false then none else some (.ok (), s)
  | .isActive _ => some (s.active, s)
  | .stopQuery _ => some (s.stopping, s)
  | .getFailure => some (s.world.failure, s)
  | _ => none

/-- The stage of a lease. -/
def leaseCast (lease : StreamingLease) : Cast (sessionMachine lease) LeaseScene where
  world := LeaseScene.world
  answer t _ _ s e := sceneAnswer t s e
  allowed t q x s e r s' hx h := by
    obtain ⟨world, log⟩ := x
    obtain rfl : world = s.world := hx
    show sessionAnswers t ⟨s.world, log⟩ e r s'.world
    cases e with
    | enter =>
        simp only [sceneAnswer, Option.ite_none_right_eq_some, Option.some.injEq] at h
        obtain ⟨hnone, h⟩ := h
        cases h
        exact ⟨hnone, rfl⟩
    | body =>
        simp only [sceneAnswer] at h
        split at h
        · cases h
        · cases h
          rfl
    | post action payload =>
        cases action with
        | acquire => cases h; rfl
        | heartbeat => cases h; rfl
        | terminal => cases h; rfl
    | join =>
        simp only [sceneAnswer, Option.ite_none_left_eq_some, Option.some.injEq] at h
        obtain ⟨hworker, h⟩ := h
        cases h
        exact ⟨fun hfalse => absurd hfalse hworker, rfl⟩
    | getEpoch => cases h; exact ⟨rfl, rfl⟩
    | getQuery => cases h; exact ⟨rfl, rfl⟩
    | getFailure => cases h; exact ⟨rfl, rfl⟩
    | begins => cases h
    | waitStop => cases h
    | setFailure e => cases h
    | hang => cases h
    | _ => cases h; rfl

/-- A lease whose evidence speaks of success. -/
def successfulLease : StreamingLease where
  checkpointId := lit "streaming-events-v1"
  keyPrefix := lit "events/"
  workload := lit "streaming_ingest-events-spark-iceberg"
  ownerId := lit "jupyter-notebook"
  sessionId := epochText
  terminalState := lit "stopped"
  terminalEvidence := [(lit "successful", .bool true)]
  isValid := by decide

/-- A query is bound and the body ends; the query is active, and can be stopped. -/
def stoppable : LeaseScene := ⟨LeaseObject.made, [.bind ⟨0, true⟩, .ends], .yes, .ok ()⟩

/-- The same, but `query.stop()` raises. -/
def unstoppable : LeaseScene := { stoppable with stopping := .error .other }

/-- The body raises before a query is bound. -/
def failing : LeaseScene := { stoppable with body := [.raises .other] }

abbrev SessionStage := Stage LeaseThread LeaseObject SessionCall SessionAnswer (Except LeaseExn Unit) LeaseScene

/-- One session, to its end. -/
def sessionRun {m : Machine LeaseThread LeaseObject SessionCall SessionAnswer (Except LeaseExn Unit)}
    (cast : Cast m LeaseScene) (scene : LeaseScene) : Option SessionStage :=
  cast.play [.start 0 (.session 3), .upTo 0 fun _ => false] (cast.opening scene)

def isTerminalPost : (e : SessionCall) → SessionAnswer e → Bool
  | .post .terminal _, _ => true
  | _, _ => false

theorem stoppable_fresh :
    freshLease (((leaseCast successfulLease).when (Clean successfulLease)).world stoppable) := rfl

theorem terminal_guarded_stoppable : ∃ p : Pool LeaseThread LeaseObject SessionCall SessionAnswer
      (Except LeaseExn Unit), Reachable ((sessionMachine successfulLease).when (Clean successfulLease)) freshLease p ∧
    LeaseLog.shows isTerminalPost p.sys.log = true ∧ Guarded p.sys.log = true := by
  have hrun : ((sessionRun ((leaseCast successfulLease).when (Clean successfulLease)) stoppable).any fun x =>
      LeaseLog.shows isTerminalPost x.pool.sys.log) = true := by decide
  obtain ⟨x, hx, hposted⟩ := (Option.any_eq_true _ _).mp hrun
  have hreach : Reachable ((sessionMachine successfulLease).when (Clean successfulLease)) freshLease x.pool :=
    Cast.play_reachable stoppable_fresh hx
  exact ⟨x.pool, hreach, hposted, terminal_guarded successfulLease hreach⟩

/-- A query that cannot be stopped: the lease is ended, with evidence of success. -/
theorem terminal_unguarded : ∃ p : Pool LeaseThread LeaseObject SessionCall SessionAnswer
    (Except LeaseExn Unit), Reachable (sessionMachine successfulLease) freshLease p ∧
      Guarded p.sys.log = false := by
  have hrun : ((sessionRun (leaseCast successfulLease) unstoppable).any fun x =>
      !Guarded x.pool.sys.log) = true := by decide
  have hfresh : freshLease ((leaseCast successfulLease).world unstoppable) := by
    simp [unstoppable, stoppable, leaseCast, freshLease]
  obtain ⟨x, hx, hunguarded⟩ := (Option.any_eq_true _ _).mp hrun
  exact ⟨x.pool, Cast.play_reachable hfresh hx, by simpa using hunguarded⟩

/-- So it is after a body that fails. -/
example : ((sessionRun (leaseCast successfulLease) failing).any fun x => !Guarded x.pool.sys.log) = true := by
  decide

end Checkpoints
