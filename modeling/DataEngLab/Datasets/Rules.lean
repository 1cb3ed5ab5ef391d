/-
How threads work on one store.

Whatever happens to the store is a run of clock ticks and of writes that take effect, so
two moments are ordered by `Onward`, and what has been written is never unwritten.  A
discipline adds what every thread promises of its writes and an invariant that follows; a
thread relies on both, and on nothing else.

The rules for the functions of the client say what a thread knows when one of them has
returned: a snapshot is what was stored at some moment since the function was called.
-/
import DataEngLab.Datasets.S3
import DataEngLab.Lib.Party

namespace Datasets

open Lib

/-! ### The order of moments -/

section
variable (bytesOf : Str → Bytes)

inductive WorldStep : World → World → Prop where
  | tick {w w' : World} (h : drift w w') : WorldStep w w'
  | write {w w' : World} {t : Nat} {loc : Location} {body : Bytes} {metadata : List (Str × Str)}
      {condition : PutCondition} (h : Applied bytesOf t w loc body metadata condition w') :
      WorldStep w w'

abbrev Onward : World → World → Prop := Relation.ReflTransGen (WorldStep bytesOf)

variable {bytesOf} {w w' : World}

theorem Onward.now (h : Onward bytesOf w w') : w.now ≤ w'.now := by
  induction h with
  | refl => exact Nat.le_refl _
  | tail _ hstep ih =>
      refine Nat.le_trans ih ?_
      cases hstep with
      | tick h =>
          obtain ⟨now, hle, rfl⟩ := h
          exact hle
      | write h =>
          obtain ⟨-, etag, -, rfl⟩ := h
          exact Nat.le_refl _

theorem Onward.tagged (h : Onward bytesOf w w') (hw : w.Tagged bytesOf) : w'.Tagged bytesOf := by
  induction h with
  | refl => exact hw
  | tail _ hstep ih =>
      cases hstep with
      | tick h =>
          obtain ⟨now, -, rfl⟩ := h
          exact ih
      | write h => exact h.tagged ih

/-- What is stored at a location is what was written there last. -/
def LastWritten (w' w : World) (loc : Location) : List Write → Prop
  | [] => w'.objects loc = w.objects loc
  | x :: _ => ∃ o, w'.objects loc = some o ∧ o.body = x.body

/-- What was written at a location since. -/
theorem Onward.writesAt (h : Onward bytesOf w w') (loc : Location) :
    ∃ new, w'.writesAt loc = new ++ w.writesAt loc ∧ LastWritten w' w loc new := by
  induction h with
  | refl => exact ⟨[], rfl, rfl⟩
  | @tail v _ _ hstep ih =>
      obtain ⟨new, hnew, hlast⟩ := ih
      cases hstep with
      | tick h =>
          obtain ⟨now, -, rfl⟩ := h
          refine ⟨new, hnew, ?_⟩
          cases new with
          | nil => exact hlast
          | cons x new => exact hlast
      | @write t l body metadata condition h =>
          obtain ⟨-, etag, -, rfl⟩ := h
          by_cases hl : loc = l
          · subst hl
            refine ⟨⟨t, loc, body, v.objects loc⟩ :: new, ?_, _, World.put_self .., rfl⟩
            rw [World.put_writesAt_self, hnew]
            rfl
          · refine ⟨new, by rw [World.put_writesAt_ne _ _ _ _ hl, hnew], ?_⟩
            cases new with
            | nil => exact (World.put_ne _ _ _ _ hl).trans hlast
            | cons x new =>
                obtain ⟨o, ho, hbody⟩ := hlast
                exact ⟨o, (World.put_ne _ _ _ _ hl).trans ho, hbody⟩

theorem Onward.writes (h : Onward bytesOf w w') : ∃ new, w'.writes = new ++ w.writes := by
  induction h with
  | refl => exact ⟨[], rfl⟩
  | tail _ hstep ih =>
      obtain ⟨new, hnew⟩ := ih
      cases hstep with
      | tick h =>
          obtain ⟨now, -, rfl⟩ := h
          exact ⟨new, hnew⟩
      | write h =>
          obtain ⟨-, etag, -, rfl⟩ := h
          exact ⟨_ :: new, by rw [World.put_writes, hnew]; rfl⟩

theorem Onward.of_answers {t : Nat} {s : State} {e : Call} {r : Answer e} {w : World}
    (h : answers bytesOf t s e r w) : Onward bytesOf s.world (s.next t e r w).world := by
  rcases answers_cases h with rfl | ⟨loc, body, metadata, condition, -, happlied⟩
  · exact .refl
  · exact .single (.write happlied)

end

/-! ### Disciplines -/

def Call.isPut : Call → Bool
  | .putObject .. => true
  | _ => false

/-- A write only where `free` says. -/
def Call.putsAt (free : Location → Prop) : Call → Prop
  | .putObject loc _ _ _ => free loc
  | _ => True

/-- What every thread promises of its calls, given its request, and an invariant of the whole.  Where
`free` says, a thread may write as it likes; where `still` says, nothing that is stored is replaced.
`given` is assumed of the answers, and `mine` are calls that a thread may make at any time. -/
structure Discipline (bytesOf : Str → Bytes) (Q : Type) where
  inv : State → Prop
  good : Nat → Q → Guarantee World Call Answer
  given : Nat → Q → State → (e : Call) → Answer e → Prop
  free : Location → Prop
  still : Location → Prop
  mine : Call → Prop
  mine_free : ∀ {e}, mine e → e.putsAt free
  inv_drift : ∀ {s w}, inv s → drift s.world w → inv (s.withWorld w)
  inv_good : ∀ {t q s e r w}, inv s → answers bytesOf t s e r w → good t q s e r (s.next t e r w) →
    inv (s.next t e r w)
  good_free : ∀ {t q s e r w}, e.putsAt free → answers bytesOf t s e r w → good t q s e r (s.next t e r w)
  good_idle : ∀ {t q s e r}, answers bytesOf t s e r s.world → good t q s e r (s.next t e r s.world)
  good_still : ∀ {t q s e r w loc o}, answers bytesOf t s e r w → good t q s e r (s.next t e r w) →
    still loc → s.world.objects loc = some o → w.objects loc = some o

namespace Discipline

variable {bytesOf : Str → Bytes} {Q A : Type} (D : Discipline bytesOf Q)

/-- One state lies before another. -/
structure order (s s' : State) : Prop where
  onward : Onward bytesOf s.world s'.world
  inv : D.inv s → D.inv s'
  still : ∀ loc o, D.still loc → s.world.objects loc = some o → s'.world.objects loc = some o
  log : s.log ⊆ s'.log

/-- Meanwhile the thread has written nothing but where it is free to. -/
structure unwritten (t : Nat) (s s' : State) : Prop extends D.order s s' where
  own : ∀ x ∈ s'.world.writes, x.thread = t → x ∈ s.world.writes ∨ D.free x.location

/-- The others have done something, and the thread itself has made no calls but those it may make at
any time. -/
structure rely (t : Nat) (s s' : State) : Prop extends D.unwritten t s s' where
  calls : ∀ x, (t, x) ∈ s'.log → (t, x) ∈ s.log ∨ D.mine x.1

/-- The call was answered by the store, and is as promised. -/
def guar (t : Nat) (q : Q) : Guarantee World Call Answer := fun s e r s' =>
  (∃ w, answers bytesOf t s e r w ∧ s' = s.next t e r w) ∧ D.good t q s e r s'

variable {D}

theorem order_refl (s : State) : D.order s s := ⟨.refl, id, fun _ _ _ ho => ho, List.Subset.refl _⟩

theorem order_trans {a b c : State} (h : D.order a b) (h' : D.order b c) : D.order a c where
  onward := h.onward.trans h'.onward
  inv hi := h'.inv (h.inv hi)
  still loc o hs ho := h'.still loc o hs (h.still loc o hs ho)
  log := List.Subset.trans h.log h'.log

theorem unwritten_refl (t : Nat) (s : State) : D.unwritten t s s := ⟨order_refl s, fun _ hx _ => .inl hx⟩

theorem unwritten_trans {t : Nat} {a b c : State} (h : D.unwritten t a b) (h' : D.unwritten t b c) :
    D.unwritten t a c where
  toorder := order_trans h.toorder h'.toorder
  own x hx ht := by
    rcases h'.own x hx ht with hb | hfree
    · exact h.own x hb ht
    · exact .inr hfree

theorem rely_refl (t : Nat) (s : State) : D.rely t s s := ⟨unwritten_refl t s, fun _ hx => .inl hx⟩

theorem rely_trans {t : Nat} {a b c : State} (h : D.rely t a b) (h' : D.rely t b c) : D.rely t a c where
  tounwritten := unwritten_trans h.tounwritten h'.tounwritten
  calls x hx := by
    rcases h'.calls x hx with hb | hmine
    · exact h.calls x hb
    · exact .inr hmine

theorem rely.order {t : Nat} {a b : State} (h : D.rely t a b) : D.order a b := h.toorder

theorem guar_order {t : Nat} {q : Q} {s s' : State} {e : Call} {r : Answer e} (h : D.guar t q s e r s') :
    D.order s s' := by
  obtain ⟨⟨w, hw, rfl⟩, hgood⟩ := h
  exact ⟨.of_answers hw, fun hi => D.inv_good hi hw hgood, fun loc o hs ho => D.good_still hw hgood hs ho,
    List.subset_cons_self _ _⟩

/-- What a call adds to what has been written. -/
theorem writes_of_answers {t : Nat} {s : State} {e : Call} {r : Answer e} {w : World} {x : Write}
    (h : answers bytesOf t s e r w) (hx : x ∈ w.writes) :
    x ∈ s.world.writes ∨ x.thread = t ∧ ∀ free, Call.putsAt free e → free x.location := by
  rcases answers_cases h with rfl | ⟨loc, body, metadata, condition, rfl, happlied⟩
  · exact .inl hx
  · obtain ⟨-, etag, -, rfl⟩ := happlied
    rcases List.mem_cons.mp hx with rfl | hold
    · exact .inr ⟨rfl, fun free hfree => hfree⟩
    · exact .inl hold

theorem guar_rely {t u : Nat} {q : Q} {s s' : State} {e : Call} {r : Answer e} (hu : u ≠ t)
    (h : D.guar t q s e r s') : D.rely u s s' := by
  have horder := guar_order h
  obtain ⟨⟨w, hw, rfl⟩, -⟩ := h
  refine ⟨⟨horder, fun x hx hxu => ?_⟩, fun x hx => ?_⟩
  · rcases writes_of_answers hw hx with hold | ⟨ht, -⟩
    · exact .inl hold
    · exact absurd (hxu.symm.trans ht) hu
  · rcases List.mem_cons.mp hx with heq | hold
    · exact absurd (congrArg Prod.fst heq) hu
    · exact .inl hold

theorem unwritten_free {t : Nat} {q : Q} {s : State} {e : Call} {r : Answer e} {w : World}
    (he : e.putsAt D.free) (h : answers bytesOf t s e r w) :
    D.guar t q s e r (s.next t e r w) ∧ D.unwritten t s (s.next t e r w) := by
  have hguar : D.guar t q s e r (s.next t e r w) := ⟨⟨w, h, rfl⟩, D.good_free he h⟩
  refine ⟨hguar, guar_order hguar, fun x hx _ => ?_⟩
  rcases writes_of_answers h hx with hold | ⟨-, hfree⟩
  · exact .inl hold
  · exact .inr (hfree _ he)

theorem guar_calm {t : Nat} {q : Q} {s : State} {e : Call} {r : Answer e} {w : World} (he : D.mine e)
    (h : answers bytesOf t s e r w) : D.guar t q s e r (s.next t e r w) ∧ D.rely t s (s.next t e r w) := by
  obtain ⟨hguar, hun⟩ := unwritten_free (q := q) (D.mine_free he) h
  refine ⟨hguar, hun, fun x hx => ?_⟩
  rcases List.mem_cons.mp hx with heq | hold
  · cases heq
    exact .inr he
  · exact .inl hold

/-- Thread `t`, serving `q`. -/
def party (D : Discipline bytesOf Q) (t : Nat) (q : Q) : Party World Call Answer where
  thread := t
  step := fun t s e r w => answers bytesOf t s e r w ∧ D.given t q s e r
  rely := D.rely t
  order := D.order
  guar := D.guar t q
  calm := D.mine
  refl := rely_refl t
  trans := rely_trans
  order_trans := order_trans
  rely_order := rely.order
  quiet he hstep := guar_calm he hstep.1
  after _ hg := guar_order hg

/-- Requests and the code that serves them. -/
def machine (bytesOf : Str → Bytes) (code : Q → Prog Call Answer A) : Machine Q World Call Answer A where
  code := code
  step := fun _ => answers bytesOf
  drift := drift

theorem drift_rely (t : Nat) {s : State} {w : World} (hd : drift s.world w) :
    D.rely t s (s.withWorld w) := by
  refine ⟨⟨⟨.single (.tick hd), fun hi => D.inv_drift hi hd, ?_, List.Subset.refl _⟩, ?_⟩,
    fun _ hx => .inl hx⟩
  · obtain ⟨now, -, rfl⟩ := hd
    exact fun _ _ _ ho => ho
  · obtain ⟨now, -, rfl⟩ := hd
    exact fun _ hx _ => .inl hx

/-- A discipline that the code of every request keeps, on a machine that answers as the discipline
assumes. -/
def protocol (D : Discipline bytesOf Q) {m : Machine Q World Call Answer A}
    (hstep : ∀ q t s e r w, m.step q t s e r w → answers bytesOf t s e r w ∧ D.given t q s e r)
    (hdrift : ∀ w w', m.drift w w' → drift w w') (post : Nat → Q → A → State → Prop)
    (sat : ∀ t q s, D.inv s → s.history t = [] → (D.party t q).Does (m.code q) (post t q) s) :
    Protocol m where
  inv := D.inv
  rely := D.rely
  guar := D.guar
  post := post
  trans := rely_trans
  drift_rely t _ _ _ hd := drift_rely t (hdrift _ _ hd)
  drift_inv _ _ hi hd := D.inv_drift hi (hdrift _ _ hd)
  guar_rely _ _ _ _ _ _ _ hne _ hg := guar_rely hne hg
  guar_inv _ _ _ _ _ _ hi hg := (guar_order hg).inv hi
  sat t q s hi hnil := Sat.restrict (fun s e r w h => hstep q t s e r w h) (sat t q s hi hnil)

/-! ### What a thread knows -/

variable {t : Nat} {q : Q} {s s' : State} {loc : Location}

theorem order_tagged (h : D.order s s') (hs : s.world.Tagged bytesOf) : s'.world.Tagged bytesOf :=
  h.onward.tagged hs

/-- A call that writes nothing but where the thread is free to. -/
theorem keeps_free {e : Call} (he : e.putsAt D.free) : (D.party t q).Keeps s e :=
  fun _ _ _ _ hstep => (unwritten_free he hstep.1).1

/-- A program that writes nothing but where the thread is free to. -/
theorem does_free {α : Type} {p : Prog Call Answer α} (h : Only (Call.putsAt D.free) p) :
    (D.party t q).Does p (fun _ s' => D.unwritten t s s') s := by
  refine Only.sat (I := fun s' => D.unwritten t s s')
    (fun _ _ hs hs' => unwritten_trans hs hs'.tounwritten) ?_ h (unwritten_refl t s)
  intro s' e r w he hs hstep
  obtain ⟨hguar, hs'⟩ := unwritten_free (q := q) he hstep.1
  exact ⟨hguar, unwritten_trans hs hs'⟩

theorem putsAt_of_reads {free : Location → Prop} {e : Call} (h : e.isPut = false) : e.putsAt free := by
  cases e with
  | putObject loc body metadata condition => cases h
  | _ => trivial

/-- A program that only reads. -/
theorem does_reads {α : Type} {p : Prog Call Answer α} (h : Only (fun e => e.isPut = false) p) :
    (D.party t q).Does p (fun _ s' => D.unwritten t s s') s :=
  does_free (h.mono fun _ => putsAt_of_reads)

/-- The same of a program of which more is known. -/
theorem does_and_reads {α : Type} {p : Prog Call Answer α} {P : α → State → Prop}
    (h : (D.party t q).Does p P s) (hp : Only (fun e => e.isPut = false) p) :
    (D.party t q).Does p (fun a s' => P a s' ∧ D.unwritten t s s') s :=
  Sat.weaken (fun _ _ _ _ hg => hg.1) (Sat.and h (does_reads hp))

/-- The snapshot is what is stored. -/
def Stored (loc : Location) (snapshot : ControlSnapshot) (s : State) : Prop :=
  snapshot.serverDate = s.world.now ∧
    ∃ o, s.world.objects loc = some o ∧ o.body = snapshot.body ∧ o.etag = snapshot.etag

theorem Stored.bytesOf_etag {snapshot : ControlSnapshot} (h : Stored loc snapshot s)
    (hs : s.world.Tagged bytesOf) : bytesOf snapshot.etag = snapshot.body := by
  obtain ⟨-, o, ho, hbody, hetag⟩ := h
  rw [← hetag, ← hbody]
  exact hs loc o ho

/-- The snapshot was stored at some moment since `s`. -/
def Saw (D : Discipline bytesOf Q) (t : Nat) (q : Q) (s : State) (loc : Location)
    (snapshot : ControlSnapshot) (s' : State) : Prop :=
  (D.party t q).Between s (Stored loc snapshot) s'

section
variable {snapshot : ControlSnapshot}

theorem Saw.bytesOf_etag (h : D.Saw t q s loc snapshot s') (hs : s.world.Tagged bytesOf) :
    bytesOf snapshot.etag = snapshot.body := by
  obtain ⟨s₀, h₀, hstored, -⟩ := h
  exact hstored.bytesOf_etag (order_tagged h₀ hs)

theorem Saw.date_le (h : D.Saw t q s loc snapshot s') : snapshot.serverDate ≤ s'.world.now := by
  obtain ⟨s₀, -, hstored, h₁⟩ := h
  rw [hstored.1]
  exact h₁.onward.now

end

/-! ### Reading -/

theorem calm_responseServerDate (header : DateHeader) :
    Only (fun e => e.isPut = false) (responseServerDate header) := by
  cases header with
  | missing => exact .throw
  | invalid => exact .throw
  | date d => exact .bind (.perform rfl) fun now => .ite (fun _ => .throw) fun _ => .pure

theorem ends_responseServerDate (header : DateHeader) :
    Ends (fun r => ∀ d, r = .ok d → header = .date d) (responseServerDate header) := by
  cases header with
  | missing => exact .throw fun d hd => nomatch hd
  | invalid => exact .throw fun d hd => nomatch hd
  | date d =>
      refine .bind (.perform fun _ _ h => nomatch h) fun now => Ends.ite (fun _ => .throw fun d hd => nomatch hd)
        fun _ => ?_
      refine .pure fun d' hd => ?_
      cases hd
      rfl

theorem responseEtag_eq_ok {etag : Option Str} {e : Str} (h : responseEtag etag = .ok e) :
    etag = some e := by
  unfold responseEtag at h
  split at h
  · cases h
    rfl
  · cases h

theorem readBounded_eq_ok {read : BodyRead} {b : Bytes} (h : readBounded read = .ok b) :
    read = .bytes b := by
  cases read with
  | raises f => cases h
  | nonBytes => cases h
  | bytes b' =>
      simp only [readBounded] at h
      split at h
      · cases h
      · cases h
        rfl

theorem calm_controlSnapshot (r : GetResponse) :
    Only (fun e => e.isPut = false) (controlSnapshot r) := by
  refine .bind (.bind (calm_responseServerDate r.date) fun d => .bind .lift fun etag =>
    .bind .lift fun body => .pure) fun snapshot => ?_
  cases r.close with
  | none => exact .pure
  | some f => exact .throw

/-- What a snapshot is made of. -/
theorem ends_controlSnapshot (r : GetResponse) :
    Ends (fun x => ∀ snapshot, x = .ok snapshot → r.date = .date snapshot.serverDate ∧
      r.etag = some snapshot.etag ∧ r.body = .bytes snapshot.body) (controlSnapshot r) := by
  have hinner : Ends (fun x => ∀ snapshot, x = .ok snapshot → r.date = .date snapshot.serverDate ∧
      r.etag = some snapshot.etag ∧ r.body = .bytes snapshot.body) (do
        let serverDate ← responseServerDate r.date
        let etag ← lift (responseEtag r.etag)
        let body ← lift (readBounded r.body)
        return ⟨body, etag, serverDate⟩ : S ControlSnapshot) := by
    refine Ends.prog_bind (ends_responseServerDate r.date) ?_
    rintro (e | d) hd
    · exact fun _ h => nomatch h
    cases hetag : responseEtag r.etag with
    | error e => exact fun _ h => nomatch h
    | ok etag =>
        cases hbody : readBounded r.body with
        | error e => exact fun _ h => nomatch h
        | ok body =>
            rintro snapshot h
            cases h
            exact ⟨hd d rfl, responseEtag_eq_ok hetag, readBounded_eq_ok hbody⟩
  refine Ends.prog_bind hinner ?_
  rintro (e | snapshot) h
  · exact fun _ h => nomatch h
  · cases r.close with
    | some f => exact fun _ h => nomatch h
    | none =>
        intro snapshot' h'
        cases h'
        exact h snapshot rfl

theorem calm_getObject (loc : Location) : Only (fun e => e.isPut = false) (getObject loc) := by
  refine .bind (.perform rfl) fun reply => ?_
  cases reply with
  | ok r => exact .pure
  | malformed => exact .throw
  | raised f => cases f <;> exact .throw

theorem calm_readControlObject (loc : Location) :
    Only (fun e => e.isPut = false) (readControlObject loc) :=
  .bind (calm_getObject loc) calm_controlSnapshot

/-- A response that is what is stored. -/
def Answers (loc : Location) (r : GetResponse) (s : State) : Prop :=
  ∃ o, s.world.objects loc = some o ∧ r.Genuine s.world.now o

theorem Answers.stored {r : GetResponse} {snapshot : ControlSnapshot} (h : Answers loc r s)
    (hr : r.date = .date snapshot.serverDate ∧ r.etag = some snapshot.etag ∧
      r.body = .bytes snapshot.body) : Stored loc snapshot s := by
  obtain ⟨o, ho, hgen⟩ := h
  obtain ⟨hdate, hetag, hbody⟩ := hr
  exact ⟨hgen.date _ hdate, o, ho, (hgen.body _ hbody).symm, (hgen.etag _ hetag).symm⟩

/-- The answer of the store to a read. -/
theorem answered_get {reply : GetReply} (h : (D.party t q).Answered s (.getObject loc) reply s') :
    ∀ r, reply = .ok r → (D.party t q).Between s (Answers loc r) s' := by
  rintro r rfl
  obtain ⟨s₀, w, hs, hstep, -, -, hs'⟩ := h
  exact ⟨s₀, hs.order, hstep.1.2, hs'⟩

theorem does_getObject : (D.party t q).Does (getObject loc)
    (fun x s' => ∀ r, x = .ok r → (D.party t q).Between s (Answers loc r) s') s := by
  refine Party.perform_bind (keeps_free trivial) fun reply s' hs hans => ?_
  have hget := answered_get hans
  cases reply with
  | ok r =>
      refine Party.pure fun r' hr' => ?_
      cases hr'
      exact hget r rfl
  | malformed => exact Party.throw fun r h => nomatch h
  | raised f => cases f <;> exact Party.throw fun r h => nomatch h

/-- Taking a snapshot of a response. -/
theorem does_controlSnapshot {r : GetResponse} {s₁ : State}
    (h : (D.party t q).Between s₁ (Answers loc r) s) : (D.party t q).Does (controlSnapshot r)
      (fun x s' => ∀ snapshot, x = .ok snapshot → D.Saw t q s₁ loc snapshot s') s := by
  refine ((does_reads (calm_controlSnapshot r)).ends (ends_controlSnapshot r)).mono ?_
  rintro x s' ⟨hs', hx⟩ snapshot hsnap
  exact (h.later hs'.toorder).mono fun s₀ hans => hans.stored (hx snapshot hsnap)

theorem does_readControlObject : (D.party t q).Does (readControlObject loc)
    (fun x s' => ∀ snapshot, x = .ok snapshot → D.Saw t q s loc snapshot s') s := by
  refine Party.bind does_getObject (fun r s' _ hr => does_controlSnapshot (hr r rfl)) ?_
  intro e s' _ _ snapshot h
  cases h

/-! ### Writing -/

/-- The write keeps what its thread promises, whenever it is made from `s` on. -/
def MayPut (D : Discipline bytesOf Q) (t : Nat) (q : Q) (s : State) (loc : Location) (body : Bytes)
    (metadata : List (Str × Str)) (condition : PutCondition) : Prop :=
  ∀ s' w, D.rely t s s' → Applied bytesOf t s'.world loc body metadata condition w →
    ∀ r, D.good t q s' (.putObject loc body metadata condition) r (s'.next t _ r w)

theorem MayPut.keeps {body : Bytes} {metadata : List (Str × Str)} {condition : PutCondition}
    (h : D.MayPut t q s loc body metadata condition) :
    (D.party t q).Keeps s (.putObject loc body metadata condition) := by
  intro s' r w hs hstep
  have hans : answers bytesOf t s' (.putObject loc body metadata condition) r w := hstep.1
  refine ⟨⟨w, hans, rfl⟩, ?_⟩
  rcases answers_cases hans with rfl | ⟨l, b, m, c, heq, happlied⟩
  · exact D.good_idle hans
  · cases heq
    exact h s' w hs happlied r

theorem does_reconcileControlWrite {body : Bytes} : (D.party t q).Does (reconcileControlWrite loc body)
    (fun x s' => ∀ snapshot, x = .ok snapshot → snapshot.body = body ∧ D.Saw t q s loc snapshot s') s := by
  refine Party.bind does_readControlObject (fun snapshot s' _ hsaw => ?_) ?_
  · by_cases hb : snapshot.body ≠ body
    · rw [if_pos hb]
      exact Party.throw fun snapshot h => nomatch h
    · rw [if_neg hb]
      refine Party.pure fun snapshot' h' => ?_
      cases h'
      exact ⟨not_not.mp hb, hsaw snapshot rfl⟩
  · intro e s' _ _ snapshot h
    cases h

theorem does_readBack {body : Bytes} {date : Option DateHeader} :
    (D.party t q).Does (readBack loc body date)
      (fun x s' => ∀ y, x = .ok y → y.1.body = body ∧ D.Saw t q s loc y.1 s') s := by
  refine Party.bind does_reconcileControlWrite (fun snapshot s' _ hsnap => ?_) ?_
  · refine Party.pure fun y hy => ?_
    cases hy
    exact hsnap snapshot rfl
  · intro e s' _ _ y h
    cases h

/-- A write that returns was read back. -/
theorem does_putControlRequest {body : Bytes} {condition : PutCondition}
    (hput : D.MayPut t q s loc body [] condition) :
    (D.party t q).Does (putControlRequest loc body condition)
      (fun x s' => ∀ y, x = .ok y → y.1.body = body ∧ D.Saw t q s loc y.1 s') s := by
  refine Party.perform_bind hput.keeps fun reply s₁ hs₁ _ => ?_
  have hread : ∀ date, (D.party t q).Does (readBack loc body date)
      (fun x s' => ∀ y, x = .ok y → y.1.body = body ∧ D.Saw t q s loc y.1 s') s₁ := fun date =>
    does_readBack.mono fun x s' h y hy => ⟨(h y hy).1, (h y hy).2.sooner hs₁⟩
  cases reply with
  | ok date => exact hread (some date)
  | malformed =>
      refine Party.bind (hread none) (fun _ s' _ _ => ?_) fun e s' _ _ y h => nomatch h
      exact Party.throw fun y h => nomatch h
  | raised f =>
      refine Party.ite (fun _ => hread none) fun _ => ?_
      exact Party.throw fun y h => nomatch h

end Discipline

end Datasets
