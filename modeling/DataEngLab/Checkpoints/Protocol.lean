/-
What the threads of the service promise one another.

A thread may count on four things while others run: its own history, the locks it holds,
the lease and terminal record of a checkpoint whose lock it holds, and every record that is
written once.  In return each of its calls is `Orderly`: a lease or terminal record is
written only by the owner of the lock, and any other record only where there is none.

`Setting` is a thread with the promise its calls have to keep, and the lemmas about it are
the rules for the methods of the gateway and for `withLock`.
-/
import DataEngLab.Checkpoints.Calls

namespace Checkpoints

open Lib

/-- The checkpoint of a record that is replaced, whose lock protects it. -/
def ControlKey.checkpoint? : ControlKey → Option Str
  | .lease c => some c
  | .terminal c => some c
  | _ => none

theorem ControlKey.checkpoint?_of_mutable {key : ControlKey} (h : key.isMutable = true) :
    ∃ c, key.checkpoint? = some c := by
  cases key with
  | lease c => exact ⟨c, rfl⟩
  | terminal c => exact ⟨c, rfl⟩
  | _ => cases h

theorem ControlKey.mutable_of_checkpoint? {key : ControlKey} {c : Str}
    (h : key.checkpoint? = some c) : key.isMutable = true := by
  cases key with
  | lease c => rfl
  | terminal c => rfl
  | _ => cases h

/-! ### What a call does to the world -/

@[simp] theorem World.owner_setLock (w : World) (c c' : Str) (v : Option (Nat × Nat)) :
    (w.setLock c v).owner c' = if c' = c then v.map Prod.fst else w.owner c' := by
  simp only [World.owner, World.setLock]
  split <;> rfl

@[simp] theorem World.store_setLock (w : World) (c : Str) (v : Option (Nat × Nat)) :
    (w.setLock c v).store = w.store := rfl

@[simp] theorem World.store_put (w : World) (key : ControlKey) (v : Stored) :
    (w.put key v).store = w.store.put key v := rfl

@[simp] theorem World.owner_put (w : World) (key : ControlKey) (v : Stored) (c : Str) :
    (w.put key v).owner c = w.owner c := rfl

section
variable {t : Nat} {s : State} {w : World}

theorem answers_hold {c : Str} {r : Answer (.hold c)} (h : answers t s (.hold c) r w) :
    (s.world.owner c = none ∨ s.world.owner c = some t) ∧ ∃ n, w = s.world.setLock c (some (t, n)) := by
  simp only [answers] at h
  split at h
  · rename_i hnone
    exact ⟨.inl (by rw [World.owner, hnone]; rfl), 1, h⟩
  · rename_i u n hsome
    obtain ⟨rfl, hw⟩ := h
    exact ⟨.inr (by rw [World.owner, hsome]; rfl), n + 1, hw⟩

theorem answers_release {c : Str} {r : Answer (.release c)} (h : answers t s (.release c) r w) :
    s.world.owner c = some t ∧
      (w = s.world.setLock c none ∨ ∃ n, w = s.world.setLock c (some (t, n))) := by
  simp only [answers] at h
  split at h
  · exact h.elim
  · rename_i u n hsome
    obtain ⟨rfl, hw⟩ := h
    refine ⟨by rw [World.owner, hsome]; rfl, ?_⟩
    split at hw
    · exact .inl hw
    · exact .inr ⟨n - 1, hw⟩

theorem parseEtag_isEtag {v : Json} {etag : Str} (h : parseEtag v = some etag) : isEtag etag = true := by
  cases v with
  | str s =>
      simp only [parseEtag, Option.ite_none_right_eq_some, Option.some.injEq] at h
      exact h.2 ▸ h.1
  | _ => cases h

/-- A write that takes effect is stored under an ETag of its form. -/
theorem answers_put_etag {key : ControlKey} {body : Bytes} {condition : PutCondition}
    {r : Answer (.putObject key body condition)}
    (h : answers t s (.putObject key body condition) r w) :
    w = s.world ∨ ∃ etag, isEtag etag = true ∧ condition.Holds (s.world.store.get key) ∧
      w = s.world.put key ⟨body, etag⟩ := by
  simp only [answers] at h
  split at h
  · split at h
    · rename_i hetag
      exact .inr ⟨_, parseEtag_isEtag hetag, h⟩
    · rcases h with h | ⟨etag, hetag, h⟩
      · exact .inl h
      · exact .inr ⟨etag, hetag, h⟩
  · rcases h with h | ⟨etag, hetag, h⟩
    · exact .inl h
    · exact .inr ⟨etag, hetag, h⟩

theorem answers_put {key : ControlKey} {body : Bytes} {condition : PutCondition}
    {r : Answer (.putObject key body condition)}
    (h : answers t s (.putObject key body condition) r w) :
    w = s.world ∨ ∃ etag, condition.Holds (s.world.store.get key) ∧ w = s.world.put key ⟨body, etag⟩ := by
  rcases answers_put_etag h with h | ⟨etag, -, h⟩
  · exact .inl h
  · exact .inr ⟨etag, h⟩

theorem putReply_isEtag {r : Reply Json} {etag : Str} (h : putReply r = .ok etag) : isEtag etag = true := by
  cases r with
  | ok v => exact parseEtag_isEtag (orElse_eq_ok.mp h)
  | raised => cases h
  | interrupt => cases h

/-- A write that succeeds has taken effect under the ETag it returns. -/
theorem answers_put_ok {key : ControlKey} {body : Bytes} {condition : PutCondition}
    {r : Answer (.putObject key body condition)} {etag : Str}
    (h : answers t s (.putObject key body condition) r w) (hr : putReply r = .ok etag) :
    condition.Holds (s.world.store.get key) ∧ w = s.world.put key ⟨body, etag⟩ := by
  unfold putReply at hr
  split at hr
  · rename_i v
    have hv : parseEtag v = some etag := by simpa only [orElse_eq_ok] using hr
    simp only [answers, hv] at h
    exact h
  · cases hr
  · cases hr

theorem answers_read {e : Call} {r : Answer e} (he : e.reads = true) (h : answers t s e r w) :
    w = s.world := by
  cases e with
  | getObject key =>
      cases r with
      | ok r => exact h.1
      | clientError code =>
          cases code with
          | none => exact h
          | some code => exact h.1
      | _ => exact h
  | listAttempts op maxKeys =>
      cases r with
      | ok page =>
          cases page with
          | none => exact h
          | some page => exact h.1
      | _ => exact h
  | hold c => cases he
  | release c => cases he
  | deleteObjects keys => cases he
  | putObject key body condition => cases he
  | _ => exact h

theorem answers_delete {keys : List Str} {r : Answer (.deleteObjects keys)}
    (h : answers t s (.deleteObjects keys) r w) : w = s.world := h

/-- What a call can do to the world. -/
theorem answers_cases {e : Call} {r : Answer e} (h : answers t s e r w) :
    w = s.world ∨
      (∃ c v, (e = .hold c ∨ e = .release c) ∧ (v = none ∨ ∃ n, v = some (t, n)) ∧
        (s.world.owner c = none ∨ s.world.owner c = some t) ∧ w = s.world.setLock c v) ∨
      ∃ key body condition etag, e = .putObject key body condition ∧
        condition.Holds (s.world.store.get key) ∧ w = s.world.put key ⟨body, etag⟩ := by
  cases e with
  | hold c =>
      obtain ⟨howner, n, hw⟩ := answers_hold h
      exact .inr (.inl ⟨c, _, .inl rfl, .inr ⟨n, rfl⟩, howner, hw⟩)
  | release c =>
      obtain ⟨howner, hw | ⟨n, hw⟩⟩ := answers_release h
      · exact .inr (.inl ⟨c, none, .inr rfl, .inl rfl, .inr howner, hw⟩)
      · exact .inr (.inl ⟨c, _, .inr rfl, .inr ⟨n, rfl⟩, .inr howner, hw⟩)
  | putObject key body condition =>
      rcases answers_put h with hw | ⟨etag, hc, hw⟩
      · exact .inl hw
      · exact .inr (.inr ⟨key, body, condition, etag, rfl, hc, hw⟩)
  | deleteObjects keys => exact .inl h
  | _ => exact .inl (answers_read rfl h)

end

/-! ### The promises -/

/-- What thread `t` may count on while others run. -/
structure Undisturbed (t : Nat) (s s' : State) : Prop where
  history : s'.history t = s.history t
  owner : ∀ c, s'.world.owner c = some t ↔ s.world.owner c = some t
  held : ∀ key c, key.checkpoint? = some c → s.world.owner c = some t →
    s'.world.store.get key = s.world.store.get key
  once : ∀ key v, key.isMutable = false → s.world.store.get key = some v →
    s'.world.store.get key = some v

theorem Undisturbed.refl (t : Nat) (s : State) : Undisturbed t s s :=
  ⟨rfl, fun _ => Iff.rfl, fun _ _ _ _ => rfl, fun _ _ _ h => h⟩

theorem Undisturbed.trans {t : Nat} {a b c : State} (h : Undisturbed t a b) (h' : Undisturbed t b c) :
    Undisturbed t a c where
  history := h'.history.trans h.history
  owner d := (h'.owner d).trans (h.owner d)
  held key d hk hd := (h'.held key d hk ((h.owner d).mpr hd)).trans (h.held key d hk hd)
  once key v hk hv := h'.once key v hk (h.once key v hk hv)

/-- What every call of thread `t` promises. -/
structure Orderly (t : Nat) (s : State) (e : Call) (r : Answer e) (s' : State) : Prop where
  answered : answers t s e r s'.world
  held : ∀ key body condition c, e = .putObject key body condition → key.checkpoint? = some c →
    s.world.owner c = some t
  once : ∀ key body condition, e = .putObject key body condition → key.isMutable = false →
    condition = .ifNoneMatch

/-- Orderly calls leave the other threads undisturbed. -/
theorem Orderly.undisturbed {t u : Nat} {s : State} {e : Call} {r : Answer e} {w : World} (hut : u ≠ t)
    (h : Orderly t s e r (s.next t e r w)) : Undisturbed u s (s.next t e r w) := by
  have hhistory := Sys.next_history_ne s hut e r w
  have hother : ∀ c, s.world.owner c = some t → s.world.owner c ≠ some u := by
    intro c hc hu
    rw [hc] at hu
    exact hut (Option.some.inj hu).symm
  rcases answers_cases h.answered with hw | ⟨c, v, -, hv, howner, hw⟩ | ⟨key, body, condition, etag, he, hc, hw⟩
  · simp only [Sys.next_world] at hw
    subst hw
    exact ⟨hhistory, fun _ => Iff.rfl, fun _ _ _ _ => rfl, fun _ _ _ h => h⟩
  · simp only [Sys.next_world] at hw
    subst hw
    refine ⟨hhistory, fun d => ?_, fun _ _ _ _ => rfl, fun _ _ _ h => h⟩
    simp only [Sys.next_world, World.owner_setLock]
    split
    · rename_i hd
      subst hd
      have hs : s.world.owner d ≠ some u := by
        rcases howner with h0 | h0
        · rw [h0]; simp
        · exact hother d h0
      have hv' : v.map Prod.fst ≠ some u := by
        rcases hv with rfl | ⟨n, rfl⟩
        · simp
        · simpa using fun hc => hut hc.symm
      simp [hs, hv']
    · exact Iff.rfl
  · simp only [Sys.next_world] at hw
    subst hw
    refine ⟨hhistory, fun _ => Iff.rfl, fun key' c' hk' hc' => ?_, fun key' v' hk' hv' => ?_⟩
    · simp only [Sys.next_world, World.store_put, Store.get_put]
      split
      · rename_i hkey
        subst hkey
        exact absurd hc' (hother c' (h.held _ _ _ c' he hk'))
      · rfl
    · simp only [Sys.next_world, World.store_put, Store.get_put]
      split
      · rename_i hkey
        subst hkey
        rw [h.once _ _ _ he hk', PutCondition.Holds, hv'] at hc
        cases hc
      · exact hv'

theorem ControlKey.op_mutable {key : ControlKey} {op : Str} (h : key.op = some op) :
    key.isMutable = false := by
  cases key with
  | lease c => cases h
  | terminal c => cases h
  | _ => rfl

/-- A write that no program but those of the lease manager goes beyond creates a record. -/
theorem Call.keeps_put {key : ControlKey} {body : Bytes} {condition : PutCondition}
    (h : (Call.putObject key body condition).keeps) :
    condition = .ifNoneMatch ∧ key.isMutable = false := by
  rcases h with ⟨op, (h | ⟨key', body', heq, hop⟩) | ⟨keys, h⟩⟩ | ⟨c, h⟩ | ⟨c, h⟩
  · cases h
  · cases heq
    exact ⟨rfl, ControlKey.op_mutable hop⟩
  all_goals cases h

/-- Every call that is not a write of a lease or terminal record is orderly. -/
theorem Orderly.of_keeps {t : Nat} {s : State} {e : Call} {r : Answer e} {w : World} (he : e.keeps)
    (h : answers t s e r w) : Orderly t s e r (s.next t e r w) := by
  refine ⟨h, fun key body condition c hput hkey => ?_, fun key body condition hput hkey => ?_⟩
  · subst hput
    have hno := (Call.keeps_put he).2
    rw [ControlKey.mutable_of_checkpoint? hkey] at hno
    cases hno
  · subst hput
    exact (Call.keeps_put he).1

/-! ### Settings -/

/-- A thread, how its calls are answered, and what they have to promise. -/
structure Setting where
  thread : Nat
  step : Answers World Call Answer
  guar : Guarantee World Call Answer
  answered : ∀ {s e r w}, step thread s e r w → answers thread s e r w
  /-- Nothing has to be promised of a call that reads. -/
  read : ∀ {s e r w}, Call.reads e = true → step thread s e r w → guar s e r (s.next thread e r w)

namespace Setting

variable (X : Setting)

/-- What holds after a program that thread `X.thread` runs from a state. -/
abbrev Does {α : Type} (p : Prog Call Answer α) (Q : α → State → Prop) (s : State) : Prop :=
  Sat X.step (Undisturbed X.thread) X.guar X.thread p Q s

/-- An assertion that neither the other threads nor a call that reads can break. -/
structure Kept (I : State → Prop) : Prop where
  rely : ∀ {s s'}, I s → Undisturbed X.thread s s' → I s'
  read : ∀ {s e r w}, I s → Call.reads e = true → X.step X.thread s e r w → I (s.next X.thread e r w)

variable {X} {I J : State → Prop}

namespace Kept

theorem const (p : Prop) : X.Kept fun _ => p := ⟨fun h _ => h, fun h _ _ => h⟩

theorem and (hI : X.Kept I) (hJ : X.Kept J) : X.Kept fun s => I s ∧ J s :=
  ⟨fun h hs => ⟨hI.rely h.1 hs, hJ.rely h.2 hs⟩,
    fun h he hstep => ⟨hI.read h.1 he hstep, hJ.read h.2 he hstep⟩⟩

theorem all {ι : Sort*} {I : ι → State → Prop} (h : ∀ i, X.Kept (I i)) : X.Kept fun s => ∀ i, I i s :=
  ⟨fun hs hu i => (h i).rely (hs i) hu, fun hs he hstep i => (h i).read (hs i) he hstep⟩

theorem imp (p : Prop) (hI : X.Kept I) : X.Kept fun s => p → I s :=
  ⟨fun hs hu hp => hI.rely (hs hp) hu, fun hs he hstep hp => hI.read (hs hp) he hstep⟩

/-- What others keep is kept when it is about the world. -/
theorem of_world {P : World → Prop}
    (h : ∀ {s s'}, P s.world → Undisturbed X.thread s s' → P s'.world) :
    X.Kept fun s => P s.world := by
  refine ⟨h, fun {s e r w} hs he hstep => ?_⟩
  rw [Sys.next_world, answers_read he (X.answered hstep)]
  exact hs

theorem owns (c : Str) : X.Kept fun s => s.world.owner c = some X.thread :=
  of_world (P := fun w => w.owner c = some X.thread) fun h hs => (hs.owner c).mpr h

/-- A record that is written once. -/
theorem stored {key : ControlKey} (h : key.isMutable = false) (v : Stored) :
    X.Kept fun s => s.world.store.get key = some v :=
  of_world (P := fun w => w.store.get key = some v) fun hv hs => hs.once key v h hv

/-- The record of a checkpoint whose lock the thread holds. -/
theorem held {key : ControlKey} {c : Str} (h : key.checkpoint? = some c) (o : Option Stored) :
    X.Kept fun s => s.world.owner c = some X.thread ∧ s.world.store.get key = o :=
  of_world (P := fun w => w.owner c = some X.thread ∧ w.store.get key = o) fun hs hu =>
    ⟨(hu.owner c).mpr hs.1, (hu.held key c h hs.1).trans hs.2⟩

/-- Something the thread has called. -/
theorem called (x : Event Call Answer) : X.Kept fun s => x ∈ s.history X.thread := by
  refine ⟨fun h hs => ?_, fun h _ _ => ?_⟩
  · rw [hs.history]
    exact h
  · rw [Sys.next_history]
    exact List.mem_cons_of_mem _ h

end Kept

/-! ### Rules -/

/-- A program that reads keeps what is kept. -/
theorem reading {α : Type} {x : M α} (hx : Reading x) (hI : X.Kept I) {s : State} (hs : I s) :
    X.Does x (fun _ s => I s) s :=
  Only.sat (I := I) (fun _ _ h hu => hI.rely h hu)
    (fun _ _ _ _ he h hstep => ⟨X.read he hstep, hI.read h he hstep⟩) hx hs

/-- A call that reads: what is kept still holds, and the call is in the history. -/
theorem perform {e : Call} (he : e.reads = true) (hI : X.Kept I) {s : State} (hs : I s)
    {Q : Except Exn (Answer e) → State → Prop}
    (hQ : ∀ s r w, I s → X.step X.thread s e r w → I (s.next X.thread e r w) →
      Q (.ok r) (s.next X.thread e r w)) :
    X.Does (Checkpoints.perform e) Q s := by
  refine Sat.perform fun s' hu r w hstep => ⟨X.read he hstep, ?_⟩
  have hs' := hI.rely hs hu
  exact hQ s' r w hs' hstep (hI.read hs' he hstep)

end Setting

end Checkpoints
