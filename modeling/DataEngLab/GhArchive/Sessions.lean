/-
What the sessions of an accepted set of events are.

`Sessionized` says it without windows: each event is there as often as it occurs, and the
rows of an actor, listed by time and identifier, are numbered as sessions should be.  Tied
rows carry one identifier, and two events of one identifier are the same event
(`Valid.consistent`), so the listing has no choice in it, and neither have the annotations,
each of which is determined by the row before.
-/
import DataEngLab.GhArchive.Transforms

namespace GhArchive

open Lib

/-! ### Rows and events -/

/-- An event whose required texts are not blank. -/
def Event.nonBlank (e : Event) : Prop :=
  trim e.id ≠ [] ∧ trim e.type ≠ [] ∧ trim e.actorLogin ≠ [] ∧ trim e.repoName ≠ []

/-- What validation establishes of the events. -/
structure Valid (events : List Event) : Prop where
  nonempty : events ≠ []
  nonBlank : ∀ e ∈ events, e.nonBlank
  consistent : ∀ a ∈ events, ∀ b ∈ events, a.id = b.id → a = b

section
variable (e : Event)

@[simp] theorem cell_id : eventsSchema.cell "id" e.row = .string e.id := rfl
end

/-- The annotations of a partition, from the value and the total before it. -/
def annotateFrom (boundary : Int → Option Int → Int) : Option Int → Int → List Event → List Session
  | _, _, [] => []
  | before, total, e :: rest =>
      ⟨e, before, boundary e.createdAt before, total + boundary e.createdAt before⟩ ::
        annotateFrom boundary (some e.createdAt) (total + boundary e.createdAt before) rest

theorem annotate_eq (boundary : Int → Option Int → Int) (p : List Event) :
    annotate boundary p = annotateFrom boundary none 0 p := by
  suffices ∀ (before : Option Int) (total : Int),
      (p.zip ((lag Event.createdAt before p).zip (((p.zip (lag Event.createdAt before p)).map fun x =>
        boundary x.1.createdAt x.2).zip (cumulative total ((p.zip (lag Event.createdAt before p)).map fun x =>
          boundary x.1.createdAt x.2))))).map (fun x => (⟨x.1, x.2.1, x.2.2.1, x.2.2.2⟩ : Session)) =
        annotateFrom boundary before total p from this none 0
  induction p with
  | nil => intro before total; rfl
  | cons e rest ih =>
      intro before total
      simp only [lag, cumulative, List.zip_cons_cons, List.map_cons, annotateFrom]
      exact congrArg _ (ih (some e.createdAt) (total + boundary e.createdAt before))

/-- The seconds between two rows, each clock read in whole seconds. -/
def gap (a b : Session) : Int := unixTimestamp b.event.createdAt - unixTimestamp a.event.createdAt

/-- Whether a session begins at `b`, the row after `a`. -/
def begins (a b : Session) : Int := if gap a b > 1800 then 1 else 0

/-- A row and the one after it. -/
structure Follows (a b : Session) : Prop where
  previous : b.previousCreatedAt = some a.event.createdAt
  boundary : b.newSession = begins a b
  number : b.sessionId = a.sessionId + begins a b

/-- The rows of one actor, as they should be. -/
structure Numbered (l : List Session) : Prop where
  sorted : (l.map Session.event).Pairwise Event.Le
  first : ∀ s, l.head? = some s → s.previousCreatedAt = none ∧ s.newSession = 1 ∧ s.sessionId = 1
  next : l.IsChain Follows

/-- The annotations are determined by the events and their order. -/
theorem follows_eq : ∀ {l : List Session} {a : Session}, (a :: l).IsChain Follows →
    l = annotateFrom newSession (some a.event.createdAt) a.sessionId (l.map Session.event) := by
  intro l
  induction l with
  | nil => intro a _; rfl
  | cons b rest ih =>
      intro a h
      obtain ⟨hab, hrest⟩ := List.isChain_cons_cons.mp h
      have hflag : newSession b.event.createdAt (some a.event.createdAt) = begins a b := by
        simp [newSession, begins, gap]
      rw [List.map_cons, annotateFrom, hflag, ← hab.number, ← ih hrest]
      congr 1
      obtain ⟨e, previous, flag, id⟩ := b
      have h₁ := hab.previous
      have h₂ := hab.boundary
      rw [Session.mk.injEq]
      exact ⟨rfl, h₁, h₂, rfl⟩

theorem Numbered.eq_annotate {l : List Session} (h : Numbered l) :
    l = annotate newSession (l.map Session.event) := by
  rw [annotate_eq]
  cases l with
  | nil => rfl
  | cons a rest =>
      obtain ⟨hprevious, hflag, hid⟩ := h.first a rfl
      have hrest := follows_eq h.next
      rw [hid] at hrest
      rw [List.map_cons, annotateFrom]
      obtain ⟨e, previous, flag, id⟩ := a
      simp only at hprevious hflag hid hrest ⊢
      subst hprevious hflag hid
      rw [show newSession e.createdAt none = 1 from rfl, Int.zero_add, ← hrest]

/-- Two rows share a number exactly when no gap between them is too long. -/
def SharesNumbers (l : List Session) : Prop :=
  ∀ (d i : Nat) (hd : i + d < l.length), l[i].sessionId = l[i + d].sessionId ↔
    ∀ k (hk : k < d), gap l[i + k] l[i + k + 1] ≤ 1800

theorem Numbered.numbers_le {l : List Session} (h : Numbered l) : ∀ (d i : Nat) (hd : i + d < l.length),
    l[i].sessionId ≤ l[i + d].sessionId ∧
      (l[i].sessionId = l[i + d].sessionId ↔
        ∀ k (hk : k < d), gap (l[i + k]) (l[i + k + 1]) ≤ 1800) := by
  intro d
  induction d with
  | zero => intro i hd; simp
  | succ d ih =>
      intro i hd
      obtain ⟨hle, hiff⟩ := ih i (by omega)
      have hstep : Follows l[i + d] l[i + d + 1] := List.isChain_iff_getElem.mp h.next (i + d) hd
      have hnumber := hstep.number
      have hbegins : begins l[i + d] l[i + d + 1] = if gap l[i + d] l[i + d + 1] > 1800 then 1 else 0 := rfl
      simp only [← Nat.add_assoc]
      refine ⟨by split at hbegins <;> omega, ?_⟩
      constructor
      · intro heq k hk
        by_cases hgap : gap l[i + d] l[i + d + 1] > 1800
        · rw [if_pos hgap] at hbegins
          omega
        · rw [if_neg hgap] at hbegins
          rcases Nat.lt_succ_iff_lt_or_eq.mp hk with hlt | rfl
          · exact hiff.mp (by omega) k hlt
          · omega
      · intro hall
        have hgap := hall d (Nat.lt_succ_self d)
        rw [if_neg (by omega)] at hbegins
        have hid := hiff.mpr fun k hk => hall k (by omega)
        omega

theorem Numbered.shared {l : List Session} (h : Numbered l) : SharesNumbers l :=
  fun d i hd => (h.numbers_le d i hd).2

/-! ### The specification -/

/-- The rows of `events` with the annotations of their sessions. -/
structure Sessionized (events : List Event) (sessions : List Session) : Prop where
  conserved : (sessions.map Session.event).Perm events
  numbered : ∀ actor, ∃ listing, listing.Perm (sessions.filter (·.event.actorLogin = actor)) ∧
    Numbered listing ∧ SharesNumbers listing

/-- Rows that tie in the order of the window are one event. -/
theorem Valid.anti {events : List Event} (h : Valid events) :
    ∀ a ∈ events, ∀ b ∈ events, a.Le b → b.Le a → a = b := by
  intro a ha b hb hab hba
  refine h.consistent a ha b hb ?_
  rcases hab with hlt | ⟨ht, hid⟩
  · rcases hba with hlt' | ⟨ht', -⟩ <;> omega
  · rcases hba with hlt' | ⟨-, hid'⟩
    · omega
    · exact le_antisymm hid hid'

variable {events : List Event}

/-- **There is one way to annotate.** -/
theorem Sessionized.perm (hv : Valid events) {ss ss' : List Session} (h : Sessionized events ss)
    (h' : Sessionized events ss') : ss.Perm ss' := by
  refine List.perm_iff_count.mpr fun s => ?_
  obtain ⟨l, hl, hn, -⟩ := h.numbered s.event.actorLogin
  obtain ⟨l', hl', hn', -⟩ := h'.numbered s.event.actorLogin
  have hfilter : ∀ {xs : List Session}, (xs.map Session.event).Perm events →
      ((xs.filter (·.event.actorLogin = s.event.actorLogin)).map Session.event).Perm
        (events.filter (·.actorLogin = s.event.actorLogin)) := by
    intro xs hxs
    have hperm := hxs.filter fun e => decide (e.actorLogin = s.event.actorLogin)
    rw [List.filter_map] at hperm
    exact hperm
  have hle : (l.map Session.event).Perm (events.filter (·.actorLogin = s.event.actorLogin)) :=
    (hl.map _).trans (hfilter h.conserved)
  have hle' : (l'.map Session.event).Perm (events.filter (·.actorLogin = s.event.actorLogin)) :=
    (hl'.map _).trans (hfilter h'.conserved)
  have hsame : l.map Session.event = l'.map Session.event := by
    refine (hle.trans hle'.symm).eq_of_pairwise (fun a b ha hb => ?_) hn.sorted hn'.sorted
    exact hv.anti a (List.mem_of_mem_filter (hle.mem_iff.mp ha)) b
      (List.mem_of_mem_filter (hle'.mem_iff.mp hb))
  have heq : l = l' := by rw [hn.eq_annotate, hn'.eq_annotate, hsame]
  have hcount : ∀ xs : List Session,
      (xs.filter (·.event.actorLogin = s.event.actorLogin)).count s = xs.count s := fun xs =>
    List.count_filter (by simp)
  rw [← hcount ss, ← hcount ss', ← hl.count_eq, ← hl'.count_eq, heq]

/-! ### The check -/

section
variable (s : Session)

@[simp] theorem session_cell_id : sessionsSchema.cell "id" s.row = .string s.event.id := rfl
@[simp] theorem session_cell_type : sessionsSchema.cell "type" s.row = .string s.event.type := rfl
@[simp] theorem session_cell_actorLogin :
    sessionsSchema.cell "actor_login" s.row = .string s.event.actorLogin := rfl
@[simp] theorem session_cell_repoName :
    sessionsSchema.cell "repo_name" s.row = .string s.event.repoName := rfl
@[simp] theorem session_cell_createdAt :
    sessionsSchema.cell "created_at" s.row = .timestamp s.event.createdAt := rfl
@[simp] theorem session_cell_newSession :
    sessionsSchema.cell "new_session" s.row = .integer s.newSession := rfl
@[simp] theorem session_cell_sessionId :
    sessionsSchema.cell "session_id" s.row = .long s.sessionId := rfl

end

/-- Rows without doubles are compared as they are. -/
theorem key_of_conforms {schema : Schema} (hd : ∀ f ∈ schema, f.type ≠ .double) {row : Row}
    (hr : Conforms schema row) : Row.key row = row := by
  have hcell : ∀ {type : DataType} {c : Cell}, type ≠ .double → Cell.fits type c = true → c.key = c := by
    intro type c hne hfits
    cases c with
    | double d => cases type <;> first | exact absurd rfl hne | cases hfits
    | _ => rfl
  unfold Row.key
  induction hr with
  | nil => rfl
  | cons hfits _ ih =>
      rw [List.map_cons, hcell (hd _ (List.mem_cons_self ..)) hfits,
        ih fun f hf => hd f (List.mem_cons_of_mem _ hf)]

/-- Session values are in range, from the first row on. -/
theorem Numbered.values {l : List Session} (h : Numbered l) {s : Session} (hs : s ∈ l) :
    (s.newSession = 0 ∨ s.newSession = 1) ∧ 1 ≤ s.sessionId := by
  obtain ⟨i, hi, rfl⟩ := List.mem_iff_getElem.mp hs
  have hflag : ∀ a b, begins a b = 0 ∨ begins a b = 1 := fun a b => by
    unfold begins
    split <;> simp
  have hpos : 0 < l.length := by omega
  obtain ⟨-, hzero, hone⟩ := h.first l[0] (by rw [List.head?_eq_getElem?, List.getElem?_eq_getElem hpos])
  have hle := (h.numbers_le i 0 (by omega)).1
  simp only [Nat.zero_add] at hle
  refine ⟨?_, by omega⟩
  cases i with
  | zero => exact .inr hzero
  | succ j =>
      have hstep : Follows l[j] l[j + 1] := List.isChain_iff_getElem.mp h.next j hi
      rw [hstep.boundary]
      exact hflag _ _

theorem Sessionized.values {ss : List Session} (h : Sessionized events ss) {s : Session} (hs : s ∈ ss) :
    (s.newSession = 0 ∨ s.newSession = 1) ∧ 1 ≤ s.sessionId := by
  obtain ⟨l, hl, hn, -⟩ := h.numbered s.event.actorLogin
  exact hn.values (hl.mem_iff.mpr (List.mem_filter.mpr ⟨hs, by simp⟩))

/-! ### A frame that holds the sessions -/

section
variable {f frame : Frame} {ss : List Session}

end

instance : Std.Total Event.Le where
  total a b := by
    rcases lt_trichotomy a.createdAt b.createdAt with h | h | h
    · exact .inl (.inl h)
    · exact (le_total a.id b.id).imp (fun hid => .inr ⟨h, hid⟩) fun hid => .inr ⟨h.symm, hid⟩
    · exact .inr (.inl h)

instance : IsTrans Event Event.Le where
  trans a b c hab hbc := by
    rcases hab with h | ⟨h, hid⟩
    · rcases hbc with h' | ⟨h', -⟩
      · exact .inl (h.trans h')
      · exact .inl (h' ▸ h)
    · rcases hbc with h' | ⟨h', hid'⟩
      · exact .inl (h ▸ h')
      · exact .inr ⟨h.trans h', hid.trans hid'⟩

end GhArchive
