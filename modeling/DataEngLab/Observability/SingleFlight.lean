/-
A resolver wedges exactly when the start of a worker fails.

Whatever the order of calls and worker steps, a returned list of addresses is what one
lookup of the call's own endpoint gave, and no two workers run at once.  The slot, too, is
given back: its worker needs at most four steps more, each possible at any time, and after
them the event is set and the slot is empty (`Working.releases`).  All of this fails to
hold in one way.  The slot is filled before the worker is started, so an exception of
`start()` leaves a resolution in the slot that no worker will ever give back.
-/
import DataEngLab.Observability.Resolver

namespace Observability

open Lib

variable {A : Type}

/-! ### One step -/

/-- What one step does to a resolution. -/
inductive Turn (l : Lookup A) : Resolution A → Resolution A → Prop where
  | look (task : Resolution A) (h : task.worker = some .looking) :
      Turn l task { task with lookup := some l, worker := some (if l.escapes then .setting else .storing) }
  | store (task : Resolution A) (h : task.worker = some .storing) :
      Turn l task { task.store with worker := some .setting }
  | set (task : Resolution A) (h : task.worker = some .setting) :
      Turn l task { task with event := true, worker := some .clearing }
  | clear (task : Resolution A) (h : task.worker = some .clearing) :
      Turn l task { task with worker := some .done }

theorem turn_cases {l : Lookup A} {task task' : Resolution A} (h : task.turn l = some task') : Turn l task task' := by
  unfold Resolution.turn at h
  split at h
  · rename_i hw; cases h; exact .look task hw
  · rename_i hw; cases h; exact .store task hw
  · rename_i hw; cases h; exact .set task hw
  · rename_i hw; cases h; exact .clear task hw
  · cases h
  · cases h

variable {w w' : SingleFlightResolver A} {i : Nat} {l : Lookup A}

theorem advance_cases (h : w.advance i l = some w') : ∃ task task', w.resolutions[i]? = some task ∧
    Turn l task task' ∧ w'.resolutions = w.resolutions.set i task' ∧
      w'.active = if task.worker = some .clearing ∧ w.active = some i then none else w.active := by
  obtain ⟨task, htask, h⟩ := Option.bind_eq_some_iff.mp h
  obtain ⟨task', hturn, rfl⟩ := Option.map_eq_some_iff.mp h
  exact ⟨task, task', htask, turn_cases hturn, rfl, rfl⟩

theorem enter_cases (w : SingleFlightResolver A) (endpoint : Endpoint) (s : Start) :
    (w.active = none ∧ w.enter endpoint s = (s.entry w.resolutions.length,
      ⟨w.resolutions ++ [.fresh endpoint s], some w.resolutions.length⟩)) ∨
    (∃ i, w.active = some i ∧ (w.enter endpoint s).2 = w ∧
      ((w.enter endpoint s).1 = .refused ∨ ∃ task, w.resolutions[i]? = some task ∧ task.endpoint = endpoint ∧
        (w.enter endpoint s).1 = .task i)) := by
  unfold SingleFlightResolver.enter
  split
  · rename_i hactive
    exact .inl ⟨hactive, rfl⟩
  · rename_i i hactive
    refine .inr ⟨i, hactive, ?_⟩
    split
    · rename_i task htask
      split
      · rename_i heq
        exact ⟨rfl, .inr ⟨task, htask, heq, rfl⟩⟩
      · exact ⟨rfl, .inl rfl⟩
    · exact ⟨rfl, .inl rfl⟩

/-- The resolution at a place, after one of them has changed. -/
theorem getElem?_set_cases {xs : List (Resolution A)} {j : Nat} {x task : Resolution A}
    (h : (xs.set i x)[j]? = some task) : (j = i ∧ task = x) ∨ (j ≠ i ∧ xs[j]? = some task) := by
  rw [List.getElem?_set] at h
  split at h
  · rename_i hij
    split at h
    · cases h
      exact .inl ⟨hij.symm, rfl⟩
    · cases h
  · rename_i hij
    exact .inr ⟨fun hji => hij hji.symm, h⟩

theorem getElem?_set_of_some {xs : List (Resolution A)} {x task : Resolution A} (h : xs[i]? = some task) :
    (xs.set i x)[i]? = some x := by
  rw [List.getElem?_set, if_pos rfl, if_pos (List.getElem?_eq_some_iff.mp h).1]

/-! ### The invariant -/

/-- What a resolution holds at each place of its worker. -/
structure Resolution.Sound (task : Resolution A) : Prop where
  empty : task.worker = none ∨ task.worker = some .looking ∨ task.worker = some .storing → task.addresses = []
  found : task.addresses ≠ [] → task.lookup = some (.values task.addresses) ∧
    task.addresses.length ≤ maxResolvedAddresses
  signalled : task.worker = some .clearing ∨ task.worker = some .done → task.event = true
  unasked : task.worker = none ∨ task.worker = some .looking → task.lookup = none

theorem Resolution.store_found (task : Resolution A) (h : task.addresses = []) :
    task.store.addresses ≠ [] → task.lookup = some (.values task.store.addresses) ∧
      task.store.addresses.length ≤ maxResolvedAddresses := by
  unfold Resolution.store
  split
  · rename_i values hlookup
    split
    · exact fun hne => absurd h hne
    · rename_i hsize
      simp only [Bool.or_eq_true, decide_eq_true_eq, not_or, not_lt] at hsize
      exact fun _ => ⟨hlookup, hsize.2⟩
  · exact fun hne => absurd h hne

@[simp] theorem Resolution.store_lookup (task : Resolution A) : task.store.lookup = task.lookup := by
  unfold Resolution.store
  split
  · split <;> rfl
  · rfl

@[simp] theorem Resolution.store_endpoint (task : Resolution A) : task.store.endpoint = task.endpoint := by
  unfold Resolution.store
  split
  · split <;> rfl
  · rfl

theorem Turn.sound {task task' : Resolution A} (h : Turn l task task') (hs : task.Sound) : task'.Sound := by
  cases h with
  | look hw =>
      have hempty : task.addresses = [] := hs.empty (.inr (.inl hw))
      refine ⟨fun _ => hempty, fun hne => absurd hempty hne, ?_, ?_⟩
      · cases l.escapes <;> simp
      · cases l.escapes <;> simp
  | store hw =>
      have hempty : task.addresses = [] := hs.empty (.inr (.inr hw))
      refine ⟨by simp, fun hne => ?_, by simp, by simp⟩
      have := task.store_found hempty hne
      rwa [← task.store_lookup] at this
  | set hw => exact ⟨by simp, hs.found, fun _ => rfl, by simp⟩
  | clear hw => exact ⟨by simp, hs.found, fun _ => hs.signalled (.inl hw), by simp⟩

theorem fresh_sound (endpoint : Endpoint) (s : Start) : (Resolution.fresh (A := A) endpoint s).Sound := by
  refine ⟨fun _ => rfl, fun h => absurd rfl h, ?_, fun _ => rfl⟩
  simp only [Resolution.fresh]
  split <;> simp

/-- A started worker that has not come to its end. -/
def Working (w : SingleFlightResolver A) (i : Nat) : Prop :=
  ∃ (task : Resolution A) (at' : WorkerAt), w.resolutions[i]? = some task ∧ task.worker = some at' ∧ at' ≠ .done

/-- The slot holds a resolution whose worker was never started. -/
def Wedged (w : SingleFlightResolver A) : Prop :=
  ∃ i task, w.active = some i ∧ w.resolutions[i]? = some task ∧ task.worker = none

structure Sound (w : SingleFlightResolver A) : Prop where
  resolutions : ∀ (i : Nat) (task : Resolution A), w.resolutions[i]? = some task → task.Sound
  active : ∀ i, w.active = some i → ∃ task, w.resolutions[i]? = some task ∧ task.worker ≠ some .done
  working : ∀ i, Working w i → w.active = some i

theorem Idle.sound (h : Idle w) : Sound w := by
  obtain ⟨hr, ha⟩ := h
  refine ⟨fun i task hi => ?_, fun i hi => ?_, ?_⟩
  · simp [hr] at hi
  · rw [ha] at hi
    cases hi
  · rintro i ⟨task, at', hi, -⟩
    simp [hr] at hi

/-- Looking past a resolution that is appended. -/
theorem getElem?_append_cases {xs : List (Resolution A)} {x task : Resolution A} {j : Nat}
    (h : (xs ++ [x])[j]? = some task) : xs[j]? = some task ∨ (j = xs.length ∧ task = x) := by
  rw [List.getElem?_append] at h
  split at h
  · exact .inl h
  · obtain ⟨hlt, rfl⟩ := List.getElem?_eq_some_iff.mp h
    simp only [List.length_singleton] at hlt
    exact .inr ⟨by omega, by simp⟩

theorem getElem?_append_self (xs : List (Resolution A)) (x : Resolution A) :
    (xs ++ [x])[xs.length]? = some x := by simp

theorem Sound.enter (h : Sound w) (endpoint : Endpoint) (s : Start) : Sound (w.enter endpoint s).2 := by
  rcases enter_cases w endpoint s with ⟨hnone, heq⟩ | ⟨i, -, hsame, -⟩
  · rw [heq]
    refine ⟨fun i task hi => ?_, fun i hi => ?_, ?_⟩
    · rcases getElem?_append_cases hi with hi | ⟨-, rfl⟩
      · exact h.resolutions i task hi
      · exact fresh_sound endpoint s
    · cases hi
      refine ⟨_, getElem?_append_self _ _, ?_⟩
      simp only [Resolution.fresh]
      split <;> simp
    · rintro i ⟨task, at', hi, hat, hne⟩
      rcases getElem?_append_cases hi with hi | ⟨rfl, -⟩
      · have := h.working i ⟨task, at', hi, hat, hne⟩
        rw [hnone] at this
        cases this
      · rfl
  · rw [hsame]
    exact h

/-- A turn is taken by a worker that is at work, and it is at work afterwards unless it took the lock. -/
theorem Turn.worker {task task' : Resolution A} (h : Turn l task task') :
    (∃ at', task.worker = some at' ∧ at' ≠ .done) ∧
      ((task.worker = some .clearing ∧ task'.worker = some .done) ∨
        (task.worker ≠ some .clearing ∧ ∃ at', task'.worker = some at' ∧ at' ≠ .done)) := by
  cases h with
  | look hw => exact ⟨⟨_, hw, by decide⟩, .inr ⟨by simp [hw], _, rfl, by cases l.escapes <;> decide⟩⟩
  | store hw => exact ⟨⟨_, hw, by decide⟩, .inr ⟨by simp [hw], _, rfl, by decide⟩⟩
  | set hw => exact ⟨⟨_, hw, by decide⟩, .inr ⟨by simp [hw], _, rfl, by decide⟩⟩
  | clear hw => exact ⟨⟨_, hw, by decide⟩, .inl ⟨hw, rfl⟩⟩

theorem Sound.advance (h : Sound w) (hstep : w.advance i l = some w') : Sound w' := by
  obtain ⟨task, task', htask, hturn, hres, hactive⟩ := advance_cases hstep
  obtain ⟨⟨at', hat, hne⟩, hnext⟩ := hturn.worker
  have hslot : w.active = some i := h.working i ⟨task, at', htask, hat, hne⟩
  refine ⟨fun j x hj => ?_, fun j hj => ?_, ?_⟩
  · rw [hres] at hj
    rcases getElem?_set_cases hj with ⟨-, rfl⟩ | ⟨-, hj⟩
    · exact hturn.sound (h.resolutions i task htask)
    · exact h.resolutions j x hj
  · rcases hnext with ⟨hclear, -⟩ | ⟨hclear, at'', hat'', hne''⟩
    · rw [hactive, if_pos ⟨hclear, hslot⟩] at hj
      cases hj
    · rw [hactive, if_neg (fun hc => hclear hc.1), hslot] at hj
      cases hj
      refine ⟨task', ?_, ?_⟩
      · rw [hres]
        exact getElem?_set_of_some htask
      · rw [hat'']
        simpa using hne''
  · rintro j ⟨x, at'', hj, hatj, hnej⟩
    rw [hres] at hj
    rcases getElem?_set_cases hj with ⟨rfl, rfl⟩ | ⟨hji, hj⟩
    · rcases hnext with ⟨-, hdone⟩ | ⟨hclear, -⟩
      · rw [hatj] at hdone
        cases hdone
        exact absurd rfl hnej
      · rw [hactive, if_neg (fun hc => hclear hc.1)]
        exact hslot
    · have := h.working j ⟨x, at'', hj, hatj, hnej⟩
      rw [hslot] at this
      cases this
      exact absurd rfl hji

/-- No two workers run at once. -/
theorem Sound.single (h : Sound w) {i j : Nat} (hi : Working w i) (hj : Working w j) : i = j :=
  Option.some.inj ((h.working i hi).symm.trans (h.working j hj))

/-- Unless the resolver is wedged, what is in the slot is being worked on. -/
theorem Sound.working_of_active (h : Sound w) (hw : ¬ Wedged w) {i : Nat} (hi : w.active = some i) : Working w i := by
  obtain ⟨task, htask, hne⟩ := h.active i hi
  cases hat : task.worker with
  | none => exact absurd ⟨i, task, hi, htask, hat⟩ hw
  | some at' => exact ⟨task, at', htask, hat, fun heq => hne (hat.trans (heq ▸ rfl))⟩

/-! ### The slot is given back -/

/-- The event of a resolution is set and the slot is free of it. -/
def Released (w : SingleFlightResolver A) (i : Nat) : Prop :=
  (∃ task, w.resolutions[i]? = some task ∧ task.event = true) ∧ w.active ≠ some i

/-- Any steps, `n` of them by the worker of `i`. -/
inductive Progress (i : Nat) (w : SingleFlightResolver A) : Nat → SingleFlightResolver A → Prop where
  | refl : Progress i w 0 w
  | own {n : Nat} {v u : SingleFlightResolver A} (l : Lookup A) (h : Progress i w n v) (hstep : v.advance i l = some u) :
      Progress i w (n + 1) u
  | other {n : Nat} {v u : SingleFlightResolver A} (j : Nat) (l : Lookup A) (hne : j ≠ i) (h : Progress i w n v)
      (hstep : v.advance j l = some u) : Progress i w n u
  | call {n : Nat} {v : SingleFlightResolver A} (endpoint : Endpoint) (s : Start) (h : Progress i w n v) :
      Progress i w n (v.enter endpoint s).2

/-- The worker of `i` will set the event and empty the slot: whatever happens in between, it makes four
steps at most, and as long as that is not done it can make the next one. -/
def Releases (w : SingleFlightResolver A) (i : Nat) : Prop :=
  ∀ n v, Progress i w n v → n ≤ 4 ∧ ((∀ l, (v.advance i l).isSome = true) ∨ Released v i)

/-- The steps a worker has left, at most. -/
def WorkerAt.left : WorkerAt → Nat
  | .looking => 4
  | .storing => 3
  | .setting => 2
  | .clearing => 1
  | .done => 0

theorem Turn.left {task task' : Resolution A} (h : Turn l task task') : ∃ a b, task.worker = some a ∧
    task'.worker = some b ∧ b.left < a.left := by
  cases h with
  | look hw => exact ⟨_, _, hw, rfl, by cases l.escapes <;> decide⟩
  | store hw => exact ⟨_, _, hw, rfl, by decide⟩
  | set hw => exact ⟨_, _, hw, rfl, by decide⟩
  | clear hw => exact ⟨_, _, hw, rfl, by decide⟩

theorem Progress.left {n : Nat} {v : SingleFlightResolver A} (hs : Sound w) {task : Resolution A} {a : WorkerAt}
    (htask : w.resolutions[i]? = some task) (hat : task.worker = some a) (h : Progress i w n v) :
    Sound v ∧ ∃ task' b, v.resolutions[i]? = some task' ∧ task'.worker = some b ∧ n + b.left ≤ a.left := by
  induction h with
  | refl => exact ⟨hs, task, a, htask, hat, by omega⟩
  | own l _ hstep ih =>
      obtain ⟨hv, x, b, hx, hb, hle⟩ := ih
      obtain ⟨y, z, hy, hturn, hres, -⟩ := advance_cases hstep
      rw [hx] at hy
      cases hy
      obtain ⟨c, d, hc, hd, hlt⟩ := hturn.left
      rw [hb] at hc
      cases hc
      refine ⟨hv.advance hstep, z, d, ?_, hd, by omega⟩
      rw [hres]
      exact getElem?_set_of_some hx
  | other j l hne _ hstep ih =>
      obtain ⟨hv, x, b, hx, hb, hle⟩ := ih
      obtain ⟨y, z, hy, hturn, hres, -⟩ := advance_cases hstep
      refine ⟨hv.advance hstep, x, b, ?_, hb, hle⟩
      rw [hres, List.getElem?_set, if_neg hne]
      exact hx
  | @call n v endpoint s _ ih =>
      obtain ⟨hv, x, b, hx, hb, hle⟩ := ih
      refine ⟨hv.enter endpoint s, x, b, ?_, hb, hle⟩
      rcases enter_cases v endpoint s with ⟨-, heq⟩ | ⟨j, -, hsame, -⟩
      · rw [heq]
        exact List.getElem?_append_left (List.getElem?_eq_some_iff.mp hx).1 ▸ hx
      · rw [hsame]
        exact hx

/-- **A worker gives the slot back.** -/
theorem Working.releases (hs : Sound w) (h : Working w i) : Releases w i := by
  obtain ⟨task, a, htask, hat, -⟩ := h
  intro n v hv
  obtain ⟨hsv, x, b, hx, hb, hle⟩ := hv.left hs htask hat
  have hfour : a.left ≤ 4 := by cases a <;> decide
  refine ⟨by omega, ?_⟩
  by_cases hdone : b = .done
  · subst hdone
    refine .inr ⟨⟨x, hx, (hsv.resolutions i x hx).signalled (.inr hb)⟩, fun hactive => ?_⟩
    obtain ⟨y, hy, hne⟩ := hsv.active i hactive
    rw [hx] at hy
    cases hy
    exact hne hb
  · refine .inl fun l => ?_
    cases b with
    | done => exact absurd rfl hdone
    | _ => simp [SingleFlightResolver.advance, hx, Resolution.turn, hb]

/-! ### What is returned -/

/-- What a resolution keeps while the others go on. -/
def Grows (w w' : SingleFlightResolver A) : Prop :=
  ∀ (i : Nat) (task : Resolution A), w.resolutions[i]? = some task → ∃ task', w'.resolutions[i]? = some task' ∧
    task'.endpoint = task.endpoint ∧ (task.lookup ≠ none → task'.lookup = task.lookup) ∧
      (task.addresses ≠ [] → task'.addresses = task.addresses)

theorem Grows.refl (w : SingleFlightResolver A) : Grows w w :=
  fun _ task h => ⟨task, h, rfl, fun _ => rfl, fun _ => rfl⟩

theorem Grows.trans {u : SingleFlightResolver A} (h : Grows w w') (h' : Grows w' u) : Grows w u := by
  intro i task hi
  obtain ⟨x, hx, hendpoint, hlookup, haddresses⟩ := h i task hi
  obtain ⟨y, hy, hendpoint', hlookup', haddresses'⟩ := h' i x hx
  refine ⟨y, hy, hendpoint'.trans hendpoint, fun hne => ?_, fun hne => ?_⟩
  · rw [hlookup' (by rw [hlookup hne]; exact hne), hlookup hne]
  · rw [haddresses' (by rw [haddresses hne]; exact hne), haddresses hne]

theorem grows_enter (w : SingleFlightResolver A) (endpoint : Endpoint) (s : Start) :
    Grows w (w.enter endpoint s).2 := by
  rcases enter_cases w endpoint s with ⟨-, heq⟩ | ⟨i, -, hsame, -⟩
  · rw [heq]
    intro i task hi
    refine ⟨task, ?_, rfl, fun _ => rfl, fun _ => rfl⟩
    rw [← hi]
    exact List.getElem?_append_left (List.getElem?_eq_some_iff.mp hi).1
  · rw [hsame]
    exact Grows.refl w

theorem Turn.keeps {task task' : Resolution A} (h : Turn l task task') (hs : task.Sound) :
    task'.endpoint = task.endpoint ∧ (task.lookup ≠ none → task'.lookup = task.lookup) ∧
      (task.addresses ≠ [] → task'.addresses = task.addresses) := by
  cases h with
  | look hw => exact ⟨rfl, fun hne => absurd (hs.unasked (.inr hw)) hne, fun _ => rfl⟩
  | store hw =>
      exact ⟨task.store_endpoint, fun _ => task.store_lookup, fun hne => absurd (hs.empty (.inr (.inr hw))) hne⟩
  | set hw => exact ⟨rfl, fun _ => rfl, fun _ => rfl⟩
  | clear hw => exact ⟨rfl, fun _ => rfl, fun _ => rfl⟩

theorem Sound.grows_advance (h : Sound w) (hstep : w.advance i l = some w') : Grows w w' := by
  obtain ⟨task, task', htask, hturn, hres, -⟩ := advance_cases hstep
  intro j x hj
  by_cases hji : j = i
  · subst hji
    rw [htask] at hj
    cases hj
    exact ⟨task', by rw [hres]; exact getElem?_set_of_some htask, hturn.keeps (h.resolutions j task htask)⟩
  · refine ⟨x, ?_, rfl, fun _ => rfl, fun _ => rfl⟩
    rw [hres, List.getElem?_set, if_neg fun hij => hji hij.symm]
    exact hj

/-- The addresses are what a lookup of the endpoint returned, and it returned some. -/
def Found (w : SingleFlightResolver A) (endpoint : Endpoint) (addresses : List A) : Prop :=
  ∃ (i : Nat) (task : Resolution A), w.resolutions[i]? = some task ∧ task.endpoint = endpoint ∧
    task.lookup = some (.values addresses) ∧ addresses ≠ [] ∧ addresses.length ≤ maxResolvedAddresses

theorem Found.grows {endpoint : Endpoint} {addresses : List A} (h : Found w endpoint addresses) (hg : Grows w w') :
    Found w' endpoint addresses := by
  obtain ⟨i, task, hi, hendpoint, hlookup, hne, hle⟩ := h
  obtain ⟨task', hi', hendpoint', hlookup', -⟩ := hg i task hi
  refine ⟨i, task', hi', hendpoint'.trans hendpoint, ?_, hne, hle⟩
  rw [hlookup' (by rw [hlookup]; simp), hlookup]

/-! ### Runs -/

abbrev ResolverSys (A : Type) := Sys (SingleFlightResolver A) Call (Answer A)

/-- The start of a worker failed in the run so far. -/
def StartFailed (s : ResolverSys A) : Prop :=
  ∃ t endpoint, (t, ⟨.enter endpoint, Entry.startRaised false⟩) ∈ s.log

/-- A sound resolver, wedged if and only if the start of a worker failed. -/
structure Inv (s : ResolverSys A) : Prop where
  sound : Sound s.world
  wedged : StartFailed s ↔ Wedged s.world

theorem inv_idle (h : Idle w) : Inv ⟨w, []⟩ where
  sound := h.sound
  wedged := by
    constructor
    · rintro ⟨t, endpoint, hmem⟩
      cases hmem
    · rintro ⟨i, task, hactive, -⟩
      rw [h.2] at hactive
      cases hactive

theorem wedged_advance (h : Sound w) (hstep : w.advance i l = some w') : Wedged w' ↔ Wedged w := by
  obtain ⟨task, task', htask, hturn, hres, hactive⟩ := advance_cases hstep
  obtain ⟨⟨at', hat, hne⟩, hnext⟩ := hturn.worker
  have hslot : w.active = some i := h.working i ⟨task, at', htask, hat, hne⟩
  constructor
  · rintro ⟨j, x, hj, hx, hnone⟩
    rcases hnext with ⟨hclear, -⟩ | ⟨hclear, at'', hat'', -⟩
    · rw [hactive, if_pos ⟨hclear, hslot⟩] at hj
      cases hj
    · rw [hactive, if_neg (fun hc => hclear hc.1), hslot] at hj
      cases hj
      rw [hres, getElem?_set_of_some htask] at hx
      cases hx
      rw [hnone] at hat''
      cases hat''
  · rintro ⟨j, x, hj, hx, hnone⟩
    rw [hslot] at hj
    cases hj
    rw [htask] at hx
    cases hx
    rw [hnone] at hat
    cases hat

theorem Inv.drift {s : ResolverSys A} (h : Inv s) (hstep : s.world.advance i l = some w) :
    Inv (s.withWorld w) where
  sound := h.sound.advance hstep
  wedged := h.wedged.trans (wedged_advance h.sound hstep).symm

theorem startFailed_next {s : ResolverSys A} {t : Nat} {e : Call} {r : Answer A e} :
    StartFailed (s.next t e r w) ↔ StartFailed s ∨
      ∃ endpoint, (⟨e, r⟩ : Event Call (Answer A)) = ⟨.enter endpoint, Entry.startRaised false⟩ := by
  simp only [StartFailed, Sys.next_log, List.mem_cons, Prod.mk.injEq]
  constructor
  · rintro ⟨u, endpoint, ⟨-, heq⟩ | hmem⟩
    · exact .inr ⟨endpoint, heq.symm⟩
    · exact .inl ⟨u, endpoint, hmem⟩
  · rintro (⟨u, endpoint, hmem⟩ | ⟨endpoint, heq⟩)
    · exact ⟨u, endpoint, .inr hmem⟩
    · exact ⟨t, endpoint, .inl ⟨rfl, heq.symm⟩⟩

/-- A call that is not a lock region leaves the resolver alone. -/
theorem Answered.unchanged {e : Call} {r : Answer A e} (h : Answered w e r w') :
    w' = w ∨ ∃ endpoint, e = .enter endpoint := by
  cases e with
  | enter endpoint => exact .inr ⟨endpoint, rfl⟩
  | monotonic => exact .inl h
  | wait i remaining => exact .inl h.1
  | failed i => exact .inl h.1
  | addresses i => exact .inl h.1

theorem wedged_enter {endpoint : Endpoint} {r : Entry} {s : Start} (h : w.enter endpoint s = (r, w')) :
    Wedged w' ↔ Wedged w ∨ r = .startRaised false := by
  rcases enter_cases w endpoint s with ⟨hnone, heq⟩ | ⟨i, hactive, hsame, hentry⟩
  · rw [heq] at h
    cases h
    have hold : ¬ Wedged w := by
      rintro ⟨i, task, hi, -⟩
      rw [hnone] at hi
      cases hi
    constructor
    · rintro ⟨i, task, hi, htask, hworker⟩
      cases hi
      rw [getElem?_append_self] at htask
      cases htask
      refine .inr ?_
      cases s with
      | started => cases hworker
      | raised running =>
          cases running with
          | true => cases hworker
          | false => rfl
    · rintro (hw | hr)
      · exact absurd hw hold
      · cases s with
        | started => cases hr
        | raised running =>
            cases hr
            exact ⟨_, _, rfl, getElem?_append_self _ _, rfl⟩
  · rw [h] at hsame hentry
    cases hsame
    constructor
    · exact .inl
    · rintro (hw | rfl)
      · exact hw
      · rcases hentry with hr | ⟨task, -, -, hr⟩
        · cases hr
        · cases hr

theorem Answered.grows {e : Call} {r : Answer A e} (h : Answered w e r w') : Grows w w' := by
  rcases h.unchanged with rfl | ⟨endpoint, rfl⟩
  · exact Grows.refl _
  · obtain ⟨st, hst⟩ := h
    have hw : w' = (w.enter endpoint st).2 := by rw [hst]
    rw [hw]
    exact grows_enter w endpoint st

theorem Inv.act {s : ResolverSys A} (h : Inv s) {t : Nat} {e : Call} {r : Answer A e}
    (hstep : Answered s.world e r w) : Inv (s.next t e r w) := by
  by_cases he : ∃ endpoint, e = .enter endpoint
  · obtain ⟨endpoint, rfl⟩ := he
    obtain ⟨st, hst⟩ := hstep
    have hw : w = (s.world.enter endpoint st).2 := by rw [hst]
    refine ⟨?_, startFailed_next.trans ?_⟩
    · rw [Sys.next_world, hw]
      exact h.sound.enter endpoint st
    · rw [Sys.next_world, wedged_enter hst, h.wedged]
      refine or_congr_right ⟨?_, ?_⟩
      · rintro ⟨endpoint', heq⟩
        cases heq
        rfl
      · rintro rfl
        exact ⟨endpoint, rfl⟩
  · have hsame : w = s.world := hstep.unchanged.resolve_right he
    subst hsame
    refine ⟨h.sound, startFailed_next.trans ?_⟩
    rw [Sys.next_world, ← h.wedged]
    refine or_iff_left ?_
    rintro ⟨endpoint, heq⟩
    exact he ⟨endpoint, congrArg Sigma.fst heq⟩

/-- What happens around a thread. -/
structure Rely (s s' : ResolverSys A) : Prop where
  inv : Inv s → Inv s'
  grows : Inv s → Grows s.world s'.world

theorem Rely.refl (s : ResolverSys A) : Rely s s := ⟨id, fun _ => Grows.refl _⟩

/-- A call returns what was found for its endpoint. -/
structure Returns (endpoint : Endpoint) (r : Except Exn (List A)) (s : ResolverSys A) : Prop where
  inv : Inv s
  found : ∀ addresses, r = .ok addresses → Found s.world endpoint addresses

theorem returns_error {endpoint : Endpoint} {e : Exn} {s : ResolverSys A} (hi : Inv s) :
    Returns endpoint (.error e) s := ⟨hi, fun _ h => by cases h⟩

/-- The thread runs `x` from `s` and ends in `Q`. -/
abbrev Does {α : Type} (t : Nat) (x : Resolve A α) (Q : Except Exn α → ResolverSys A → Prop) (s : ResolverSys A) :
    Prop :=
  Sat (fun _ s e r w => Answered s.world e r w) Rely (fun s e r s' => Answered s.world e r s'.world) t x Q s

/-- A call, from the state before it is made to the state after it. -/
theorem does_perform {α : Type} {t : Nat} {s : ResolverSys A} {e : Call} {f : Answer A e → Resolve A α}
    {Q : Except Exn α → ResolverSys A → Prop} (hi : Inv s)
    (h : ∀ r s₀ w, Inv s₀ → Grows s.world s₀.world → Answered s₀.world e r w → Inv (s₀.next t e r w) →
      Grows s.world w → Does t (f r) Q (s₀.next t e r w)) :
    Does t (Proc.perform e >>= f : Resolve A α) Q s := by
  refine Sat.bind (Sat.perform fun s₀ hs₀ r w hstep => ⟨hstep, ?_⟩)
  have hi₀ := hs₀.inv hi
  exact h r s₀ w hi₀ (hs₀.grows hi) hstep (hi₀.act hstep) ((hs₀.grows hi).trans hstep.grows)

/-- A resolution of this endpoint. -/
def Holds (w : SingleFlightResolver A) (i : Nat) (endpoint : Endpoint) : Prop :=
  ∃ task, w.resolutions[i]? = some task ∧ task.endpoint = endpoint

theorem Holds.grows {endpoint : Endpoint} (h : Holds w i endpoint) (hg : Grows w w') : Holds w' i endpoint := by
  obtain ⟨task, hi, hendpoint⟩ := h
  obtain ⟨task', hi', hendpoint', -⟩ := hg i task hi
  exact ⟨task', hi', hendpoint'.trans hendpoint⟩

/-- The resolution has addresses. -/
def Usable (w : SingleFlightResolver A) (i : Nat) (endpoint : Endpoint) : Prop :=
  ∃ task, w.resolutions[i]? = some task ∧ task.endpoint = endpoint ∧ task.addresses ≠ []

theorem Usable.grows {endpoint : Endpoint} (h : Usable w i endpoint) (hg : Grows w w') : Usable w' i endpoint := by
  obtain ⟨task, hi, hendpoint, hne⟩ := h
  obtain ⟨task', hi', hendpoint', -, haddresses⟩ := hg i task hi
  exact ⟨task', hi', hendpoint'.trans hendpoint, by rw [haddresses hne]; exact hne⟩

/-- Addresses that were read from a usable resolution are what its lookup gave. -/
theorem Sound.found (hs : Sound w) {endpoint : Endpoint} (h : Usable w i endpoint) {addresses : List A}
    (hread : (w.resolutions[i]?).map Resolution.addresses = some addresses) : Found w endpoint addresses := by
  obtain ⟨task, hi, hendpoint, hne⟩ := h
  rw [hi] at hread
  cases hread
  obtain ⟨hlookup, hle⟩ := (hs.resolutions i task hi).found hne
  exact ⟨i, task, hi, hendpoint, hlookup, hne, hle⟩

theorem does_unresolved {t : Nat} {s : ResolverSys A} {endpoint : Endpoint} (hi : Inv s)
    (h : Holds s.world i endpoint) :
    Does t (unresolved i) (fun r s' => Inv s' ∧ (r = .ok false → Usable s'.world i endpoint)) s := by
  unfold unresolved
  refine does_perform hi fun failed s₀ w₀ _ _ _ hi₀ hg₀ => ?_
  have h₀ := h.grows hg₀
  split
  · exact Sat.pure ⟨hi₀, fun hr => by cases hr⟩
  · refine does_perform hi₀ fun addresses s₁ w₁ _ _ hread hi₁ hg₁ => Sat.pure ⟨hi₁, fun hr => ?_⟩
    obtain ⟨task, htask, hendpoint⟩ := h₀.grows hg₁
    obtain ⟨rfl, hread⟩ := hread
    refine ⟨task, htask, hendpoint, ?_⟩
    rw [htask] at hread
    cases hread
    simpa using hr

/-- **What is waited for is what a lookup of the endpoint found.** -/
theorem does_waitFor {t : Nat} {s : ResolverSys A} {endpoint : Endpoint} {deadline : Rat} (hi : Inv s)
    (h : Holds s.world i endpoint) : Does t (waitFor deadline i) (Returns endpoint) s := by
  unfold waitFor
  refine does_perform hi fun now s₀ w₀ _ _ _ hi₀ hg₀ => ?_
  have h₀ := h.grows hg₀
  dsimp only
  split
  · exact Sat.bind (Sat.throw (returns_error hi₀))
  refine does_perform hi₀ fun signalled s₁ w₁ _ _ _ hi₁ hg₁ => ?_
  have h₁ := h₀.grows hg₁
  split
  · exact Sat.bind (Sat.throw (returns_error hi₁))
  refine Sat.bind (Sat.mono ?_ (does_unresolved hi₁ h₁))
  rintro (e | unusable) s₂ ⟨hi₂, husable⟩
  · exact returns_error hi₂
  · cases unusable with
    | true => exact Sat.bind (Sat.throw (returns_error hi₂))
    | false =>
        have h₂ := husable rfl
        show Does t (Proc.perform (Call.addresses i)) (Returns endpoint) s₂
        refine Sat.perform fun s₃ hs₃ r w₃ hread => ⟨hread, (hs₃.inv hi₂).act hread, fun addresses hr => ?_⟩
        cases hr
        obtain ⟨rfl, hread⟩ := hread
        exact (hs₃.inv hi₂).sound.found (h₂.grows (hs₃.grows hi₂)) hread

theorem does_resolve {t : Nat} {s : ResolverSys A} (q : Request) (hi : Inv s) :
    Does t (resolve q) (Returns q.endpoint) s := by
  unfold resolve
  refine does_perform hi fun entry s₀ w₀ _ _ hentry hi₀ _ => ?_
  split
  · exact Sat.throw (returns_error hi₀)
  · exact Sat.throw (returns_error hi₀)
  · rename_i i
    refine does_waitFor hi₀ ?_
    obtain ⟨st, hst⟩ := hentry
    rcases enter_cases s₀.world q.endpoint st with ⟨-, heq⟩ | ⟨j, -, hsame, hrefused | ⟨task, htask, hendpoint, hj⟩⟩
    · rw [heq] at hst
      cases st with
      | started =>
          cases hst
          exact ⟨_, getElem?_append_self _ _, rfl⟩
      | raised running => cases hst
    · rw [hst] at hrefused
      cases hrefused
    · rw [hst] at hj hsame
      cases hj
      cases hsame
      exact ⟨task, htask, hendpoint⟩

/-! ### Single flight -/

/-- Calls keep the resolver's rules. -/
def resolverProtocol (A : Type) : Protocol (resolverMachine A) where
  inv := Inv
  rely _ := Rely
  guar _ _ s e r s' := Answered s.world e r s'.world
  post _ q := Returns q.endpoint
  trans h h' := ⟨fun hi => h'.inv (h.inv hi), fun hi => (h.grows hi).trans (h'.grows (h.inv hi))⟩
  drift_rely _ _ _ _ hd := by
    obtain ⟨i, l, hstep⟩ := hd
    exact ⟨fun hi => hi.drift hstep, fun hi => hi.sound.grows_advance hstep⟩
  drift_inv _ _ hi hd := by
    obtain ⟨i, l, hstep⟩ := hd
    exact hi.drift hstep
  guar_rely _ _ _ _ _ _ _ _ _ hg := ⟨fun hi => hi.act hg, fun _ => Answered.grows hg⟩
  guar_inv _ _ _ _ _ _ hi hg := hi.act hg
  sat _ q _ hi _ := does_resolve q hi

abbrev ResolverPool (A : Type) := Pool Request (SingleFlightResolver A) Call (Answer A) (Except Exn (List A))

/-- What single-flight resolution promises at one moment of a run. -/
structure SingleFlight (p : ResolverPool A) : Prop where
  /-- what is in the slot has a worker, and the worker will give the slot back -/
  active : ∀ i, p.sys.world.active = some i → Working p.sys.world i ∧ Releases p.sys.world i
  single : ∀ i j, Working p.sys.world i → Working p.sys.world j → i = j
  returned : ∀ t q addresses, p.threads t = some ⟨q, .pure (.ok addresses)⟩ →
    Found p.sys.world q.endpoint addresses

theorem resolver_inv {p : ResolverPool A} (h : Reachable (resolverMachine A) Idle p) : Inv p.sys :=
  (h.sound (P := resolverProtocol A) (fun _ => Rely.refl) fun _ => inv_idle).inv

theorem resolver_returned {p : ResolverPool A} (h : Reachable (resolverMachine A) Idle p) {t : Nat} {q : Request}
    {addresses : List A} (ht : p.threads t = some ⟨q, .pure (.ok addresses)⟩) :
    Found p.sys.world q.endpoint addresses := by
  have hpost := h.post (P := resolverProtocol A) (fun _ => Rely.refl) (fun _ => inv_idle)
    (fun _ _ _ _ _ hs hr => ⟨hs.inv hr.inv, fun a ha => (hr.found a ha).grows (hs.grows hr.inv)⟩) ht
  exact hpost.found addresses rfl

theorem not_singleFlight_of_wedged {p : ResolverPool A} (h : Wedged p.sys.world) : ¬ SingleFlight p := by
  obtain ⟨i, task, hactive, htask, hnone⟩ := h
  intro hp
  obtain ⟨⟨x, at', hx, hat, -⟩, -⟩ := hp.active i hactive
  rw [htask] at hx
  cases hx
  rw [hnone] at hat
  cases hat

/-- **Single flight holds for as long as no start of a worker has failed, and never again afterwards.** -/
theorem singleFlight_iff {p : ResolverPool A} (h : Reachable (resolverMachine A) Idle p) :
    SingleFlight p ↔ ¬ StartFailed p.sys := by
  have hinv := resolver_inv h
  constructor
  · intro hp hfailed
    exact not_singleFlight_of_wedged (hinv.wedged.mp hfailed) hp
  · intro hstarted
    have hwedged : ¬ Wedged p.sys.world := fun hw => hstarted (hinv.wedged.mpr hw)
    refine ⟨fun i hi => ?_, fun i j => hinv.sound.single, fun t q addresses ht => resolver_returned h ht⟩
    have hworking := hinv.sound.working_of_active hwedged hi
    exact ⟨hworking, hworking.releases hinv.sound⟩

/-! ### The first call -/

/-- A call starts with its lock region. -/
theorem resolve_enters (q : Request) : ∃ k, (resolve q : Resolve A (List A)) = .call (.enter q.endpoint) k := ⟨_, rfl⟩

/-- One call has entered, and the start of its worker has ended in one way or the other. -/
theorem entered_reachable (q : Request) (s : Start) : ∃ p : ResolverPool A, Reachable (resolverMachine A) Idle p ∧
    p.sys.world = ⟨[.fresh q.endpoint s], some 0⟩ ∧ p.sys.log = [(0, ⟨.enter q.endpoint, s.entry 0⟩)] := by
  obtain ⟨k, hk⟩ := resolve_enters (A := A) q
  have hidle : Reachable (resolverMachine A) Idle ⟨⟨⟨[], none⟩, []⟩, fun _ => none⟩ := .init ⟨rfl, rfl⟩
  have hcode : (resolverMachine A).code q = .call (.enter q.endpoint) k := hk
  have hanswer : Answered (A := A) ⟨[], none⟩ (.enter q.endpoint) (s.entry 0) ⟨[.fresh q.endpoint s], some 0⟩ :=
    ⟨s, rfl⟩
  have hentered := PoolStep.act (m := resolverMachine A) (p := Pool.set ⟨⟨⟨[], none⟩, []⟩, fun _ => none⟩
    ⟨⟨[], none⟩, []⟩ 0 ⟨q, (resolverMachine A).code q⟩) 0 q (Call.enter q.endpoint) k (s.entry 0) _
    (by rw [Pool.set_threads_self, hcode]) hanswer
  exact ⟨_, (hidle.step (.start 0 q rfl)).step hentered, rfl, rfl⟩

/-- With a worker that was started, the first call keeps the promise. -/
theorem singleFlight_first : ∃ p : ResolverPool Nat, Reachable (resolverMachine Nat) Idle p ∧
    p.sys.world.active = some 0 ∧ SingleFlight p := by
  obtain ⟨p, hp, hworld, hlog⟩ := entered_reachable (A := Nat) ⟨⟨[], 0⟩, 1⟩ .started
  refine ⟨p, hp, by rw [hworld], (singleFlight_iff hp).mpr ?_⟩
  rintro ⟨t, endpoint, hmem⟩
  rw [hlog] at hmem
  cases List.mem_singleton.mp hmem

/-- Not every reachable state keeps it: the start may raise. -/
theorem singleFlight_wedges :
    ¬ ∀ p : ResolverPool Nat, Reachable (resolverMachine Nat) Idle p → SingleFlight p := by
  intro h
  obtain ⟨p, hp, hworld, -⟩ := entered_reachable (A := Nat) ⟨⟨[], 0⟩, 1⟩ (.raised false)
  refine not_singleFlight_of_wedged ?_ (h p hp)
  rw [hworld]
  exact ⟨0, _, rfl, rfl, rfl⟩

end Observability
