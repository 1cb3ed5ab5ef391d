/-
Does the lease outlive the operation?

`renewWhileWaiting` at a site alternates between a pause and a renewal, and a renewal is of
use or it is the last one.  So a run is followed from one renewal to the next: the lease
that was just written begins in the second the store shows, and what comes next depends on
the clocks alone.

With the local clock at most 57 seconds ahead every renewal finds a later second and a lease
that has not ended, however long the operation takes (`run_renewed`).  With the local clock
further ahead, some renewal finds the second it wrote last, and the keepalive gives up
(`run_wasted`).
-/
import DataEngLab.Datasets.Renewals
import DataEngLab.Datasets.Pauses

namespace Datasets

open Lib

variable {g : Tagging} {s s' : Site} {l : Lease} {body : Bytes} {k k' : Keepalive}

/-! ### The clocks -/

/-- The clocks are in the range of `datetime`, with room for a lease, and not too far apart. -/
structure Site.InRange (s : Site) : Prop where
  early : 300 ≤ s.clock
  late : s.clock + 360 ≤ maxSecond
  skew : s.skew.natAbs ≤ maxClockSkew

theorem Site.InRange.skew_bounds (h : s.InRange) : -300000000 ≤ s.skew ∧ s.skew ≤ 300000000 := by
  have hskew := h.skew
  unfold maxClockSkew at hskew
  omega

theorem Site.InRange.clock_nonneg (h : s.InRange) : 0 ≤ s.clock := le_trans (by norm_num) h.early

theorem Site.clock_ge_shown (h : s.InRange) : (s.world.now.second : Rat) ≤ s.clock := by
  rw [s.shown]
  exact Nat.floor_le h.clock_nonneg

theorem Site.clock_lt_shown : s.clock < s.world.now.second + 1 := by
  rw [s.shown]
  exact Nat.lt_floor_add_one _

/-- The microseconds that the server's clock has gone beyond what the store shows. -/
theorem Site.InRange.fraction (h : s.InRange) :
    s.world.now.second * 1000000 ≤ ⌊s.clock * 1000000⌋₊ ∧
      ⌊s.clock * 1000000⌋₊ < s.world.now.second * 1000000 + 1000000 := by
  have hlow := s.clock_ge_shown h
  have hhigh := s.clock_lt_shown
  constructor
  · refine Nat.le_floor ?_
    push_cast
    linarith
  · rw [Nat.floor_lt (mul_nonneg h.clock_nonneg (by norm_num))]
    push_cast
    linarith

theorem Site.InRange.shown_late (h : s.InRange) : s.world.now.second + 360 ≤ maxSecond := by
  have hlow := s.clock_ge_shown h
  have hlate := h.late
  have hcast : ((s.world.now.second + 360 : Nat) : Rat) ≤ (maxSecond : Rat) := by
    push_cast
    linarith
  exact_mod_cast hcast

/-- There is an instant for the end of a lease. -/
theorem Site.InRange.exists_end (h : s.InRange) : ∃ e : Instant, e.second = s.world.now.second + 60 := by
  have hlate := h.shown_late
  exact ⟨⟨s.world.now.second + 60, by omega⟩, rfl⟩

theorem Site.InRange.localNow (h : s.InRange) : ∃ m, s.localNow = some m ∧ (m.micros : Int) = s.localMicros := by
  obtain ⟨hlow, hhigh⟩ := h.fraction
  obtain ⟨hskew, hskew'⟩ := h.skew_bounds
  have hlate := h.shown_late
  have hearly : 300 ≤ s.world.now.second := by
    have hclock := h.early
    have hcast := s.clock_lt_shown
    by_contra hlt
    have hle : (s.world.now.second : Rat) + 1 ≤ 300 := by exact_mod_cast Nat.lt_of_not_le hlt
    linarith
  have hfits : 0 ≤ s.localMicros ∧ s.localMicros.toNat < (maxSecond + 1) * 1000000 := by
    unfold Site.localMicros
    omega
  refine ⟨⟨s.localMicros.toNat, hfits.2⟩, dif_pos hfits, ?_⟩
  exact Int.toNat_of_nonneg hfits.1

/-- A date is believed unless the local clock is ahead by almost as much as it may be. -/
theorem Site.InRange.believed (h : s.InRange) (hskew : s.skew ≤ 299000000) : s.Believed := by
  obtain ⟨m, hm, hmicros⟩ := h.localNow
  obtain ⟨hlow, hhigh⟩ := h.fraction
  obtain ⟨hback, -⟩ := h.skew_bounds
  refine ⟨m, hm, ?_⟩
  unfold Site.localMicros at hmicros
  simp only [Datasets.skew, Instant.moment_micros, maxClockSkew]
  omega

theorem Site.InRange.unbelieved (h : s.InRange) (hnot : ¬ s.Believed) :
    ∃ m, s.localNow = some m ∧ maxClockSkew < Datasets.skew s.world.now.moment m := by
  obtain ⟨m, hm, -⟩ := h.localNow
  exact ⟨m, hm, Nat.lt_of_not_le fun hle => hnot ⟨m, hm, hle⟩⟩

/-! ### One renewal -/

/-- A lease that is held begins at a second `c` and ends a minute later. -/
theorem Held.seconds (h : Held g s l body) : ∃ c : Nat, l.createdAt.micros = c * 1000000 ∧
    l.expiresAt.micros = (c + 60) * 1000000 ∧ c ≤ s.world.now.second := by
  have hbegun := h.begun
  have hminute := h.minute
  have hcreated := congrArg Moment.micros h.created
  rw [Instant.moment_micros] at hcreated
  refine ⟨l.createdAt.instant.second, hcreated.symm, by omega, ?_⟩
  rw [← h.created, Moment.le_iff, Instant.moment_micros, Instant.moment_micros] at hbegun
  exact Nat.le_of_mul_le_mul_right hbegun (by decide)

/-- A renewal is of use. -/
def Site.Renewable (s : Site) (l : Lease) : Prop := s.Believed ∧ s.Before l ∧ l.createdAt < s.world.now.moment

/-- A keepalive that has met no error. -/
def Keepalive.holding (l : Lease) : Keepalive := ⟨l, false, none⟩

theorem run_renewOnce {r : Except Exn Lease} (hr : Site.run g (renewLease l leaseSeconds) s = some (r, s')) :
    Site.run g (renewOnce (.holding l)) s =
      match r with
      | .ok lease => some (.ok (true, .holding lease), s')
      | .error e => if e.isException then some (.ok (false, ⟨l, false, some e⟩), s') else some (.error e, s') := by
  refine (runSome_attempt_bind _ hr).trans ?_
  cases r with
  | ok lease => rfl
  | error e =>
      simp only
      split
      · rfl
      · rfl

/-- The lease of a renewal begins in the second the store shows, and is all that it was otherwise. -/
structure Fresh (s : Site) (l l' : Lease) : Prop where
  start : l'.createdAt.micros = s.world.now.second * 1000000
  stop : l'.expiresAt.micros = (s.world.now.second + 60) * 1000000
  location : l'.location = l.location
  owner : l'.ownerNonce = l.ownerNonce

theorem fresh_renewed {e : Instant} {etag : Str} (he : e.second = s.world.now.second + 60) :
    Fresh s l (l.renewed s.world.now e etag) := by
  refine ⟨rfl, ?_, rfl, rfl⟩
  show e.second * 1000000 = _
  rw [he]

theorem renewOnce_renewable (h : Held g s l body) (hrange : s.InRange) (hof : s.Renewable l) :
    ∃ l' body', Site.run g (renewOnce (.holding l)) s = some (.ok (true, .holding l'), s.wrote g l body') ∧
      Held g (s.wrote g l body') l' body' ∧ Fresh s l l' := by
  obtain ⟨hbelieved, hbefore, hlater⟩ := hof
  obtain ⟨e, he⟩ := hrange.exists_end
  obtain ⟨body', hbody, hlen⟩ := h.from_body he
  have hloop := renewLoop_renewed h hbelieved hbefore he hlater hbody hlen 4
  exact ⟨_, body', run_renewOnce (run_renewLease h hloop), h.renewed he hbody hlen, fresh_renewed he⟩

theorem renewOnce_useless (h : Held g s l body) (hrange : s.InRange) (hnot : ¬ s.Renewable l) :
    ∃ e, Site.run g (renewOnce (.holding l)) s = some (.ok (false, ⟨l, false, some e⟩), s) := by
  by_cases hbelieved : s.Believed
  · by_cases hbefore : s.Before l
    · obtain ⟨e, he⟩ := hrange.exists_end
      have hsame : s.world.now.moment ≤ l.createdAt := Nat.le_of_not_lt fun hlt => hnot ⟨hbelieved, hbefore, hlt⟩
      exact ⟨_, run_renewOnce (run_renewLease h (renewLoop_stalled h hbelieved hbefore he hsame _))⟩
    · exact ⟨_, run_renewOnce (run_renewLease h (renewLoop_ended h hbelieved hbefore 4))⟩
  · obtain ⟨m, hm, hfar⟩ := hrange.unbelieved hbelieved
    exact ⟨_, run_renewOnce (run_renewLease h (renewLoop_unbelieved h hm hfar 4))⟩

/-! ### One round of the loop -/

/-- How long the keepalive waits at a site. -/
def Site.pause (s : Site) (l : Lease) : Rat := Datasets.pause s.skew (l.expiresAt.micros / 1000000) s.clock

theorem run_interval (hrange : s.InRange) :
    ∃ m, Site.run g utcNow s = some (.ok m, s) ∧ renewalInterval l m = s.pause l := by
  obtain ⟨m, hm, hmicros⟩ := hrange.localNow
  refine ⟨m, run_utcNow hm, ?_⟩
  have hlocal : (m.micros : Rat) = (⌊s.clock * 1000000⌋₊ : Rat) + s.skew := by
    have hcast := congrArg (Int.cast (R := Rat)) hmicros
    rw [Site.localMicros] at hcast
    push_cast at hcast
    exact hcast
  simp only [renewalInterval, Lease.remaining, Site.pause, Datasets.pause, localSeconds, hlocal, sub_div]

theorem run_wait {interval : Option Rat} {r : WaitReply} (h : s.waitReply interval = some (r, s')) :
    Site.run g (perform (.wait interval)) s = some (.ok r, s') := run_perform h

/-- The loop ends in a state, given enough rounds. -/
def Comes (g : Tagging) (k : Keepalive) (s : Site) (k' : Keepalive) (s' : Site) : Prop :=
  ∃ n, ∀ fuel ≥ n, Site.run g (renewWhileWaiting fuel k) s = some (.ok (k', none), s')

theorem Comes.step {k₁ : Keepalive} {s₁ : Site}
    (hround : ∀ fuel, Site.run g (renewWhileWaiting (fuel + 1) k) s = Site.run g (renewWhileWaiting fuel k₁) s₁)
    (h : Comes g k₁ s₁ k' s') : Comes g k s k' s' := by
  obtain ⟨n, hn⟩ := h
  refine ⟨n + 1, fun fuel hfuel => ?_⟩
  obtain ⟨f, rfl⟩ : ∃ f, fuel = f + 1 := ⟨fuel - 1, by omega⟩
  rw [hround]
  exact hn f (by omega)

theorem Comes.now (hround : ∀ fuel, Site.run g (renewWhileWaiting (fuel + 1) k) s = some (.ok (k', none), s')) :
    Comes g k s k' s' := by
  refine ⟨1, fun fuel hfuel => ?_⟩
  obtain ⟨f, rfl⟩ : ∃ f, fuel = f + 1 := ⟨fuel - 1, by omega⟩
  exact hround f

section
variable (hrange : s.InRange)
include hrange

/-- The operation completes during the pause. -/
theorem comes_completed (hend : s.completion ≤ s.clock + s.pause l) (hfinish : s.finish = some s') :
    Comes g (.holding l) s (.holding l) s' := by
  obtain ⟨m, hm, hinterval⟩ := run_interval (g := g) (l := l) hrange
  refine .now fun fuel => ?_
  have hwait : Site.run g (perform (.wait (some (renewalInterval l m)))) s = some (.ok .completed, s') :=
    run_wait (by simp only [Site.waitReply, hinterval, if_pos hend, hfinish, Option.map_some])
  exact (runSome_bind_ok _ hm).trans (runSome_bind_ok _ hwait)

variable (hgoes : s.clock + s.pause l < s.completion) {s₁ : Site} (hpass : s.passTo (s.clock + s.pause l) = some s₁)
include hgoes hpass

theorem run_round (fuel : Nat) {x : Except Exn (Bool × Keepalive)} {s₂ : Site}
    (hrenew : Site.run g (renewOnce (.holding l)) s₁ = some (x, s₂)) :
    Site.run g (renewWhileWaiting (fuel + 1) (.holding l)) s =
      Site.run g (match x with
        | .error e => return (.holding l, some e)
        | .ok (true, k') => renewWhileWaiting fuel k'
        | .ok (false, k') => do
            match ← perform (.wait none) with
            | .interrupted => return (k', some (.raised .interrupt))
            | _ => return (k', none)) s₂ := by
  obtain ⟨m, hm, hinterval⟩ := run_interval (g := g) (l := l) hrange
  have hwait : Site.run g (perform (.wait (some (renewalInterval l m)))) s = some (.ok .timedOut, s₁) :=
    run_wait (by simp only [Site.waitReply, hinterval, if_neg (not_le.mpr hgoes), hpass, Option.map_some])
  refine (runSome_bind_ok _ hm).trans ((runSome_bind_ok _ hwait).trans ?_)
  exact runSome_attempt_bind _ hrenew

/-- The lease is renewed after the pause, and the next round begins. -/
theorem comes_renewed {l' : Lease} {s₂ : Site}
    (hrenew : Site.run g (renewOnce (.holding l)) s₁ = some (.ok (true, .holding l'), s₂))
    (h : Comes g (.holding l') s₂ k' s') : Comes g (.holding l) s k' s' :=
  h.step fun fuel => run_round hrange hgoes hpass fuel hrenew

/-- The renewal after the pause is the last. -/
theorem comes_given_up (hrenew : Site.run g (renewOnce (.holding l)) s₁ = some (.ok (false, k'), s₁))
    (hfinish : s₁.finish = some s') : Comes g (.holding l) s k' s' := by
  refine .now fun fuel => (run_round hrange hgoes hpass fuel hrenew).trans ?_
  have hwait : Site.run g (perform (.wait none)) s₁ = some (.ok .completed, s') :=
    run_wait (by simp only [Site.waitReply, hfinish, Option.map_some])
  exact runSome_bind_ok _ hwait

end

/-! ### What is stored while time passes -/

/-- The lease that is stored is the owner's and ends after `t`. -/
def Unexpired (loc : Location) (owner : Str) (objects : Location → Option StoredObject) (t : Rat) : Prop :=
  ∃ o tenure, objects loc = some o ∧ tenureOf o.body = some tenure ∧ tenure.owner = owner ∧ tenure.held = true ∧
    t < tenure.stop

/-- Since `start` there has always been such a lease. -/
structure Site.Kept (s : Site) (loc : Location) (owner : Str) (start : Rat) : Prop where
  covered : ∀ t, start < t → t ≤ s.clock → ∃ x ∈ s.spans, x.Contains t
  unexpired : ∀ x ∈ s.spans, ∀ t, x.Contains t → Unexpired loc owner x.objects t

/-- What does not change while time passes. -/
structure Passed (s : Site) (t : Rat) (s' : Site) : Prop where
  clock : s'.clock = t
  skew : s'.skew = s.skew
  completion : s'.completion = s.completion
  objects : s'.world.objects = s.world.objects
  spans : s'.spans = ⟨s.clock, t, s.world.objects⟩ :: s.spans

theorem exists_passed {t : Rat} (hrange : s.InRange) (ht : s.clock ≤ t) (hlate : t + 360 ≤ maxSecond) :
    ∃ s', s.passTo t = some s' ∧ Passed s t s' ∧ s'.InRange := by
  have hnonneg : 0 ≤ t := hrange.clock_nonneg.trans ht
  have hfits : ⌊t⌋₊ ≤ maxSecond := by
    have hfloor := Nat.floor_le hnonneg
    have hcast : (⌊t⌋₊ : Rat) ≤ (maxSecond : Rat) := by linarith
    exact_mod_cast hcast
  exact ⟨_, dif_pos hfits, ⟨rfl, rfl, rfl, rfl, rfl⟩, hrange.early.trans ht, hlate, hrange.skew⟩

theorem exists_finished (hrange : s.InRange) (hclock : s.clock ≤ s.completion) (hlate : s.completion + 360 ≤ maxSecond) :
    ∃ s', s.finish = some s' ∧ s'.clock = s.completion ∧ s'.completion = s.completion ∧
      (s' = s ∨ Passed s s.completion s') := by
  by_cases hdone : s.completion ≤ s.clock
  · exact ⟨s, if_pos hdone, le_antisymm hclock hdone, rfl, .inl rfl⟩
  · obtain ⟨s', hpass, hpassed, -⟩ := exists_passed hrange hclock hlate
    exact ⟨s', (if_neg hdone).trans hpass, hpassed.clock, hpassed.completion, .inr hpassed⟩

section
variable {t : Rat} (hpassed : Passed s t s')
include hpassed

theorem Passed.held (ht : s.clock ≤ t) (h : Held g s l body) : Held g s' l body := by
  obtain ⟨metadata, hstored⟩ := h.stored
  refine ⟨h.written, ⟨metadata, by rw [hpassed.objects, hstored]⟩, h.etag, h.small, h.active, h.created, h.expires, ?_,
    h.minute⟩
  have hshown : s.world.now.second ≤ s'.world.now.second := by
    rw [s.shown, s'.shown, hpassed.clock]
    exact Nat.floor_le_floor ht
  have hbegun := h.begun
  rw [Moment.le_iff, Instant.moment_micros] at hbegun ⊢
  exact hbegun.trans (Nat.mul_le_mul_right _ hshown)

theorem Passed.kept {start : Rat} (h : Held g s l body)
    (hends : t < (l.expiresAt.micros : Rat) / 1000000) (hkept : s.Kept l.location l.ownerNonce start) :
    s'.Kept l.location l.ownerNonce start := by
  obtain ⟨metadata, hstored⟩ := h.stored
  obtain ⟨c, -, hstop, -⟩ := h.seconds
  constructor
  · intro u hstart hu
    rw [hpassed.clock] at hu
    rw [hpassed.spans]
    by_cases hbefore : u ≤ s.clock
    · obtain ⟨x, hx, hin⟩ := hkept.covered u hstart hbefore
      exact ⟨x, List.mem_cons_of_mem _ hx, hin⟩
    · exact ⟨_, List.mem_cons_self, le_of_not_ge hbefore, hu⟩
  · intro x hx u hin
    rw [hpassed.spans, List.mem_cons] at hx
    rcases hx with rfl | hx
    · refine ⟨_, _, hstored, tenureOf_body h.written, rfl, decide_eq_true h.active, ?_⟩
      have hsecond : l.tenure.stop = c + 60 := by
        show l.expiresAt.micros / 1000000 = c + 60
        rw [hstop, Nat.mul_div_cancel _ (by decide)]
      have hu : u ≤ t := hin.2
      rw [hstop] at hends
      push_cast at hends
      rw [hsecond]
      push_cast
      linarith
    · exact hkept.unexpired x hx u hin

end

/-! ### A whole run -/

theorem pause_of {c : Nat} (hc : l.expiresAt.micros = (c + 60) * 1000000) :
    s.pause l = Datasets.pause s.skew (c + 60) s.clock := by
  rw [Site.pause, hc]
  push_cast
  rw [mul_div_cancel_right₀ _ (by norm_num)]

/-- A renewal is of use once a later second is shown, as long as the lease lasts. -/
theorem renewable_of (hrange : s.InRange) (hskew : s.skew ≤ 299000000) {c : Nat} (hstart : l.createdAt.micros = c * 1000000)
    (hstop : l.expiresAt.micros = (c + 60) * 1000000) (hlater : (c : Rat) + 1 ≤ s.clock)
    (hbefore : s.clock < (c : Rat) + 60) : s.Renewable l := by
  have hsecond : c + 1 ≤ s.world.now.second := by
    rw [s.shown]
    refine Nat.le_floor ?_
    push_cast
    exact hlater
  have hend : s.world.now.second < c + 60 := by
    have hshown := s.clock_ge_shown hrange
    have hcast : (s.world.now.second : Rat) < ((c + 60 : Nat) : Rat) := by
      push_cast
      linarith
    exact_mod_cast hcast
  refine ⟨hrange.believed hskew, ?_, ?_⟩
  · show s.world.now.moment < l.expiresAt
    rw [Moment.lt_iff, Instant.moment_micros, hstop]
    exact Nat.mul_lt_mul_of_pos_right hend (by decide)
  · rw [Moment.lt_iff, Instant.moment_micros, hstart]
    exact Nat.mul_lt_mul_of_pos_right hsecond (by decide)

theorem Site.InRange.wrote (h : s.InRange) : (s.wrote g l body).InRange := ⟨h.early, h.late, h.skew⟩

/-- The pause at the end of which the operation has completed. -/
theorem kept_completed {start : Rat} (h : Held g s l body) (hrange : s.InRange) (hlate : s.completion + 360 ≤ maxSecond)
    (hclock : s.clock ≤ s.completion) (hample : s.clock + s.pause l < (l.expiresAt.micros : Rat) / 1000000)
    (hkept : s.Kept l.location l.ownerNonce start) (hend : s.completion ≤ s.clock + s.pause l) :
    ∃ s', Comes g (.holding l) s (.holding l) s' ∧ s'.Kept l.location l.ownerNonce start ∧
      s'.clock = s.completion ∧ s'.completion = s.completion := by
  obtain ⟨s', hfinish, hclock', hcompletion', hcase⟩ := exists_finished hrange hclock hlate
  refine ⟨s', comes_completed hrange hend hfinish, ?_, hclock', hcompletion'⟩
  rcases hcase with rfl | hpassed
  · exact hkept
  · exact hpassed.kept h (lt_of_le_of_lt hend hample) hkept

/-- **Every renewal is of use** if the local clock is at most 57 seconds ahead and the first one comes
before the lease ends.  By induction on the pauses there is time for; each one takes a twentieth of a
second at least. -/
theorem run_renewed {start : Rat} (n : Nat) : ∀ {s : Site} {l : Lease} {body : Bytes}, Held g s l body → s.InRange →
    s.skew ≤ 57000000 → s.completion + 360 ≤ maxSecond → s.clock ≤ s.completion → s.completion - s.clock ≤ n / 20 →
    s.clock + s.pause l < (l.expiresAt.micros : Rat) / 1000000 → s.Kept l.location l.ownerNonce start →
    ∃ l' s', Comes g (.holding l) s (.holding l') s' ∧ s'.Kept l.location l.ownerNonce start ∧
      s'.clock = s.completion ∧ s'.completion = s.completion := by
  induction n with
  | zero =>
      intro s l body h hrange hskew hlate hclock htime hample hkept
      have hpause : 1 / 20 ≤ s.pause l := pause_ge
      obtain ⟨s', hcomes, hrest⟩ := kept_completed h hrange hlate hclock hample hkept (by
        rw [Nat.cast_zero, zero_div] at htime
        linarith)
      exact ⟨l, s', hcomes, hrest⟩
  | succ n ih =>
      intro s l body h hrange hskew hlate hclock htime hample hkept
      by_cases hend : s.completion ≤ s.clock + s.pause l
      · obtain ⟨s', hcomes, hrest⟩ := kept_completed h hrange hlate hclock hample hkept hend
        exact ⟨l, s', hcomes, hrest⟩
      have hgoes : s.clock + s.pause l < s.completion := not_le.mp hend
      have hpause : 1 / 20 ≤ s.pause l := pause_ge
      have hforward : s.clock ≤ s.clock + s.pause l := by linarith
      obtain ⟨s₁, hpass, hpassed, hrange₁⟩ := exists_passed (t := s.clock + s.pause l) hrange hforward (by linarith)
      have hheld₁ := hpassed.held hforward h
      obtain ⟨c, hstart, hstop, hbegun⟩ := h.seconds
      have hc : (c : Rat) ≤ s.clock := le_trans (Nat.cast_le.mpr hbegun) (s.clock_ge_shown hrange)
      have hreach : (c : Rat) + 1 ≤ s₁.clock := by
        rw [hpassed.clock, pause_of hstop]
        exact pause_reaches hc hskew
      have hbefore : s₁.clock < (c : Rat) + 60 := by
        rw [hstop] at hample
        push_cast at hample
        rw [hpassed.clock]
        linarith
      have hof := renewable_of hrange₁ (by rw [hpassed.skew]; omega) hstart hstop hreach hbefore
      obtain ⟨l', body', hrenew, hheld', hfresh⟩ := renewOnce_renewable hheld₁ hrange₁ hof
      have hample' : s₁.clock + (s₁.wrote g l body').pause l' < (l'.expiresAt.micros : Rat) / 1000000 := by
        have hle : (s₁.wrote g l body').pause l' ≤ 5 := pause_le
        have hshown := s₁.clock_lt_shown
        rw [hfresh.stop]
        push_cast
        linarith
      have hkept₁ := hpassed.kept h hample hkept
      rw [← hfresh.location, ← hfresh.owner] at hkept₁
      obtain ⟨l'', s', hcomes, hkept', hclock', hcompletion'⟩ := ih (s := s₁.wrote g l body') hheld' hrange₁.wrote
        (by rw [← hpassed.skew] at hskew; exact hskew) (by rw [← hpassed.completion] at hlate; exact hlate)
        (by rw [← hpassed.completion, ← hpassed.clock] at hgoes; exact hgoes.le)
        (by
          show s₁.completion - s₁.clock ≤ n / 20
          rw [hpassed.completion, hpassed.clock]
          push_cast at htime
          linarith)
        hample' ⟨hkept₁.covered, hkept₁.unexpired⟩
      rw [hfresh.location, hfresh.owner] at hkept'
      exact ⟨l'', s', comes_renewed hrange hgoes hpass hrenew hcomes, hkept', hclock'.trans hpassed.completion,
        hcompletion'.trans hpassed.completion⟩

/-- The loop ends with an error of a renewal, and the operation is waited for. -/
def Lost (g : Tagging) (l : Lease) (s : Site) : Prop :=
  ∃ k' s', Comes g (.holding l) s k' s' ∧ k'.error ≠ none ∧ s'.clock = s.completion ∧ s'.completion = s.completion

/-- A renewal that is of no use is the last. -/
theorem lost_of_useless {s₁ : Site} (h : Held g s l body) (hrange : s.InRange) (hlate : s.completion + 360 ≤ maxSecond)
    (hgoes : s.clock + s.pause l < s.completion) (hpass : s.passTo (s.clock + s.pause l) = some s₁)
    (hpassed : Passed s (s.clock + s.pause l) s₁) (hrange₁ : s₁.InRange) (hnot : ¬ s₁.Renewable l) : Lost g l s := by
  have hpause : 1 / 20 ≤ s.pause l := pause_ge
  have hheld₁ := hpassed.held (by linarith) h
  obtain ⟨e, hrenew⟩ := renewOnce_useless hheld₁ hrange₁ hnot
  have hclock₁ : s₁.clock ≤ s₁.completion := by
    rw [hpassed.clock, hpassed.completion]
    exact hgoes.le
  obtain ⟨s', hfinish, hclock', hcompletion', -⟩ := exists_finished hrange₁ hclock₁ (by rw [hpassed.completion]; exact hlate)
  exact ⟨⟨l, false, some e⟩, s', comes_given_up hrange hgoes hpass hrenew hfinish, Option.some_ne_none e,
    hclock'.trans hpassed.completion, hcompletion'.trans hpassed.completion⟩

theorem Lost.renewed {s₁ : Site} {l' : Lease} {body' : Bytes} (hrange : s.InRange)
    (hgoes : s.clock + s.pause l < s.completion) (hpass : s.passTo (s.clock + s.pause l) = some s₁)
    (hpassed : Passed s (s.clock + s.pause l) s₁)
    (hrenew : Site.run g (renewOnce (.holding l)) s₁ = some (.ok (true, .holding l'), s₁.wrote g l body'))
    (h : Lost g l' (s₁.wrote g l body')) : Lost g l s := by
  obtain ⟨k', s', hcomes, herror, hclock, hcompletion⟩ := h
  exact ⟨k', s', comes_renewed hrange hgoes hpass hrenew hcomes, herror, hclock.trans hpassed.completion,
    hcompletion.trans hpassed.completion⟩

/-- **A renewal that finds the second it wrote last is the last**, and so is any other that fails before.  By
induction on the renewals until then. -/
theorem run_wasted (n : Nat) : ∀ {s : Site} {l : Lease} {body : Bytes}, Held g s l body → s.InRange →
    s.completion + 360 ≤ maxSecond → l.createdAt.micros = s.world.now.second * 1000000 →
    l.expiresAt.micros = (s.world.now.second + 60) * 1000000 →
    ⌊(nextRenewal s.skew)^[n + 1] s.clock⌋₊ ≤ ⌊(nextRenewal s.skew)^[n] s.clock⌋₊ →
    s.clock + 5 * (n + 1) < s.completion → Lost g l s := by
  induction n with
  | zero =>
      intro s l body h hrange hlate hstart hstop hwasted hlong
      have hle : s.pause l ≤ 5 := pause_le
      have hpause : 1 / 20 ≤ s.pause l := pause_ge
      have hgoes : s.clock + s.pause l < s.completion := by
        rw [Nat.cast_zero] at hlong
        linarith
      obtain ⟨s₁, hpass, hpassed, hrange₁⟩ := exists_passed (t := s.clock + s.pause l) hrange (by linarith) (by linarith)
      refine lost_of_useless h hrange hlate hgoes hpass hpassed hrange₁ fun hof => ?_
      have hlater := hof.2.2
      rw [Moment.lt_iff, Instant.moment_micros, hstart, s₁.shown, s.shown, hpassed.clock, pause_of hstop, s.shown] at hlater
      exact absurd (Nat.lt_of_mul_lt_mul_right hlater) (Nat.not_lt.mpr hwasted)
  | succ n ih =>
      intro s l body h hrange hlate hstart hstop hwasted hlong
      have hle : s.pause l ≤ 5 := pause_le
      have hpause : 1 / 20 ≤ s.pause l := pause_ge
      rw [Nat.cast_add_one] at hlong
      have hgoes : s.clock + s.pause l < s.completion := by
        have hn : (0 : Rat) ≤ n := Nat.cast_nonneg n
        linarith
      obtain ⟨s₁, hpass, hpassed, hrange₁⟩ := exists_passed (t := s.clock + s.pause l) hrange (by linarith) (by linarith)
      by_cases hof : s₁.Renewable l
      · obtain ⟨l', body', hrenew, hheld', hfresh⟩ := renewOnce_renewable (hpassed.held (by linarith) h) hrange₁ hof
        have hnext : s₁.clock = nextRenewal s.skew s.clock := by
          rw [hpassed.clock, pause_of hstop, s.shown, nextRenewal]
        refine Lost.renewed hrange hgoes hpass hpassed hrenew (ih hheld' hrange₁.wrote ?_ hfresh.start hfresh.stop ?_ ?_)
        · show s₁.completion + 360 ≤ maxSecond
          rw [hpassed.completion]
          exact hlate
        · show ⌊(nextRenewal s₁.skew)^[n + 1] s₁.clock⌋₊ ≤ ⌊(nextRenewal s₁.skew)^[n] s₁.clock⌋₊
          rw [hpassed.skew, hnext, ← Function.iterate_succ_apply, ← Function.iterate_succ_apply]
          exact hwasted
        · show s₁.clock + 5 * (n + 1) < s₁.completion
          rw [hpassed.clock, hpassed.completion]
          linarith
      · exact lost_of_useless h hrange hlate hgoes hpass hpassed hrange₁ hof

/-! ### The operation -/

/-- An operation that takes this long starts. -/
def Site.starting (s : Site) (duration : Rat) : Site := { s with completion := s.clock + duration, spans := [] }

/-- `run_while_renewing` ends without an error of a renewal, and until the operation completes the stored
lease has not ended. -/
def Survives {α : Type} (g : Tagging) (operation : Except Exn α) (l : Lease) (s : Site) : Prop :=
  ∃ n, ∀ fuel ≥ n, ∃ k' outcome s',
    Site.run g (runWhileRenewing operation fuel (.holding l)) s = some (.ok (k', .ok outcome), s') ∧
      outcome.renewalError = none ∧ s'.Kept l.location l.ownerNonce s.clock ∧ s.completion ≤ s'.clock

/-- Enough of the lease is left for a first renewal: more than the least pause, and more than the longest
one or than a third of what the local clock makes of it. -/
def Site.Ample (s : Site) (l : Lease) : Prop :=
  1 / 20 < (l.expiresAt.micros : Rat) / 1000000 - s.clock ∧
    (5 < (l.expiresAt.micros : Rat) / 1000000 - s.clock ∨
      ((l.expiresAt.micros : Rat) - s.localMicros) / 1000000 < 3 * ((l.expiresAt.micros : Rat) / 1000000 - s.clock))

theorem Site.ample_iff : s.Ample l ↔ s.clock + s.pause l < (l.expiresAt.micros : Rat) / 1000000 := by
  rw [Site.pause, pause_ample, Site.Ample, Site.localMicros, localSeconds, sub_div]
  push_cast
  rfl

section
variable {α : Type} {operation : Except Exn α}

theorem run_operation (h : Comes g k s k' s') (hdone : s'.completion ≤ s'.clock) :
    ∃ n, ∀ fuel ≥ n, Site.run g (runWhileRenewing operation fuel k) s =
      some (.ok (k', .ok (foregroundOutcome operation k'.error)), s') := by
  obtain ⟨n, hn⟩ := h
  refine ⟨n, fun fuel hfuel => (runSome_bind_ok _ (hn fuel hfuel)).trans ?_⟩
  have hjoin : Site.run g (perform (.wait none)) s' = some (.ok .completed, s') :=
    run_wait (by simp only [Site.waitReply, Site.finish, if_pos hdone, Option.map_some])
  exact runSome_bind_ok _ hjoin

theorem renewalError_foregroundOutcome (e : Option Exn) : (foregroundOutcome operation e).renewalError = e := by
  cases operation with
  | ok a => rfl
  | error e' => rfl

theorem Lost.not_survives (h : Lost g l s) : ¬ Survives g operation l s := by
  obtain ⟨k', s', hcomes, herror, hclock, hcompletion⟩ := h
  obtain ⟨n, hn⟩ := @run_operation _ _ _ _ _ _ operation hcomes (by rw [hclock, hcompletion])
  rintro ⟨n', hn'⟩
  obtain ⟨k'', outcome, s'', hrun, hnone, -⟩ := hn' (max n n') (le_max_right _ _)
  rw [hn _ (le_max_left _ _)] at hrun
  simp only [Option.some.injEq, Prod.mk.injEq, Except.ok.injEq] at hrun
  obtain ⟨⟨-, rfl⟩, -⟩ := hrun
  rw [renewalError_foregroundOutcome] at hnone
  exact herror hnone

theorem survives_of (h : Held g s l body) (hrange : s.InRange) (hskew : s.skew ≤ 57000000) (hample : s.Ample l)
    {duration : Rat} (hduration : 0 ≤ duration) (hlate : s.clock + duration + 360 ≤ maxSecond) :
    Survives g operation l (s.starting duration) := by
  have hheld : Held g (s.starting duration) l body := { h with }
  have hnothing : (s.starting duration).Kept l.location l.ownerNonce s.clock :=
    ⟨fun t hstart ht => absurd ht (not_le.mpr hstart), fun x hx => absurd hx List.not_mem_nil⟩
  obtain ⟨l', s', hcomes, hkept, hclock, hcompletion⟩ := run_renewed ⌈20 * duration⌉₊ hheld
    ⟨hrange.early, hrange.late, hrange.skew⟩ hskew hlate (by show s.clock ≤ s.clock + duration; linarith)
    (by
      have hceil := Nat.le_ceil (20 * duration)
      show s.clock + duration - s.clock ≤ _
      linarith)
    (Site.ample_iff.mp hample) hnothing
  obtain ⟨n, hn⟩ := @run_operation _ _ _ _ _ _ operation hcomes (by rw [hclock, hcompletion])
  exact ⟨n, fun fuel hfuel => ⟨_, _, s', hn fuel hfuel, renewalError_foregroundOutcome _, hkept, hclock.ge⟩⟩

/-- Half a year is long enough for a local clock that is too far ahead to show. -/
theorem lost_of_ahead (h : Held g s l body) (hrange : s.InRange) (hskew : 57000000 < s.skew)
    (hlate : s.completion + 360 ≤ maxSecond) (hlong : s.clock + 15000010 ≤ s.completion) : Lost g l s := by
  have hle : s.pause l ≤ 5 := pause_le
  have hpause : 1 / 20 ≤ s.pause l := pause_ge
  have hgoes : s.clock + s.pause l < s.completion := by linarith
  obtain ⟨s₁, hpass, hpassed, hrange₁⟩ := exists_passed (t := s.clock + s.pause l) hrange (by linarith) (by linarith)
  by_cases hof : s₁.Renewable l
  · obtain ⟨l', body', hrenew, hheld', hfresh⟩ := renewOnce_renewable (hpassed.held (by linarith) h) hrange₁ hof
    have hskew₁ : 57000000 < s₁.skew := by rw [hpassed.skew]; exact hskew
    obtain ⟨n, hn, hwasted⟩ := exists_wasted_renewal hskew₁ hrange₁.clock_nonneg
    refine Lost.renewed hrange hgoes hpass hpassed hrenew
      (run_wasted n hheld' hrange₁.wrote ?_ hfresh.start hfresh.stop hwasted ?_)
    · show s₁.completion + 360 ≤ maxSecond
      rw [hpassed.completion]
      exact hlate
    · show s₁.clock + 5 * (n + 1) < s₁.completion
      have hn' : (n : Rat) + 1 ≤ 3000000 := by exact_mod_cast hn
      rw [hpassed.clock, hpassed.completion]
      linarith
  · exact lost_of_useless h hrange hlate hgoes hpass hpassed hrange₁ hof

theorem lost_of_not_ample (h : Held g s l body) (hrange : s.InRange) (hample : ¬ s.Ample l)
    (hlate : s.completion + 360 ≤ maxSecond) (hlong : s.clock + 15000010 ≤ s.completion) : Lost g l s := by
  have hle : s.pause l ≤ 5 := pause_le
  have hpause : 1 / 20 ≤ s.pause l := pause_ge
  have hgoes : s.clock + s.pause l < s.completion := by linarith
  obtain ⟨s₁, hpass, hpassed, hrange₁⟩ := exists_passed (t := s.clock + s.pause l) hrange (by linarith) (by linarith)
  refine lost_of_useless h hrange hlate hgoes hpass hpassed hrange₁ fun hof => ?_
  obtain ⟨c, -, hstop, -⟩ := h.seconds
  have hended : (c : Rat) + 60 ≤ s₁.clock := by
    rw [Site.ample_iff, hstop] at hample
    push_cast at hample
    rw [hpassed.clock]
    linarith
  have hshown : c + 60 ≤ s₁.world.now.second := by
    rw [s₁.shown]
    refine Nat.le_floor ?_
    push_cast
    exact hended
  have hbefore : s₁.world.now.moment < l.expiresAt := hof.2.1
  rw [Moment.lt_iff, Instant.moment_micros, hstop] at hbefore
  exact absurd (Nat.lt_of_mul_lt_mul_right hbefore) (Nat.not_lt.mpr hshown)

/-- **When the keepalive survives an operation of any length**: exactly when the local clock is at most 57
seconds ahead of the server's and enough of the lease is left for the first renewal. -/
theorem survives_iff (h : Held g s l body) (hskew : s.skew.natAbs ≤ maxClockSkew) (hearly : 300 ≤ s.clock)
    (hlate : s.clock + 15001000 ≤ maxSecond) :
    (∀ duration, 0 ≤ duration → s.clock + duration + 360 ≤ maxSecond → Survives g operation l (s.starting duration)) ↔
      s.skew ≤ 57000000 ∧ s.Ample l := by
  have hrange : s.InRange := ⟨hearly, by linarith, hskew⟩
  constructor
  · intro hall
    have hlong := hall 15000010 (by norm_num) (by linarith)
    have hheld : Held g (s.starting 15000010) l body := { h with }
    have hrange' : (s.starting 15000010).InRange := ⟨hrange.early, hrange.late, hrange.skew⟩
    have hlate' : (s.starting 15000010).completion + 360 ≤ maxSecond := by
      show s.clock + 15000010 + 360 ≤ _
      linarith
    constructor
    · by_contra hahead
      exact (lost_of_ahead hheld hrange' (not_le.mp hahead) hlate' le_rfl).not_survives hlong
    · by_contra hample
      exact (lost_of_not_ample hheld hrange' hample hlate' le_rfl).not_survives hlong
  · rintro ⟨hbound, hample⟩ duration hduration hend
    exact survives_of h hrange hbound hample hduration hend

end

/-! ### A lease that was just taken -/

/-- The tag of some bytes spells them, after a quote. -/
def spelledTags : Tagging where
  tag b := 34 :: etagOf b
  bytesOf t := spelled t.tail
  bytesOf_tag b := spelled_etagOf b
  tag_ne_nil _ := List.cons_ne_nil _ _

def sampleSecond : Instant := ⟨63900000000, by decide⟩

/-- What is stored of the lease does not depend on its tag. -/
def sampleTerms : Lease where
  dataset := lit "movielens"
  publicationId := lit "0123456789ab4def8123456789abcdef"
  ownerNonce := lit "00000000000000000000000000000001"
  state := .active
  createdAt := sampleSecond.moment
  expiresAt := (⟨63900000060, by decide⟩ : Instant).moment
  etag := []
  bucket := lit "landing"
  key := leaseKey (lit "movielens")

def sampleBody : Bytes := sampleTerms.body.toOption.getD []

def sampleLease : Lease := { sampleTerms with etag := spelledTags.tag sampleBody }

/-- A store with this lease, in the second it was taken in. -/
def sampleSite (skew : Int) : Site where
  world := ⟨fun loc => if loc = sampleLease.location then some ⟨sampleBody, spelledTags.tag sampleBody, []⟩ else none,
    sampleSecond, [], []⟩
  clock := 63900000000
  skew := skew
  completion := 63900000000
  spans := []
  shown := (Nat.floor_natCast 63900000000).symm

theorem sampleLease_body : sampleLease.body = .ok sampleBody := by
  have hok : sampleTerms.body.isOk = true := by decide +kernel
  show sampleTerms.body = .ok sampleBody
  unfold sampleBody
  cases h : sampleTerms.body with
  | error e => rw [h] at hok; cases hok
  | ok b => rfl

theorem sampleSite_held (skew : Int) : Held spelledTags (sampleSite skew) sampleLease sampleBody where
  written := sampleLease_body
  stored := by
    refine ⟨[], ?_⟩
    simp only [sampleSite, if_true]
  etag := rfl
  small := by decide +kernel
  active := rfl
  created := congrArg Instant.moment (Instant.moment_instant _)
  expires := congrArg Instant.moment (Instant.moment_instant _)
  begun := Moment.le_iff.mpr le_rfl
  minute := by decide

/-- With two clocks that agree, an operation of a hundred days keeps its lease. -/
theorem survives_iff_agreeing :
    Survives spelledTags (.ok () : Except Exn Unit) sampleLease ((sampleSite 0).starting 8640000) := by
  have hclock : (sampleSite 0).clock = 63900000000 := rfl
  have hends : (sampleLease.expiresAt.micros : Rat) = 63900000060000000 := by
    have hmicros : sampleLease.expiresAt.micros = 63900000060000000 := by decide
    rw [hmicros]
    norm_num
  have hmax : (maxSecond : Rat) = 315537897599 := by norm_num [maxSecond]
  refine (survives_iff (sampleSite_held 0) (by decide) ?_ ?_).mpr ⟨by decide, ?_, .inl ?_⟩ 8640000 (by norm_num) ?_
  · rw [hclock]
    norm_num
  · rw [hclock, hmax]
    norm_num
  · rw [hclock, hends]
    norm_num
  · rw [hclock, hends]
    norm_num
  · rw [hclock, hmax]
    norm_num

/-- Two minutes ahead is close enough for the dates of the store, and too far for the keepalive. -/
theorem ahead_lost : (120000000 : Int).natAbs ≤ maxClockSkew ∧ Held spelledTags (sampleSite 120000000) sampleLease sampleBody ∧
    ¬ Survives spelledTags (.ok () : Except Exn Unit) sampleLease ((sampleSite 120000000).starting 6) := by
  have hheld : Held spelledTags ((sampleSite 120000000).starting 6) sampleLease sampleBody :=
    { sampleSite_held 120000000 with }
  have hclock : ((sampleSite 120000000).starting 6).clock = 63900000000 := rfl
  have hcompletion : ((sampleSite 120000000).starting 6).completion = 63900000000 + 6 := rfl
  have hmax : (maxSecond : Rat) = 315537897599 := by norm_num [maxSecond]
  have hrange : ((sampleSite 120000000).starting 6).InRange := by
    refine ⟨?_, ?_, by decide⟩
    · rw [hclock]
      norm_num
    · rw [hclock, hmax]
      norm_num
  refine ⟨by decide, sampleSite_held _, (run_wasted 0 hheld hrange ?_ ?_ ?_ ?_ ?_).not_survives⟩
  · rw [hcompletion, hmax]
    norm_num
  · decide
  · decide
  · exact wasted_after_second (by decide) 63900000000
  · rw [hclock, hcompletion]
    norm_num

end Datasets
