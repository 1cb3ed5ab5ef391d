/-
A store and two clocks.

At a site nothing fails and nobody else writes.  The store answers at once, with dates cut
to whole seconds, and the local clock is ahead of the server's by the same number of
microseconds at all times.  Time passes only while the code waits for the operation; what
was stored meanwhile is kept with the span of time, so that it can be asked afterwards what
was stored when.

A site keeps the rules of the store (`Site.answer_allowed`).
-/
import DataEngLab.Datasets.Keepalive
import DataEngLab.Datasets.Scene
import Mathlib.Algebra.Order.Floor.Semiring
import Mathlib.Data.Rat.Floor

namespace Datasets

open Lib

/-- How the store makes ETags: no two bodies share one. -/
structure Tagging where
  tag : Bytes → Str
  bytesOf : Str → Bytes
  bytesOf_tag : ∀ b, bytesOf (tag b) = b
  tag_ne_nil : ∀ b, tag b ≠ []

theorem Tagging.tag_inj (g : Tagging) {b c : Bytes} (h : g.tag b = g.tag c) : b = c := by
  rw [← g.bytesOf_tag b, h, g.bytesOf_tag]

/-- What was stored from `start` to `stop`, in seconds of the server's clock. -/
structure Span where
  start : Rat
  stop : Rat
  objects : Location → Option StoredObject

def Span.Contains (x : Span) (t : Rat) : Prop := x.start ≤ t ∧ t ≤ x.stop

structure Site where
  world : World
  /-- the server's clock, in seconds -/
  clock : Rat
  /-- how far the local clock is ahead of it, in microseconds -/
  skew : Int
  /-- when the operation completes, by the server's clock -/
  completion : Rat
  spans : List Span
  /-- the server shows whole seconds -/
  shown : world.now.second = ⌊clock⌋₊

namespace Site

variable (s : Site)

/-- What the local clock reads, in whole microseconds. -/
def localMicros : Int := (⌊s.clock * 1000000⌋₊ : Int) + s.skew

/-- The local clock, in the range of `datetime`. -/
def localNow : Option Moment :=
  if h : 0 ≤ s.localMicros ∧ s.localMicros.toNat < (maxSecond + 1) * 1000000 then some ⟨s.localMicros.toNat, h.2⟩
  else none

/-- Time passes until `t`. -/
def passTo (t : Rat) : Option Site :=
  if h : ⌊t⌋₊ ≤ maxSecond then
    some { s with
      world := { s.world with now := ⟨⌊t⌋₊, h⟩ }
      clock := t
      spans := ⟨s.clock, t, s.world.objects⟩ :: s.spans
      shown := rfl }
  else none

def getReply (loc : Location) : GetReply :=
  match s.world.objects loc with
  | some o => .ok ⟨.date s.world.now, some o.etag, some o.metadata, .bytes o.body, none⟩
  | none => .raised (.clientError (some 404) (lit "NoSuchKey") (.date s.world.now))

/-- The operation completes, if it has not done so before. -/
def finish : Option Site := if s.completion ≤ s.clock then some s else s.passTo s.completion

/-- `completed.wait`: with a limit, to the end of the operation if that is not later. -/
def waitReply : Option Rat → Option (WaitReply × Site)
  | none => s.finish.map fun s' => (.completed, s')
  | some interval =>
      if s.completion ≤ s.clock + interval then s.finish.map fun s' => (.completed, s')
      else (s.passTo (s.clock + interval)).map fun s' => (.timedOut, s')

def put (loc : Location) (o : StoredObject) : Site := { s with world := s.world.put 0 loc o, shown := s.shown }

end Site

/-- How a site answers. -/
def Site.answer (g : Tagging) (s : Site) : (e : Call) → Option (Answer e × Site)
  | .getObject loc => some (s.getReply loc, s)
  | .putObject loc body metadata condition =>
      if condition.Holds (s.world.objects loc) then
        some (.ok (.date s.world.now), s.put loc ⟨body, g.tag body, metadata⟩)
      else some (.raised (.clientError (some 412) (lit "PreconditionFailed") (.date s.world.now)), s)
  | .utcNow =>
      match s.localNow with
      | some m => some (m, s)
      | none => none
  | .monotonic => some (s.clock, s)
  | .wait interval => s.waitReply interval
  | .uuid4 | .tokenHex | .turn | .fetch | .legacyCandidates | .readFile _ | .localStep _ | .inventory | .hang => none

theorem Site.passTo_drift {s s' : Site} {t : Rat} (ht : s.clock ≤ t) (h : s.passTo t = some s') :
    drift s.world s'.world := by
  unfold passTo at h
  split at h
  · cases h
    refine ⟨_, ?_, rfl⟩
    rw [Instant.le_iff, s.shown]
    exact Nat.floor_le_floor ht
  · cases h

theorem Site.finish_drift {s s' : Site} (h : s.finish = some s') : drift s.world s'.world := by
  unfold finish at h
  split at h
  · cases h
    exact ⟨s.world.now, Nat.le_refl _, rfl⟩
  · rename_i hnot
    exact passTo_drift (le_of_not_ge hnot) h

/-- **A site keeps the rules of the store**: time may pass, and then the call is answered as they say. -/
theorem Site.answer_allowed (g : Tagging) {s s' : Site} {log : List (Nat × Event Call Answer)} {e : Call}
    {r : Answer e} (hinterval : ∀ i, e = .wait (some i) → 0 ≤ i)
    (h : s.answer g e = some (r, s')) :
    ∃ w, drift s.world w ∧ answers g.bytesOf 0 ⟨w, log⟩ e r s'.world := by
  have hstill : drift s.world s.world := ⟨s.world.now, Nat.le_refl _, rfl⟩
  cases e with
  | getObject loc =>
      cases h
      refine ⟨s.world, hstill, ?_⟩
      unfold getReply
      split
      · rename_i o ho
        exact ⟨rfl, o, ho, fun d hd => by cases hd; rfl, fun e he => by cases he; rfl,
          fun m hm => by cases hm; rfl, fun b hb => by cases hb; rfl⟩
      · rename_i hnone
        exact ⟨rfl, fun d hd => by cases hd; rfl, fun _ => hnone⟩
  | putObject loc body metadata condition =>
      simp only [answer] at h
      split at h
      · rename_i hholds
        cases h
        exact ⟨s.world, hstill, ⟨hholds, g.tag body, g.bytesOf_tag body, rfl⟩, fun d hd => by cases hd; rfl⟩
      · cases h
        exact ⟨s.world, hstill, .inl rfl⟩
  | utcNow =>
      simp only [answer] at h
      split at h
      · cases h
        exact ⟨s.world, hstill, rfl⟩
      · cases h
  | monotonic =>
      cases h
      exact ⟨s.world, hstill, rfl⟩
  | wait interval =>
      have hfinish : s.finish.map (fun s' => ((.completed, s') : Answer (.wait interval) × Site)) = some (r, s') →
          drift s.world s'.world := fun hmap => by
        obtain ⟨s'', hs'', heq⟩ := Option.map_eq_some_iff.mp hmap
        cases heq
        exact finish_drift hs''
      refine ⟨s'.world, ?_, rfl⟩
      cases interval with
      | none => exact hfinish h
      | some i =>
          have hi := hinterval i rfl
          simp only [answer, waitReply] at h
          split at h
          · exact hfinish h
          · obtain ⟨s'', hs'', heq⟩ := Option.map_eq_some_iff.mp h
            cases heq
            exact passTo_drift (by linarith) hs''
  | uuid4 => cases h
  | tokenHex => cases h
  | turn => cases h
  | fetch => cases h
  | legacyCandidates => cases h
  | readFile path => cases h
  | localStep step => cases h
  | inventory => cases h
  | hang => cases h

end Datasets
