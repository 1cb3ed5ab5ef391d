/-
A store whose objects stay as they are.

What a run of the publication code gets from the store is, read by read, whatever the store
answers.  Results that speak of the contents of a store need more: `Serves` says that a
control object is read with the same outcome every time, and nothing else about the client.
An honest client over fixed objects has that property, `honest_serves`, whatever chunks it
is asked for.
-/
import DataEngLab.Datasets.Publication.Resolve

namespace Publication

open Lib
open Datasets (Location ControlSnapshot)

/-- Reading the control object of a location has one outcome, in every state of the client. -/
def Serves {W : Type} (answer : W → (e : Call) → Answer e × W) (read : Location → Except Exn ControlSnapshot) :
    Prop := ∀ loc w, (Proc.run answer (readControlObject loc) w).1 = read loc

/-! ### An honest client -/

def dawn : Instant := ⟨0, Nat.zero_le _⟩

/-- A client over fixed objects.  Its state is what has not been read yet of the last response. -/
def honest (objects : Location → Option Bytes) : Bytes → (e : Call) → Answer e × Bytes
  | _, .getObject loc =>
      match objects loc with
      | none => (.raised (.clientError (some 404) (lit "NoSuchKey") .missing), [])
      | some body => (.ok ⟨.date dawn, some (lit "etag"), some [], .present true true⟩, body)
  | pending, .read _ size => (.bytes (pending.take size.toNat), pending.drop size.toNat)
  | pending, .close _ => (none, pending)
  | pending, .utcNow => (dawn.moment, pending)
  | pending, .openCapture => (none, pending)
  | pending, .closeCapture => (none, pending)
  | pending, .write chunk => (.count chunk.length, pending)
  | pending, .flush => (none, pending)
  | pending, .inspectSchema _ => (.ok (), pending)

/-- What reading a control object of an honest client gives. -/
def served (objects : Location → Option Bytes) (loc : Location) : Except Exn ControlSnapshot :=
  match objects loc with
  | none => .error ambiguousRead
  | some body =>
      if body.length ≤ Datasets.maxControlBytes then .ok ⟨body, lit "etag", dawn⟩
      else .error (.ambiguousWrite "S3 control object is too large")

section
variable {objects : Location → Option Bytes}

/-- The rounds read one byte more than the limit, or all there is. -/
theorem run_readLoop (loc : Location) {limit : Nat} : ∀ {rounds : Nat} {body pending : Bytes},
    limit + 1 ≤ rounds + body.length → (Proc.run (honest objects) (readLoop loc limit rounds body) pending).1 =
      .ok (body ++ pending.take (limit + 1 - body.length)) := by
  intro rounds
  induction rounds with
  | zero =>
      intro body pending h
      rw [Nat.zero_add] at h
      rw [readLoop, run_pure, Nat.sub_eq_zero_of_le h, List.take_zero, List.append_nil]
  | succ rounds ih =>
      intro body pending h
      rw [readLoop]
      split
      · rename_i hlong
        rw [run_pure, Nat.sub_eq_zero_of_le hlong, List.take_zero, List.append_nil]
      · rename_i hshort
        have hsize : ((min 65536 (limit + 1 - body.length) : Int)).toNat = min 65536 (limit + 1 - body.length) := by
          omega
        set size := min 65536 (limit + 1 - body.length) with hmin
        have hpos : 1 ≤ size := by omega
        simp only [perform, run_bind, run_perform, honest, hsize]
        split
        · rename_i hend
          have hnone : pending = [] := by
            rcases List.take_eq_nil_iff.mp hend with hzero | hnone
            · omega
            · exact hnone
          rw [run_pure, hnone, List.take_nil, List.append_nil]
        · rename_i hmore
          have hsome : 1 ≤ pending.length := by
            by_contra hnone
            exact hmore (by rw [List.length_eq_zero_iff.mp (by omega : pending.length = 0), List.take_nil])
          rw [ih (by rw [List.length_append, List.length_take]; omega), List.length_append, List.length_take]
          refine congrArg Except.ok ?_
          rw [List.append_assoc]
          refine congrArg (body ++ ·) ?_
          by_cases hall : pending.length ≤ size
          · rw [List.take_of_length_le hall, List.drop_of_length_le hall, List.take_nil, List.append_nil,
              List.take_of_length_le (by omega)]
          · rw [Nat.min_eq_left (by omega), Nat.sub_add_eq, ← List.take_add, Nat.add_sub_cancel' (by omega)]

/-- The body of the last response, when it is no longer than the limit. -/
theorem run_readBounded (loc : Location) (body : Bytes) :
    (Proc.run (honest objects) (readBounded loc true) body).1 =
      if body.length ≤ Datasets.maxControlBytes then .ok body
      else .error (.ambiguousWrite "S3 control object is too large") := by
  have hread : (Proc.run (honest objects) (readLoop loc Datasets.maxControlBytes (Datasets.maxControlBytes + 1) [])
      body).1 = .ok ([] ++ body.take (Datasets.maxControlBytes + 1 - List.length [])) :=
    run_readLoop loc (Nat.le_refl _)
  rw [List.nil_append, List.length_nil, Nat.sub_zero] at hread
  simp only [readBounded, if_true, run_bind, hread]
  by_cases hlong : body.length ≤ Datasets.maxControlBytes
  · rw [List.take_of_length_le (Nat.le_succ_of_le hlong), if_neg (Nat.not_lt.mpr hlong), if_pos hlong, run_pure]
  · have hcut : Datasets.maxControlBytes < (body.take (Datasets.maxControlBytes + 1)).length := by
      rw [List.length_take]
      omega
    rw [if_pos hcut, if_neg hlong, run_throw]

/-- Closing raises nothing, so a block with an owned body has the outcome of the block. -/
theorem run_ownedBody {α : Type} (loc : Location) (x : S α) (pending : Bytes) :
    (Proc.run (honest objects) (ownedBody (closeBody loc true) x) pending).1 =
      (Proc.run (honest objects) x pending).1 := by
  have hclose : closeBody loc true = perform (.close loc) := rfl
  simp only [ownedBody, hclose, run_bind, run_attempt]
  rcases (Proc.run (honest objects) x pending).1 with e | a
  · rfl
  · rfl

theorem run_readControlObject (loc : Location) (pending : Bytes) :
    (Proc.run (honest objects) (readControlObject loc) pending).1 = served objects loc := by
  cases hobject : objects loc with
  | none =>
      simp only [readControlObject, getObject, perform, run_bind, run_perform, honest, hobject, run_throw, served,
        isClientFailure, if_true]
  | some body =>
      have hskew : ¬ Datasets.maxClockSkew < Datasets.skew dawn.moment dawn.moment := by decide
      have hetag : responseEtag (some (lit "etag")) = .ok (lit "etag") := rfl
      simp only [readControlObject, getObject, perform, run_bind, run_perform, honest, hobject, run_pure,
        run_ownedBody, responseServerDate, if_neg hskew, lift, run_lift, hetag, run_readBounded, served]
      by_cases hlong : body.length ≤ Datasets.maxControlBytes
      · simp only [if_pos hlong]
      · simp only [if_neg hlong]

/-- **An honest client serves its objects.** -/
theorem honest_serves (objects : Location → Option Bytes) : Serves (honest objects) (served objects) :=
  fun loc pending => run_readControlObject loc pending

end

end Publication
