/-
What a reader of JSON can have read.

`scanValue_induct` is the induction over a reading: a property of the scalars that
`scanScalar` gives, which a container has through its values, holds of every value that is
read.  The level is that of the nesting still allowed, so two facts follow at once: no
integer is longer than the limit, and nothing is nested deeper than the reader goes.
-/
import DataEngLab.Lib.JsonDecoded
import DataEngLab.Lib.Rounding
import Mathlib.Data.List.TakeWhile

namespace Lib

section
variable {h : Hooks} {P : Json → Prop}

theorem scanElems_forall {value : Str → Except LoadsError (Json × Str)}
    (hvalue : ∀ s r v, value s = .ok (v, r) → P v) :
    ∀ {fuel : Nat} {s r : Str} {vs : List Json}, scanElems value fuel s = .ok (vs, r) → ∀ v ∈ vs, P v
  | 0, s, r, vs, h => by simp [scanElems] at h
  | fuel + 1, s, r, vs, h => by
      rw [scanElems] at h
      split at h
      · cases h
      · rename_i v r₁ hv
        split at h
        · cases h
          simpa using hvalue _ _ _ hv
        · split at h
          · cases h
          · rename_i vs' r₃ hvs
            cases h
            simpa using ⟨hvalue _ _ _ hv, scanElems_forall hvalue hvs⟩
        · cases h

theorem scanMembers_forall {value : Str → Except LoadsError (Json × Str)}
    (hvalue : ∀ s r v, value s = .ok (v, r) → P v) :
    ∀ {fuel : Nat} {s r : Str} {kvs : List (Str × Json)}, scanMembers value fuel s = .ok (kvs, r) →
      ∀ kv ∈ kvs, P kv.2
  | 0, s, r, kvs, h => by simp [scanMembers] at h
  | fuel + 1, s, r, kvs, h => by
      rw [scanMembers.eq_def] at h
      dsimp only at h
      split at h
      · split at h
        · cases h
        · split at h
          · split at h
            · cases h
            · rename_i v r₁ hv
              split at h
              · cases h
                simpa using hvalue _ _ _ hv
              · split at h
                · cases h
                · rename_i kvs' r₃ hkvs
                  cases h
                  refine List.forall_mem_cons.mpr ⟨hvalue _ _ _ hv, scanMembers_forall hvalue hkvs⟩
              · cases h
          · cases h
      · cases h

/-- A dictionary has no values but those of its pairs. -/
theorem makeDict_forall {pairs : List (Str × Json)} {v : Json} (hp : ∀ p ∈ pairs, P p.2)
    (hv : makeDict h pairs = .ok v) : ∃ kvs, v = .obj kvs ∧ ∀ kv ∈ kvs, P kv.2 := by
  have hfold : ∀ (pairs d : List (Str × Json)), (∀ p ∈ d, P p.2) → (∀ p ∈ pairs, P p.2) →
      ∀ p ∈ pairs.foldl (fun d p => dictInsert p.1 p.2 d) d, P p.2 := by
    intro pairs
    induction pairs with
    | nil => exact fun d hd _ => hd
    | cons p pairs ih =>
        intro d hd hp
        obtain ⟨hhead, htail⟩ := List.forall_mem_cons.mp hp
        refine ih _ (fun q hq => ?_) htail
        rcases mem_dictInsert hq with hq | ⟨hq, -⟩
        · exact hd q hq
        · exact hq ▸ hhead
  rw [makeDict] at hv
  split at hv
  · cases hv
  · cases hv
    exact ⟨_, rfl, hfold pairs [] (by simp) hp⟩

end

/-- The induction over a reading. -/
theorem scanValue_induct {h : Hooks} {P : Nat → Json → Prop}
    (scalar : ∀ depth s v r, scanScalar h s = .ok (v, r) → P depth v)
    (arr : ∀ depth xs, (∀ x ∈ xs, P depth x) → P (depth + 1) (.arr xs))
    (obj : ∀ depth kvs, (∀ kv ∈ kvs, P depth kv.2) → P (depth + 1) (.obj kvs)) :
    ∀ {depth : Nat} {s r : Str} {v : Json}, scanValue h depth s = .ok (v, r) → P depth v := by
  intro depth
  induction depth with
  | zero =>
      intro s r v hv
      rw [scanValue.eq_def] at hv
      dsimp only at hv
      split at hv
      · cases hv
      · cases hv
      · exact scalar _ _ _ _ hv
  | succ depth ih =>
      intro s r v hv
      rw [scanValue.eq_def] at hv
      dsimp only at hv
      split at hv
      · split at hv
        · cases hv
          exact arr depth [] (by simp)
        · split at hv
          · cases hv
          · rename_i vs r' hvs
            cases hv
            exact arr depth _ (scanElems_forall (fun _ _ _ => ih) hvs)
      · split at hv
        · split at hv
          · cases hv
          · rename_i w hw
            cases hv
            obtain ⟨kvs, rfl, hkvs⟩ := makeDict_forall (P := P depth) (by simp) hw
            exact obj depth kvs hkvs
        · split at hv
          · cases hv
          · rename_i kvs r' hkvs
            split at hv
            · cases hv
            · rename_i w hw
              cases hv
              obtain ⟨kvs', rfl, hkvs'⟩ := makeDict_forall (scanMembers_forall (fun _ _ _ => ih) hkvs) hw
              exact obj depth kvs' hkvs'
      · exact scalar _ _ _ _ hv

/-! ### What is read -/

/-- A scalar whose integers are short enough. -/
def Json.FitScalar (v : Json) : Prop := v.intsFit = true ∧ v.nesting = 0

theorem finishNumber_fits {neg : Bool} {ds s r : Str} {v : Json} (hds : ∀ c ∈ ds, isDigit c = true)
    (hne : ds ≠ []) (h : finishNumber neg ds s = .ok (v, r)) : v.FitScalar := by
  rw [finishNumber] at h
  split at h
  · split at h
    · rename_i hlen
      cases h
      have hlength := decDigits_length_le (digitsValue_lt hds) (List.length_pos_iff.mpr hne)
      have habs : (if neg then -(digitsValue ds : Int) else digitsValue ds).natAbs = digitsValue ds := by
        cases neg <;> simp
      refine ⟨?_, rfl⟩
      rw [Json.intsFit, intFits, habs]
      exact decide_eq_true (hlength.trans hlen)
    · cases h
  · cases h
    exact ⟨rfl, rfl⟩

theorem scanNatural_fits {neg : Bool} {s r : Str} {v : Json} (h : scanNatural neg s = .ok (v, r)) : v.FitScalar := by
  rw [scanNatural.eq_def] at h
  split at h
  · cases h
  · rename_i c t
    split at h
    · exact finishNumber_fits (by decide) (by simp) h
    · split at h
      · rename_i hdigit
        exact finishNumber_fits (fun x hx => List.mem_takeWhile_imp hx) (by simp [hdigit]) h
      · cases h

theorem constant_fits {hooks : Hooks} {name : String} {s r : Str} {v : Json}
    (h : constant hooks name s = .ok (v, r)) : v.FitScalar := by
  rw [constant] at h
  split at h
  · cases h
  · cases h
    exact ⟨rfl, rfl⟩

theorem scanScalar_fits {hooks : Hooks} {s r : Str} {v : Json} (h : scanScalar hooks s = .ok (v, r)) :
    v.FitScalar := by
  rw [scanScalar.eq_def] at h
  split at h
  · split at h
    · cases h
    · cases h
      exact ⟨rfl, rfl⟩
  · cases h
    exact ⟨rfl, rfl⟩
  · cases h
    exact ⟨rfl, rfl⟩
  · cases h
    exact ⟨rfl, rfl⟩
  · exact constant_fits h
  · exact constant_fits h
  · exact constant_fits h
  · exact scanNatural_fits h
  · exact scanNatural_fits h

/-- **A value that is read has no integer that cannot be written, and is not nested deeper than the reader
goes.** -/
theorem scanValue_fits {hooks : Hooks} {depth : Nat} {s r : Str} {v : Json}
    (h : scanValue hooks depth s = .ok (v, r)) : v.intsFit = true ∧ v.nesting ≤ depth := by
  refine scanValue_induct (P := fun depth v => v.intsFit = true ∧ v.nesting ≤ depth) ?_ ?_ ?_ h
  · intro depth s v r hv
    obtain ⟨hfit, hatom⟩ := scanScalar_fits hv
    exact ⟨hfit, hatom ▸ Nat.zero_le depth⟩
  · intro depth xs hxs
    simp only [Json.intsFit, elemsFit_iff, Json.nesting, Nat.add_le_add_iff_right, nestingElems_le]
    exact ⟨fun x hx => (hxs x hx).1, fun x hx => (hxs x hx).2⟩
  · intro depth kvs hkvs
    simp only [Json.intsFit, membersFit_iff, Json.nesting, Nat.add_le_add_iff_right, nestingMembers_le]
    exact ⟨fun kv hkv => (hkvs kv hkv).1, fun kv hkv => (hkvs kv hkv).2⟩

theorem loads_fits {hooks : Hooks} {s : Str} {v : Json} (h : loads hooks s = .ok v) :
    v.intsFit = true ∧ v.nesting ≤ nestingLimit := by
  rw [loads.eq_def] at h
  split at h
  · cases h
  · split at h
    · cases h
    · rename_i hscan
      split at h
      · cases h
        exact scanValue_fits hscan
      · cases h

theorem loadsUtf8_fits {hooks : Hooks} {b : Bytes} {v : Json} (h : loadsUtf8 hooks b = .ok v) :
    v.intsFit = true ∧ v.nesting ≤ nestingLimit := by
  rw [loadsUtf8] at h
  split at h
  · cases h
  · exact loads_fits h

end Lib
