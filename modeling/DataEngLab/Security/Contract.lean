/-
What the validation of evidence guarantees, and when it keeps to its one failure.

`Accepted` is the contract of an accepted document: its bytes are the canonical encoding of
the value, it is within its bounds, its limitations are those of the unsupported settings,
and its pull requests are in order.  Every document that is accepted has it.

`Closed` says of a check that it raises nothing but an `EvidenceFailure`.  All of them do,
except that looking up an optional setting in a set raises a `TypeError` for a list or an
object; `evidence_closed_iff` says exactly when that happens.
-/
import DataEngLab.Lib.JsonBounds
import DataEngLab.Security.Evidence
import Mathlib.Data.List.Dedup

namespace Security

open Lib

/-! ### Size -/

mutual
/-- The nodes of a value, keys among them. -/
def Json.entries : Json → Nat
  | .arr xs => entriesElems xs + 1
  | .obj kvs => entriesMembers kvs + 1
  | _ => 1

def entriesElems : List Json → Nat
  | [] => 0
  | x :: xs => Json.entries x + entriesElems xs

def entriesMembers : List (Str × Json) → Nat
  | [] => 0
  | (_, v) :: kvs => 1 + Json.entries v + entriesMembers kvs
end

theorem entries_inner (v : Json) : Json.entries v = ((inner v).map Json.entries).sum + 1 := by
  cases v with
  | arr xs =>
      rw [Json.entries, inner]
      induction xs with
      | nil => rfl
      | cons x xs ih =>
          rw [entriesElems, List.map_cons, List.sum_cons]
          omega
  | obj kvs =>
      rw [Json.entries, inner]
      induction kvs with
      | nil => rfl
      | cons kv kvs ih =>
          simp only [List.map_append, List.sum_append, List.map_cons, List.sum_cons, Json.entries] at ih ⊢
          rw [entriesMembers]
          omega
  | _ => rfl

theorem height_inner {v : Json} {room : Nat} (h : ∀ c ∈ inner v, c.height + 1 ≤ room) : v.height ≤ room := by
  cases v with
  | arr xs => exact heightElems_le.mpr h
  | obj kvs =>
      refine heightMembers_le.mpr fun kv hkv => h kv.2 ?_
      exact List.mem_append_right _ (List.mem_map.mpr ⟨kv, hkv, rfl⟩)
  | _ => exact Nat.zero_le room

theorem boundsLoop_ok : ∀ {room : Nat} {pending : List (Json × Nat)}, boundsLoop room pending = .ok () →
    (pending.map fun p => Json.entries p.1).sum ≤ room ∧ ∀ p ∈ pending, p.2 + p.1.height ≤ maxJsonDepth
  | _, [], _ => by simp
  | 0, (item, depth) :: pending, h => by simp [boundsLoop] at h
  | room + 1, (item, depth) :: pending, h => by
      simp only [boundsLoop, bind_eq_ok, require_eq_ok, decide_eq_true_eq, exists_const] at h
      obtain ⟨hdepth, hrest⟩ := h
      obtain ⟨hsum, hall⟩ := boundsLoop_ok hrest
      have hinner : (((inner item).reverse.map (·, depth + 1)).map fun p : Json × Nat => Json.entries p.1).sum =
          ((inner item).map Json.entries).sum := by
        rw [List.map_map, ← List.sum_reverse ((inner item).map Json.entries), List.map_reverse]
        rfl
      rw [List.map_append, List.sum_append, hinner] at hsum
      refine ⟨?_, List.forall_mem_cons.mpr ⟨?_, fun p hp => hall p (List.mem_append_right _ hp)⟩⟩
      · rw [List.map_cons, List.sum_cons, entries_inner item]
        omega
      · have hheight : item.height ≤ maxJsonDepth - depth := height_inner fun c hc => by
          have hmem : (c, depth + 1) ∈ (inner item).reverse.map (·, depth + 1) :=
            List.mem_map.mpr ⟨c, List.mem_reverse.mpr hc, rfl⟩
          have hle := hall (c, depth + 1) (List.mem_append_left _ hmem)
          dsimp only at hle
          omega
        dsimp only
        omega

/-! ### The contract -/

section
variable (floatRepr : Str → Str)

/-- The feature that a limitation names. -/
def featureOf : Json → Option Str
  | .obj kvs =>
      match Json.get "feature" kvs with
      | some (.str feature) => some feature
      | _ => none
  | _ => none

/-- Each optional setting that is unsupported has one limitation, and nothing else has one. -/
structure Limited (settings : Members) (entries : List Json) : Prop where
  named : ∀ e ∈ entries, (featureOf e).isSome = true
  exact : ∀ feature, entries.countP (fun e => featureOf e == some feature) =
    if ∃ name ∈ optionalSettings false, feature = lit name ∧ isUnsupported settings name = true then 1 else 0

/-- Two lists of pull requests in order, without one in common. -/
structure Ordered (s t : List Int) : Prop where
  first : s.Pairwise (· < ·)
  second : t.Pairwise (· < ·)
  positive : ∀ n ∈ s ++ t, 0 < n
  disjoint : s.Disjoint t

/-- What an accepted document is. -/
structure Accepted (body : Bytes) (value : Members) : Prop where
  canonical : ∃ text, canonicalText floatRepr (.obj value) = some text ∧ withoutNewline body = asciiBytes text
  nodes : Json.entries (.obj value) ≤ maxJsonNodes
  depth : (Json.obj value).height < maxJsonDepth
  limitations : ∃ settings entries, Json.get "settings" value = some (.obj settings) ∧
    Json.get "limitations" value = some (.arr entries) ∧ Limited settings entries
  pullRequests : ∃ dependabot s t, Json.get "dependabot" value = some (.obj dependabot) ∧
    Json.get "security_update_pull_requests" dependabot = some (.arr (s.map Json.int)) ∧
    Json.get "version_update_pull_requests" dependabot = some (.arr (t.map Json.int)) ∧ Ordered s t

end

/-! ### What the checks have found -/

section
variable {floatRepr : Str → Str} {value : Members} {body : Bytes}

theorem field_eq_ok {name : String} {v : Json} : field value name = .ok v ↔ Json.get name value = some v :=
  orElse_eq_ok

theorem objectWith_ok {fields : List String} {code : String} {v : Json} {kvs : Members}
    (h : objectWith fields code v = .ok kvs) : v = .obj kvs ∧ Json.hasExactly fields kvs = true := by
  rw [objectWith.eq_def] at h
  split at h
  · split at h
    · rename_i hexact
      obtain rfl := Except.ok.inj h
      exact ⟨rfl, hexact⟩
    · cases h
  · cases h

theorem decode_ok (h : decode floatRepr body = .ok value) :
    (∃ text, canonicalText floatRepr (.obj value) = some text ∧ withoutNewline body = asciiBytes text) ∧
      Json.entries (.obj value) ≤ maxJsonNodes ∧ (Json.obj value).height < maxJsonDepth := by
  simp only [decode, bind_eq_ok, require_eq_ok, exists_const, mapError_eq_ok] at h
  obtain ⟨-, v, -, ⟨⟩, hbounds, h⟩ := h
  cases v with
  | obj kvs =>
      simp only [bind_eq_ok, orElse_eq_ok, require_eq_ok, exists_const, pure_eq_ok, beq_iff_eq] at h
      obtain ⟨text, htext, hsame, rfl⟩ := h
      obtain ⟨hsum, hall⟩ := boundsLoop_ok hbounds
      have hheight := hall _ List.mem_cons_self
      refine ⟨⟨text, htext, hsame⟩, by simpa using hsum, ?_⟩
      dsimp only at hheight
      omega
  | _ => cases h

theorem isInt_ok {accepts : Int → Bool} {v : Json} (h : isInt accepts v = true) :
    v = .int (intOf v) ∧ accepts (intOf v) = true := by
  cases v with
  | int n => exact ⟨rfl, h⟩
  | _ => cases h

/-- A list that is its own sorted set is strictly increasing. -/
theorem pairwise_of_sorted {ns : List Int} (h : ns = ns.dedup.insertionSort (· ≤ ·)) : ns.Pairwise (· < ·) := by
  have hle : ns.Pairwise (· ≤ ·) := by
    rw [h]
    exact List.pairwise_insertionSort _ _
  have hnodup : ns.Nodup := by
    rw [h]
    exact ((List.perm_insertionSort _ _).nodup_iff).mpr (List.nodup_dedup ns)
  exact (hle.and hnodup).imp fun hab => lt_of_le_of_ne hab.1 hab.2

theorem validPrNumbers_ok {v : Json} (h : validPrNumbers v = true) :
    v = .arr ((numbers v).map Json.int) ∧ (numbers v).Pairwise (· < ·) ∧ ∀ n ∈ numbers v, 0 < n := by
  cases v with
  | arr xs =>
      simp only [validPrNumbers, Bool.and_eq_true, List.all_eq_true, beq_iff_eq] at h
      obtain ⟨⟨-, hall⟩, hsorted⟩ := h
      refine ⟨?_, pairwise_of_sorted hsorted, fun n hn => ?_⟩
      · rw [numbers, List.map_map]
        conv_lhs => rw [← List.map_id xs]
        exact congrArg Json.arr (List.map_congr_left fun x hx => (isInt_ok (hall x hx)).1)
      · obtain ⟨x, hx, rfl⟩ := List.mem_map.mp hn
        exact of_decide_eq_true (isInt_ok (hall x hx)).2
  | _ => cases h

theorem checkDependabot_ok (h : checkDependabot value = .ok ()) :
    ∃ dependabot s t, Json.get "dependabot" value = some (.obj dependabot) ∧
      Json.get "security_update_pull_requests" dependabot = some (.arr (s.map Json.int)) ∧
      Json.get "version_update_pull_requests" dependabot = some (.arr (t.map Json.int)) ∧ Ordered s t := by
  simp only [checkDependabot, bind_eq_ok, require_eq_ok, exists_const, field_eq_ok] at h
  obtain ⟨v, hv, dependabot, hobject, -, -, -, -, -, -, -, -, -, h⟩ := h
  obtain ⟨security, hsecurity, version, hversion, hs, ht, hdisjoint⟩ := h
  obtain ⟨rfl, -⟩ := objectWith_ok hobject
  obtain ⟨hsv, hsorted, hspos⟩ := validPrNumbers_ok hs
  obtain ⟨htv, htorted, htpos⟩ := validPrNumbers_ok ht
  refine ⟨dependabot, numbers security, numbers version, hv, hsv ▸ hsecurity, htv ▸ hversion, hsorted, htorted,
    fun n hn => ?_, fun n hns hnt => ?_⟩
  · rcases List.mem_append.mp hn with hn | hn
    · exact hspos n hn
    · exact htpos n hn
  · have hany : ((numbers security).any fun n => (numbers version).contains n) = true :=
      List.any_eq_true.mpr ⟨n, hns, List.contains_iff_mem.mpr hnt⟩
    rw [hany] at hdisjoint
    cases hdisjoint

/-- A limitation as it should be names an optional setting. -/
theorem limitationFeature_ok {limitation : Json} {feature : Str} (h : limitationFeature limitation = .ok feature) :
    featureOf limitation = some feature ∧ ∃ name ∈ optionalSettings false, feature = lit name := by
  simp only [limitationFeature, bind_eq_ok] at h
  obtain ⟨kvs, hobject, h⟩ := h
  obtain ⟨rfl, -⟩ := objectWith_ok hobject
  split at h
  · rename_i feature' hget
    simp only [bind_eq_ok, require_eq_ok, exists_const, pure_eq_ok, List.any_eq_true, beq_iff_eq] at h
    obtain ⟨hname, -, -, -, -, -, -, -, rfl⟩ := h
    exact ⟨by rw [featureOf, hget], hname⟩
  · cases h

/-- The loop collects the features of the limitations, each once. -/
theorem limitationLoop_ok : ∀ {xs : List Json} {seen features : List Str}, limitationLoop seen xs = .ok features →
    ∃ found, features = seen ++ found ∧ List.Forall₂ (fun x f => limitationFeature x = .ok f) xs found ∧
      (seen.Nodup → features.Nodup)
  | [], seen, features, h => by
      obtain rfl := Except.ok.inj h
      exact ⟨[], by simp, .nil, id⟩
  | x :: xs, seen, features, h => by
      simp only [limitationLoop, bind_eq_ok, require_eq_ok, exists_const, Bool.not_eq_true'] at h
      obtain ⟨feature, hfeature, hnew, hrest⟩ := h
      obtain ⟨found, rfl, hall, hnodup⟩ := limitationLoop_ok hrest
      refine ⟨feature :: found, by simp, .cons hfeature hall, fun hseen => hnodup ?_⟩
      exact List.nodup_append.mpr ⟨hseen, List.nodup_singleton _, fun a ha b hb => by
        rintro rfl
        obtain rfl := List.mem_singleton.mp hb
        rw [List.contains_iff_mem.mpr ha] at hnew
        cases hnew⟩

/-- As many limitations name a feature as it has been collected. -/
theorem countP_features {xs : List Json} {found : List Str}
    (h : List.Forall₂ (fun x f => limitationFeature x = .ok f) xs found) (feature : Str) :
    xs.countP (fun e => featureOf e == some feature) = found.count feature := by
  induction h with
  | nil => rfl
  | @cons x f xs found hx hrest ih =>
      rw [List.countP_cons, List.count_cons, ih, (limitationFeature_ok hx).1]
      simp

theorem validateLimitations_ok {settings : Members} {v : Json} (h : validateLimitations settings v = .ok ()) :
    ∃ entries, v = .arr entries ∧ Limited settings entries := by
  cases v with
  | arr xs =>
      simp only [validateLimitations, bind_eq_ok, require_eq_ok, exists_const] at h
      obtain ⟨-, features, hloop, -, -, hall⟩ := h
      obtain ⟨found, hfound, hfeatures, hnodup⟩ := limitationLoop_ok hloop
      obtain rfl : features = found := by simpa using hfound
      have hnodup := hnodup List.nodup_nil
      refine ⟨xs, rfl, fun e he => ?_, fun feature => ?_⟩
      · obtain ⟨i, hi, rfl⟩ := List.getElem_of_mem he
        have hfeature := (List.forall₂_iff_get.mp hfeatures).2 i hi ((List.Forall₂.length_eq hfeatures) ▸ hi)
        rw [List.get_eq_getElem] at hfeature
        rw [(limitationFeature_ok hfeature).1]
        rfl
      · rw [countP_features hfeatures]
        have hmem : feature ∈ features ↔
            ∃ name ∈ optionalSettings false, feature = lit name ∧ isUnsupported settings name = true := by
          rw [List.all_eq_true] at hall
          constructor
          · intro hm
            obtain ⟨i, hi, hget⟩ := List.getElem_of_mem hm
            have hx := (List.forall₂_iff_get.mp hfeatures).2 i ((List.Forall₂.length_eq hfeatures).symm ▸ hi) hi
            rw [List.get_eq_getElem, List.get_eq_getElem, hget] at hx
            obtain ⟨name, hname, rfl⟩ := (limitationFeature_ok hx).2
            refine ⟨name, hname, rfl, ?_⟩
            have hsame := beq_iff_eq.mp (hall name hname)
            rw [← hsame]
            exact List.contains_iff_mem.mpr hm
          · rintro ⟨name, hname, rfl, hunsupported⟩
            have hsame := beq_iff_eq.mp (hall name hname)
            exact List.contains_iff_mem.mp (hsame.trans hunsupported)
        split
        · rename_i hex
          exact List.count_eq_one_of_mem hnodup (hmem.mpr hex)
        · rename_i hnone
          exact List.count_eq_zero.mpr fun hm => hnone (hmem.mp hm)
  | _ => cases h

theorem enabledSettings_ok {settings : Members} (h : enabledSettings value = .ok settings) :
    Json.get "settings" value = some (.obj settings) ∧ Json.hasExactly settingFields settings = true := by
  simp only [enabledSettings, bind_eq_ok, field_eq_ok, pure_eq_ok] at h
  obtain ⟨v, hv, settings', hobject, -, -, rfl⟩ := h
  obtain ⟨rfl, hexact⟩ := objectWith_ok hobject
  exact ⟨hv, hexact⟩

/-- **An accepted document has the contract.** -/
theorem validateEvidence_ok {flipped : Bool} (h : validateEvidence floatRepr flipped body = .ok value) :
    Accepted floatRepr body value := by
  simp only [validateEvidence, bind_eq_ok, field_eq_ok, pure_eq_ok] at h
  obtain ⟨v, hdecode, commitSha, -, settings, hsettings, -, -, ⟨⟩, hdependabot, h⟩ := h
  obtain ⟨-, -, -, -, limitations, hfield, ⟨⟩, hlimitations, rfl⟩ := h
  obtain ⟨hcanonical, hnodes, hdepth⟩ := decode_ok hdecode
  obtain ⟨entries, rfl, hlimited⟩ := validateLimitations_ok hlimitations
  exact ⟨hcanonical, hnodes, hdepth, ⟨settings, entries, (enabledSettings_ok hsettings).1, hfield, hlimited⟩,
    checkDependabot_ok hdependabot⟩

end

/-! ### Nothing but the failure -/

/-- Nothing else is raised. -/
def Closed {α : Type} (x : Except Raised α) : Prop := ∀ e, x = .error e → ∃ code, e = .evidenceFailure code

section
variable {α β : Type} {x : Except Raised α} {f : α → Except Raised β}

theorem Closed.ok {a : α} : Closed (.ok a : Except Raised α) := fun _ h => by cases h

theorem Closed.pure {a : α} : Closed (Pure.pure a : Except Raised α) := Closed.ok

theorem Closed.fail {code : String} : Closed (.error (Security.fail code) : Except Raised α) :=
  fun _ h => ⟨code, (Except.error.inj h).symm⟩

theorem Closed.require {c : Bool} {code : String} : Closed (Lib.require c (Security.fail code)) := by
  cases c with
  | true => exact .ok
  | false => exact .fail

theorem closed_bind_iff : Closed (x >>= f) ↔ Closed x ∧ ∀ a, x = .ok a → Closed (f a) := by
  cases x with
  | error e =>
      refine ⟨fun h => ⟨fun e' he => h e' ?_, fun a ha => by cases ha⟩, fun h e' he => h.1 e' ?_⟩
      · obtain rfl := Except.error.inj he
        rfl
      · obtain rfl := Except.error.inj he
        rfl
  | ok a => exact ⟨fun h => ⟨.ok, fun b hb => Except.ok.inj hb ▸ h⟩, fun h => h.2 a rfl⟩

theorem Closed.bind (hx : Closed x) (hf : ∀ a, x = .ok a → Closed (f a)) : Closed (x >>= f) :=
  closed_bind_iff.mpr ⟨hx, hf⟩

theorem Closed.checkAll : ∀ {xs : List α}, (∀ a ∈ xs, Closed (f a)) → Closed (Lib.checkAll f xs)
  | [], _ => .ok
  | a :: xs, h => .bind (h a List.mem_cons_self) fun _ _ =>
      .bind (.checkAll fun b hb => h b (List.mem_cons_of_mem a hb)) fun _ _ => .pure

end

section
variable {floatRepr : Str → Str} {flipped : Bool} {value settings kvs : Members} {body : Bytes}

theorem boundsLoop_closed : ∀ {room : Nat} {pending : List (Json × Nat)}, Closed (boundsLoop room pending)
  | _, [] => by
      rw [boundsLoop.eq_def]
      exact .ok
  | 0, _ :: _ => .fail
  | _ + 1, _ :: _ => .bind .require fun _ _ => boundsLoop_closed

theorem readFailure_closed {α : Type} (x : Except LoadsError α) : Closed (x.mapError readFailure) := by
  rcases x with e | a
  · cases e <;> exact .fail
  · exact .ok

/-- A value that has been read can be written. -/
theorem decode_closed : Closed (decode floatRepr body) := by
  refine .bind .require fun _ _ => .bind (readFailure_closed _) fun v hv => .bind boundsLoop_closed fun _ _ => ?_
  cases v with
  | obj kvs =>
      have hfits := (loadsUtf8_fits (mapError_eq_ok.mp hv)).1
      obtain ⟨text, htext⟩ : ∃ text, canonicalText floatRepr (.obj kvs) = some text :=
        ⟨_, dumps_eq_some.mpr ⟨(Json.intsFit_mapFloats floatRepr _).trans hfits, rfl⟩⟩
      dsimp only
      rw [htext]
      exact .bind .ok fun _ _ => .bind .require fun _ _ => .pure
  | _ => exact .fail

/-- A field that an object has. -/
theorem field_closed {fields : List String} {name : String} (h : Json.hasExactly fields kvs = true)
    (hname : name ∈ fields) : Closed (field kvs name) := by
  obtain ⟨-, hall⟩ := Bool.and_eq_true_iff.mp h
  obtain ⟨v, hv⟩ := Option.isSome_iff_exists.mp (List.all_eq_true.mp hall name hname)
  rw [field, hv]
  exact .ok

/-- A field is looked up and checked. -/
theorem Closed.check {β : Type} {name code : String} {p : Json → Bool} {rest : Except Raised β}
    (hfield : Closed (field kvs name)) (hrest : Closed rest) :
    Closed (field kvs name >>= fun v => Lib.require (p v) (Security.fail code) >>= fun _ => rest) :=
  .bind hfield fun _ _ => .bind .require fun _ _ => hrest

theorem objectWith_closed {fields : List String} {code : String} {v : Json} : Closed (objectWith fields code v) := by
  rw [objectWith.eq_def]
  split
  · split
    · exact .ok
    · exact .fail
  · exact .fail

theorem checkHeader_exact {commitSha : Json} (h : checkHeader value = .ok commitSha) :
    Json.hasExactly topLevelFields value = true := by
  simp only [checkHeader, bind_eq_ok, require_eq_ok] at h
  exact h.choose_spec.1

theorem checkHeader_closed : Closed (checkHeader value) := by
  refine .bind .require fun _ h => ?_
  have hexact := require_eq_ok.mp h
  refine .check (field_closed hexact (by decide)) ?_
  refine .check (field_closed hexact (by decide)) ?_
  refine .check (field_closed hexact (by decide)) ?_
  refine .bind (field_closed hexact (by decide)) fun _ _ => ?_
  refine .bind .require fun _ _ => ?_
  exact .pure

section
variable (hvalue : Json.hasExactly topLevelFields value = true)
include hvalue

theorem enabledSettings_closed : Closed (enabledSettings value) := by
  refine .bind (field_closed hvalue (by decide)) fun v _ => .bind objectWith_closed fun kvs hkvs => ?_
  obtain ⟨-, hexact⟩ := objectWith_ok hkvs
  refine .bind (.checkAll fun name hname => ?_) fun _ _ => .pure
  have hfield : name ∈ settingFields := by
    simp only [requiredSettings, List.mem_cons, List.not_mem_nil, or_false] at hname
    rcases hname with rfl | rfl | rfl <;> decide
  exact .bind (field_closed hexact hfield) fun _ _ => .require

theorem checkDependabot_closed : Closed (checkDependabot value) := by
  refine .bind (field_closed hvalue (by decide)) fun v _ => .bind objectWith_closed fun kvs hkvs => ?_
  obtain ⟨-, hexact⟩ := objectWith_ok hkvs
  refine .check (field_closed hexact (by decide)) ?_
  refine .check (field_closed hexact (by decide)) ?_
  refine .check (field_closed hexact (by decide)) ?_
  refine .bind (field_closed hexact (by decide)) fun _ _ => ?_
  refine .bind (field_closed hexact (by decide)) fun _ _ => ?_
  refine .bind .require fun _ _ => ?_
  refine .bind .require fun _ _ => ?_
  exact .require

theorem checkProbe_closed (commitSha : Json) : Closed (checkProbe value commitSha) := by
  refine .bind (field_closed hvalue (by decide)) fun v _ => .bind objectWith_closed fun kvs hkvs => ?_
  obtain ⟨-, hexact⟩ := objectWith_ok hkvs
  refine .bind (field_closed hexact (by decide)) fun _ _ => ?_
  refine .bind (field_closed hexact (by decide)) fun _ _ => ?_
  refine .bind (field_closed hexact (by decide)) fun _ _ => ?_
  refine .bind (field_closed hexact (by decide)) fun _ _ => ?_
  refine .bind (.checkAll fun f hf => ?_) fun _ _ => ?_
  · have hfield : f.1 ∈ probeFields := by
      have hall : probeTexts.all (fun f => decide (f.1 ∈ probeFields)) = true := by decide
      exact of_decide_eq_true (List.all_eq_true.mp hall f hf)
    exact .bind (field_closed hexact hfield) fun _ _ => .require
  refine .check (field_closed hexact (by decide)) ?_
  refine .check (field_closed hexact (by decide)) ?_
  refine .bind .require fun _ _ => ?_
  refine .bind .require fun _ _ => ?_
  exact .require

theorem checkCodeScanning_closed (commitSha : Json) : Closed (checkCodeScanning value commitSha) := by
  refine .bind (field_closed hvalue (by decide)) fun v _ => .bind objectWith_closed fun kvs hkvs => ?_
  obtain ⟨-, hexact⟩ := objectWith_ok hkvs
  refine .bind (field_closed hexact (by decide)) fun _ _ => ?_
  refine .check (field_closed hexact (by decide)) ?_
  refine .check (field_closed hexact (by decide)) ?_
  refine .bind objectWith_closed fun _ _ => ?_
  refine .bind .require fun _ _ => ?_
  exact .require

end

theorem limitationFeature_closed (limitation : Json) : Closed (limitationFeature limitation) := by
  refine .bind objectWith_closed fun kvs hkvs => ?_
  obtain ⟨-, hexact⟩ := objectWith_ok hkvs
  split
  · refine .bind .require fun _ _ => .bind (field_closed hexact (by decide)) fun _ _ => ?_
    refine .bind (field_closed hexact (by decide)) fun _ _ => .bind (field_closed hexact (by decide)) fun _ _ => ?_
    exact .bind .require fun _ _ => .pure
  · exact .fail

theorem limitationLoop_closed : ∀ {xs : List Json} {seen : List Str}, Closed (limitationLoop seen xs)
  | [], _ => .ok
  | _ :: _, _ => .bind (limitationFeature_closed _) fun _ _ => .bind .require fun _ _ => limitationLoop_closed

theorem validateLimitations_closed {v : Json} (h : Json.hasExactly settingFields settings = true) :
    Closed (validateLimitations settings v) := by
  cases v with
  | arr xs =>
      refine .bind .require fun _ _ => .bind limitationLoop_closed fun _ _ =>
        .bind (.checkAll fun name hname => ?_) fun _ _ => .require
      have hfield : name ∈ settingFields := by
        simp only [optionalSettings, Bool.false_eq_true, if_false, List.mem_cons, List.not_mem_nil, or_false] at hname
        rcases hname with rfl | rfl <;> decide
      exact field_closed h hfield
  | _ => exact .fail

/-! ### The optional settings -/

/-- A value that no setting may have. -/
def isOdd (v : Json) : Bool := !(isText "enabled" v || isText "unsupported" v)

/-- The first optional setting that is odd, in the order that Python goes through them, is a list or an object. -/
def meetsContainer (flipped : Bool) (settings : Members) : Bool :=
  (((optionalSettings flipped).filterMap fun name => Json.get name settings).find? isOdd).any Json.isContainer

theorem isOdd_of_container {v : Json} (h : v.isContainer = true) : isOdd v = true := by
  cases v <;> first | rfl | cases h

/-- The check of each name in turn: it is closed unless the first odd value is a container. -/
theorem checkNames_closed_iff : ∀ {names : List String},
    (∀ name ∈ names, (Json.get name settings).isSome = true) →
    (Closed (checkAll (fun name => do
      require (← inSettings (← field settings name)) (fail "settings_shape_invalid")) names) ↔
      ((names.filterMap fun name => Json.get name settings).find? isOdd).any Json.isContainer = false)
  | [], _ => iff_of_true .ok rfl
  | name :: names, h => by
      obtain ⟨v, hv⟩ := Option.isSome_iff_exists.mp (h name List.mem_cons_self)
      have hrest := checkNames_closed_iff fun other hother => h other (List.mem_cons_of_mem name hother)
      have hfield : field settings name = .ok v := field_eq_ok.mpr hv
      have hvalues : (name :: names).filterMap (fun name => Json.get name settings) =
          v :: names.filterMap fun name => Json.get name settings := by
        rw [List.filterMap_cons, hv]
      rw [checkAll, hfield, hvalues, List.find?_cons]
      cases hc : v.isContainer with
      | true =>
          rw [isOdd_of_container hc]
          refine iff_of_false (fun hclosed => ?_) (by simp [hc])
          have hraised : inSettings v = .error .typeError := by rw [inSettings, if_pos hc]
          obtain ⟨code, hcode⟩ := hclosed .typeError (by
            show (inSettings v >>= _ >>= _) = _
            rw [hraised]
            rfl)
          cases hcode
      | false =>
          have hin : inSettings v = .ok (!isOdd v) := by
            rw [inSettings, if_neg (by simp [hc]), isOdd, Bool.not_not]
          change Closed (inSettings v >>= _ >>= _) ↔ _
          rw [hin]
          cases ho : isOdd v with
          | true => exact iff_of_true (fun _ he => ⟨_, (Except.error.inj he).symm⟩) (by simp [hc])
          | false =>
              change Closed (checkAll _ names >>= _) ↔ _
              rw [closed_bind_iff, ← hrest]
              exact and_iff_left fun _ _ => .pure

/-- The checks before the optional settings pass, and they have no such value. -/
def OptionalHashable (floatRepr : Str → Str) (flipped : Bool) (body : Bytes) : Prop :=
  ∀ value commitSha settings, decode floatRepr body = .ok value → checkHeader value = .ok commitSha →
    enabledSettings value = .ok settings → meetsContainer flipped settings = false

theorem checkOptional_closed_iff (h : Json.hasExactly settingFields settings = true) :
    Closed (checkOptional flipped settings) ↔ meetsContainer flipped settings = false := by
  have hnames : ∀ name ∈ optionalSettings flipped, (Json.get name settings).isSome = true := by
    intro name hname
    have hfield : name ∈ settingFields := by
      cases flipped <;>
        simp only [optionalSettings, Bool.false_eq_true, if_false, if_true, List.mem_cons, List.not_mem_nil,
          or_false] at hname <;>
        rcases hname with rfl | rfl <;> decide
    exact List.all_eq_true.mp (Bool.and_eq_true_iff.mp h).2 name hfield
  rw [meetsContainer, ← checkNames_closed_iff hnames, checkOptional, closed_bind_iff]
  exact and_iff_left fun _ _ => .pure

/-- **The validation is closed exactly when no optional setting is looked up that cannot be hashed**: then it
raises nothing but its failure, and what it accepts has the contract. -/
theorem evidence_closed_iff (floatRepr : Str → Str) (flipped : Bool) (body : Bytes) :
    ((∀ e, validateEvidence floatRepr flipped body = .error e → ∃ code, e = .evidenceFailure code) ∧
      ∀ value, validateEvidence floatRepr flipped body = .ok value → Accepted floatRepr body value) ↔
    OptionalHashable floatRepr flipped body := by
  rw [and_iff_left fun value h => validateEvidence_ok h]
  change Closed (validateEvidence floatRepr flipped body) ↔ _
  rw [validateEvidence, closed_bind_iff, and_iff_right decode_closed]
  refine forall_congr' fun value => ⟨fun h commitSha settings hvalue hcommit hsettings => ?_, fun h hvalue => ?_⟩
  · have hexact := (enabledSettings_ok hsettings).2
    have hheader := (closed_bind_iff.mp (h hvalue)).2 commitSha hcommit
    have hrest := (closed_bind_iff.mp hheader).2 settings hsettings
    exact (checkOptional_closed_iff hexact).mp (closed_bind_iff.mp hrest).1
  · refine .bind checkHeader_closed fun commitSha hcommit => ?_
    have hfields := checkHeader_exact hcommit
    refine .bind (enabledSettings_closed hfields) fun settings hsettings => ?_
    have hexact := (enabledSettings_ok hsettings).2
    exact .bind ((checkOptional_closed_iff hexact).mpr (h commitSha settings hvalue hcommit hsettings)) fun _ _ =>
      .bind (checkDependabot_closed hfields) fun _ _ => .bind (checkProbe_closed hfields commitSha) fun _ _ =>
      .bind (checkCodeScanning_closed hfields commitSha) fun _ _ => .bind (field_closed hfields (by decide)) fun _ _ =>
      .bind (validateLimitations_closed hexact) fun _ _ => .pure

end

/-- A canonical document whose optional settings are lists. -/
def listSettings : Bytes := asciiBytes
  (lit "\x7b\"captured_at\":\"2026-08-16T12:34:56Z\",\"code_scanning\":null,\"commit_sha\":\"" ++
    List.replicate 40 97 ++ lit "\"," ++
    lit "\"dependabot\":null,\"limitations\":null,\"repository\":\"thekaveh/data-eng-lab\",\"schema_version\":1," ++
    lit "\"secret_scanning\":null,\"settings\":\x7b\"dependabot_security_updates\":\"enabled\"," ++
    lit "\"secret_scanning\":\"enabled\"," ++
    lit "\"secret_scanning_non_provider_patterns\":[],\"secret_scanning_push_protection\":\"enabled\"," ++
    lit "\"secret_scanning_validity_checks\":[]\x7d\x7d")

/-- Neither order of the settings keeps the validation from a `TypeError`. -/
theorem evidence_raises : validateEvidence id false listSettings = .error .typeError ∧
    validateEvidence id true listSettings = .error .typeError := by
  have hraised : ∀ flipped, (validateEvidence id flipped listSettings).map (fun _ => ()) = .error .typeError := by
    decide +kernel
  have hboth : ∀ flipped, validateEvidence id flipped listSettings = .error .typeError := by
    intro flipped
    have h := hraised flipped
    cases hv : validateEvidence id flipped listSettings with
    | error e =>
        rw [hv] at h
        exact congrArg Except.error (Except.error.inj h)
    | ok value =>
        rw [hv] at h
        cases h
  exact ⟨hboth false, hboth true⟩

end Security
