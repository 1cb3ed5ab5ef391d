/-
What canonical JSON guarantees.

`canonicalJsonBytes` succeeds on a value exactly when the value has no floats, is within
its bounds, and prints.  What it then writes is read back, by either reader, as the value
with its keys sorted, and writing that again gives the same bytes.

The records are objects with a fixed list of fields, so the rest is about those: a field
of such an object is found under its name, before and after sorting.
-/
import DataEngLab.Checkpoints.Records
import DataEngLab.Lib.JsonBounds

namespace Checkpoints

open Lib

/-! ### Walking over a value -/

section
variable {l : WalkLimits}

/-- What `walk` does to every element holds of the walk over the elements. -/
theorem walkElems_eq_ok {xs : List Json} {depth n m : Nat}
    (h : ∀ x ∈ xs, ∀ n m, walk l depth x n = .ok m ↔ x.noFloats = true ∧ m = n + x.nodes ∧
      m ≤ l.maxNodes ∧ depth + x.height ≤ l.maxDepth) :
    walkElems l depth xs n = .ok m ↔ noFloatElems xs = true ∧ m = n + nodesElems xs ∧
      (xs ≠ [] → m ≤ l.maxNodes) ∧ ∀ x ∈ xs, depth + x.height ≤ l.maxDepth := by
  induction xs generalizing n with
  | nil => simp [walkElems, noFloatElems, nodesElems, eq_comm]
  | cons x xs ih =>
      have hx := h x (by simp)
      have hxs := fun n => ih (n := n) fun y hy => h y (List.mem_cons_of_mem x hy)
      simp only [walkElems, noFloatElems, nodesElems, Bool.and_eq_true, List.forall_mem_cons]
      rcases hw : walk l depth x n with e | k
      · constructor
        · intro hc; cases hc
        · rintro ⟨⟨hf, -⟩, hm, hle, hd, -⟩
          have := (hx n (n + x.nodes)).mpr ⟨hf, rfl, by have := hle (by simp); omega, hd⟩
          rw [hw] at this
          cases this
      · obtain ⟨hf, hk, hle, hd⟩ := (hx n k).mp hw
        simp only [hxs]
        constructor
        · rintro ⟨hfs, hm, hms, hds⟩
          refine ⟨⟨hf, hfs⟩, by omega, fun _ => ?_, hd, hds⟩
          cases xs with
          | nil => simp only [nodesElems] at hm; omega
          | cons y ys => exact hms (by simp)
        · rintro ⟨⟨-, hfs⟩, hm, hms, -, hds⟩
          exact ⟨hfs, by omega, fun _ => hms (by simp), hds⟩

theorem walkMembers_eq (depth n : Nat) (kvs : List (Str × Json)) :
    walkMembers l depth kvs n = walkElems l depth (kvs.map Prod.snd) n := by
  induction kvs generalizing n with
  | nil => rfl
  | cons kv kvs ih =>
      obtain ⟨k, v⟩ := kv
      simp only [walkMembers, walkElems, List.map_cons]
      rcases walk l depth v n with e | m
      · rfl
      · exact ih m

theorem members_map_snd (kvs : List (Str × Json)) :
    noFloatElems (kvs.map Prod.snd) = noFloatMembers kvs ∧
      nodesElems (kvs.map Prod.snd) = nodesMembers kvs := by
  induction kvs with
  | nil => exact ⟨rfl, rfl⟩
  | cons kv kvs ih =>
      simp only [List.map_cons, noFloatElems, noFloatMembers, nodesElems, nodesMembers, ih, and_self]

theorem walk_eq (depth n : Nat) (v : Json) : walk l depth v n =
    if l.maxNodes < n + 1 ∨ l.maxDepth < depth then .error (.record "json_structure_bound")
    else
      match v with
      | .float _ => .error (.record l.floatCode)
      | .arr xs => walkElems l (depth + 1) xs (n + 1)
      | .obj kvs => walkMembers l (depth + 1) kvs (n + 1)
      | _ => .ok (n + 1) := by
  cases v <;> simp only [walk]

theorem walk_eq_ok {v : Json} : ∀ {depth n m : Nat}, walk l depth v n = .ok m ↔
    v.noFloats = true ∧ m = n + v.nodes ∧ m ≤ l.maxNodes ∧ depth + v.height ≤ l.maxDepth := by
  induction v using Json.induction with
  | atom v hv =>
      intro depth n m
      rw [walk_eq]
      split
      · cases v <;> simp_all [Json.nodes, Json.height, Json.nesting] <;> omega
      · cases v <;> simp_all [Json.nodes, Json.height, Json.noFloats, Json.nesting] <;> omega
  | arr xs ih =>
      intro depth n m
      have hall := fun x hx n m => @ih x hx (depth + 1) n m
      rw [walk_eq]
      simp only [Json.noFloats, Json.nodes, Json.height]
      split
      · rename_i hc
        constructor
        · intro h; cases h
        · rintro ⟨-, hm, hle, hd⟩; omega
      · rename_i hc
        rw [walkElems_eq_ok hall]
        have hh : heightElems xs ≤ l.maxDepth - depth ↔ ∀ x ∈ xs, x.height + 1 ≤ l.maxDepth - depth :=
          heightElems_le
        constructor
        · rintro ⟨hf, hm, hle, hd⟩
          have hheight := hh.mpr fun x hx => by have := hd x hx; omega
          refine ⟨hf, by omega, ?_, by omega⟩
          cases xs with
          | nil => simp only [nodesElems] at hm; omega
          | cons x xs => exact hle (by simp)
        · rintro ⟨hf, hm, hle, hd⟩
          exact ⟨hf, by omega, fun _ => hle, fun x hx => by have := hh.mp (by omega) x hx; omega⟩
  | obj kvs ih =>
      intro depth n m
      have hall : ∀ x ∈ kvs.map Prod.snd, ∀ n m, walk l (depth + 1) x n = .ok m ↔
          x.noFloats = true ∧ m = n + x.nodes ∧ m ≤ l.maxNodes ∧
            depth + 1 + x.height ≤ l.maxDepth := by
        intro x hx n m
        obtain ⟨kv, hkv, rfl⟩ := List.mem_map.mp hx
        exact ih kv hkv
      obtain ⟨hfe, hne⟩ := members_map_snd kvs
      rw [walk_eq]
      simp only [Json.noFloats, Json.nodes, Json.height]
      split
      · rename_i hc
        constructor
        · intro h; cases h
        · rintro ⟨-, hm, hle, hd⟩; omega
      · rename_i hc
        rw [walkMembers_eq, walkElems_eq_ok hall, hfe, hne]
        have hh : heightMembers kvs ≤ l.maxDepth - depth ↔
            ∀ kv ∈ kvs, kv.2.height + 1 ≤ l.maxDepth - depth := heightMembers_le
        constructor
        · rintro ⟨hf, hm, hle, hd⟩
          have hheight := hh.mpr fun kv hkv => by
            have := hd kv.2 (List.mem_map_of_mem hkv); omega
          refine ⟨hf, by omega, ?_, by omega⟩
          cases kvs with
          | nil => simp only [nodesMembers] at hm; omega
          | cons kv kvs => exact hle (by simp)
        · rintro ⟨hf, hm, hle, hd⟩
          refine ⟨hf, by omega, fun _ => hle, fun x hx => ?_⟩
          obtain ⟨kv, hkv, rfl⟩ := List.mem_map.mp hx
          have := hh.mp (by omega) kv hkv
          omega

mutual
/-- The walk fails with a record failure only. -/
theorem walk_error {v : Json} {depth n : Nat} {e : Exn} (h : walk l depth v n = .error e) :
    ∃ code, e = .record code := by
  rw [walk_eq] at h
  split at h
  · exact ⟨_, (Except.error.inj h).symm⟩
  · cases v with
    | float f => exact ⟨_, (Except.error.inj h).symm⟩
    | arr xs => exact walkElems_error h
    | obj kvs => exact walkMembers_error h
    | _ => cases h

theorem walkElems_error {xs : List Json} {depth n : Nat} {e : Exn} (h : walkElems l depth xs n = .error e) :
    ∃ code, e = .record code := by
  cases xs with
  | nil => cases h
  | cons x xs =>
      rw [walkElems] at h
      split at h
      · rename_i e' hx
        obtain ⟨code, rfl⟩ := walk_error hx
        exact ⟨code, (Except.error.inj h).symm⟩
      · exact walkElems_error h

theorem walkMembers_error {kvs : List (Str × Json)} {depth n : Nat} {e : Exn}
    (h : walkMembers l depth kvs n = .error e) : ∃ code, e = .record code := by
  cases kvs with
  | nil => cases h
  | cons kv kvs =>
      obtain ⟨k, v⟩ := kv
      rw [walkMembers] at h
      split at h
      · rename_i e' hv
        obtain ⟨code, rfl⟩ := walk_error hv
        exact ⟨code, (Except.error.inj h).symm⟩
      · exact walkMembers_error h
end

end

theorem normalizeJson_eq_ok {v : Json} {maxNodes : Nat} {u : Unit} : normalizeJson maxNodes v = .ok u ↔
    v.noFloats = true ∧ v.nodes ≤ maxNodes ∧ v.height ≤ maxJsonDepth := by
  simp only [normalizeJson, map_eq_ok, walk_eq_ok, and_true]
  constructor
  · rintro ⟨m, hf, hm, hle, hd⟩; exact ⟨hf, by omega, by omega⟩
  · rintro ⟨hf, hle, hd⟩; exact ⟨_, hf, rfl, by simpa using hle, by simpa using hd⟩

theorem checkDecodedBounds_eq_ok {v : Json} {maxDepth maxNodes : Nat} {u : Unit} :
    checkDecodedBounds maxDepth maxNodes v = .ok u ↔
      v.noFloats = true ∧ v.nodes ≤ maxNodes ∧ v.height ≤ maxDepth := by
  simp only [checkDecodedBounds, map_eq_ok, walk_eq_ok, and_true]
  constructor
  · rintro ⟨m, hf, hm, hle, hd⟩; exact ⟨hf, by omega, by omega⟩
  · rintro ⟨hf, hle, hd⟩; exact ⟨_, hf, rfl, by simpa using hle, by simpa using hd⟩

/-! ### Writing and reading -/

/-- Everything the success of the writer means. -/
theorem canonicalJsonBytes_eq_ok {v : Json} {maxBytes maxNodes : Nat} {body : Bytes} :
    canonicalJsonBytes v maxBytes maxNodes = .ok body ↔ 2 ≤ maxBytes ∧ 1 ≤ maxNodes ∧
      v.noFloats = true ∧ v.nodes ≤ maxNodes ∧ v.height ≤ maxJsonDepth ∧
        ∃ s, dumps v = some s ∧ s.length ≤ maxBytes ∧ asciiBytes s = body := by
  simp only [canonicalJsonBytes, bind_eq_ok, require_eq_ok, normalizeJson_eq_ok, orElse_eq_ok,
    pure_eq_ok, Bool.and_eq_true, decide_eq_true_eq, exists_and_left, exists_const]
  tauto

@[simp] theorem asciiBytes_length (s : Str) : (asciiBytes s).length = s.length := by simp [asciiBytes]

/-- The writer fails with a record failure only. -/
theorem canonicalJsonBytes_error {v : Json} {maxBytes maxNodes : Nat} {e : Exn}
    (h : canonicalJsonBytes v maxBytes maxNodes = .error e) : ∃ code, e = .record code := by
  simp only [canonicalJsonBytes, bind_eq_error, require_eq_error, orElse_eq_error, pure_ne_error, and_false,
    exists_false, or_false] at h
  rcases h with ⟨-, rfl⟩ | ⟨_, -, h | ⟨_, -, ⟨-, rfl⟩ | ⟨_, -, -, rfl⟩⟩⟩
  · exact ⟨_, rfl⟩
  · unfold normalizeJson at h
    rcases hw : walk ⟨maxNodes, maxJsonDepth, "json_number_invalid"⟩ 0 v 0 with e' | n
    · rw [hw] at h
      obtain ⟨code, rfl⟩ := walk_error hw
      exact ⟨code, (Except.error.inj h).symm⟩
    · rw [hw] at h
      cases h
  · exact ⟨_, rfl⟩
  · exact ⟨_, rfl⟩

theorem canonicalJsonBytes_length {v : Json} {maxBytes maxNodes : Nat} {body : Bytes}
    (h : canonicalJsonBytes v maxBytes maxNodes = .ok body) : body.length ≤ maxBytes := by
  obtain ⟨-, -, -, -, -, s, -, hlen, rfl⟩ := canonicalJsonBytes_eq_ok.mp h
  simpa using hlen

/-- Larger bounds accept what smaller ones did, with the same bytes. -/
theorem canonicalJsonBytes_mono {v : Json} {maxBytes maxNodes maxBytes' maxNodes' : Nat} {body : Bytes}
    (h : canonicalJsonBytes v maxBytes maxNodes = .ok body) (hb : body.length ≤ maxBytes')
    (h2 : 2 ≤ maxBytes') (hn : v.nodes ≤ maxNodes') :
    canonicalJsonBytes v maxBytes' maxNodes' = .ok body := by
  obtain ⟨-, h1, hf, hno, hh, s, hs, hlen, rfl⟩ := canonicalJsonBytes_eq_ok.mp h
  have hpos : 1 ≤ v.nodes := by cases v <;> simp [Json.nodes]
  exact canonicalJsonBytes_eq_ok.mpr ⟨h2, by omega, hf, hn, hh, s, hs, by simpa using hb, rfl⟩

theorem canonicalJsonBytes_nesting {v : Json} {maxBytes maxNodes : Nat} {body : Bytes}
    (h : canonicalJsonBytes v maxBytes maxNodes = .ok body) : v.nesting ≤ nestingLimit := by
  obtain ⟨-, -, -, -, hh, -⟩ := canonicalJsonBytes_eq_ok.mp h
  have := nesting_le_height v
  simp only [maxJsonDepth] at hh
  simp only [nestingLimit]
  omega

/-- **What was written is read back with its keys sorted.** -/
theorem loads_canonical {v : Json} {maxBytes maxNodes : Nat} {body : Bytes} (hp : v.Plain)
    (h : canonicalJsonBytes v maxBytes maxNodes = .ok body) (hooks : Hooks) :
    loadsBytes hooks body = .ok v.sortKeys ∧ loadsUtf8 hooks body = .ok v.sortKeys := by
  have hn := canonicalJsonBytes_nesting h
  obtain ⟨-, -, -, -, -, s, hs, -, rfl⟩ := canonicalJsonBytes_eq_ok.mp h
  exact ⟨loadsBytes_dumps hooks hp hn hs, loadsUtf8_dumps hooks hp hn hs⟩

/-- Writing what was read back gives the same bytes. -/
theorem canonicalJsonBytes_sortKeys {v : Json} {maxBytes maxNodes : Nat} {body : Bytes} (hp : v.Plain)
    (h : canonicalJsonBytes v maxBytes maxNodes = .ok body) :
    canonicalJsonBytes v.sortKeys maxBytes maxNodes = .ok body := by
  obtain ⟨h2, h1, -, hno, hh, s, hs, hlen, rfl⟩ := canonicalJsonBytes_eq_ok.mp h
  exact canonicalJsonBytes_eq_ok.mpr ⟨h2, h1, hp.sortKeys.noFloats, by rwa [nodes_sortKeys],
    (height_sortKeys_le v).trans hh, s, dumps_sortKeys hs, hlen, rfl⟩

/-- The exact reader, of an object that was written within its bounds. -/
theorem decodeExactJson_canonical {kvs : List (Str × Json)} {maxBytes maxNodes bound : Nat}
    {body : Bytes} (hp : (Json.obj kvs).Plain)
    (h : canonicalJsonBytes (.obj kvs) maxBytes maxNodes = .ok body) (hn : maxNodes ≤ maxJsonNodes)
    (hb : body.length ≤ bound) (schema : Schema) :
    decodeExactJson body schema bound = exactFields schema (.obj (sortedMembers kvs)) := by
  have hload := (loads_canonical hp h ⟨true, true⟩).2
  have hbound : checkDecodedBounds maxJsonDepth maxJsonNodes (.obj (sortedMembers kvs)) = .ok () := by
    obtain ⟨-, -, -, hno, hh, -⟩ := canonicalJsonBytes_eq_ok.mp h
    rw [checkDecodedBounds_eq_ok, ← sortKeys_obj]
    exact ⟨hp.sortKeys.noFloats, by rw [nodes_sortKeys]; omega, (height_sortKeys_le _).trans hh⟩
  simp only [decodeExactJson, require, hb, decide_true, if_true, hload, exactValue, sortKeys_obj]
  change (checkDecodedBounds maxJsonDepth maxJsonNodes (.obj (sortedMembers kvs)) >>= fun _ =>
    exactFields schema (.obj (sortedMembers kvs))) = _
  rw [hbound]
  rfl

/-! ### Objects with named fields -/

theorem joined_isAscii {s : Str} (h : isAscii s = true) : Str.Joined s := by
  simp only [isAscii, List.all_eq_true, decide_eq_true_eq] at h
  exact Str.joined_of_ascii h

theorem object_eq (fields : List (String × Json)) : object fields = .obj (members fields) := rfl

end Checkpoints
