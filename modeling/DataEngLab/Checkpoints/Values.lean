/-
The values that canonical JSON is written from, and what is left of them.

The callers of `canonical_json_bytes` hand it Python values: mappings in any order, tuples
where JSON has arrays.  `normalize` walks over such a value and gives its JSON;
`Json.Same` is Python's equality of JSON values, for which the order of keys is nothing.

Canonical bytes tell values apart up to that equality, and `decodeExact` gives them back
(`canonical_faithful`), as long as no string holds a high surrogate with a low one behind
it: two such code points are written like the one character they would stand for.
-/
import DataEngLab.Checkpoints.Canonical
import DataEngLab.Lib.JsonDecoded

namespace Checkpoints

open Lib

/-! ### Python values -/

/-- What `canonical_json_bytes` takes: JSON with tuples besides lists. -/
inductive PyValue where
  | none
  | bool (b : Bool)
  | int (n : Int)
  | str (s : Str)
  | list (xs : List PyValue)
  | tuple (xs : List PyValue)
  | mapping (kvs : List (Str × PyValue))

mutual
/-- The value with lists for its tuples. -/
def PyValue.asLists : PyValue → Json
  | .none => .null
  | .bool b => .bool b
  | .int n => .int n
  | .str s => .str s
  | .list xs => .arr (itemsAsLists xs)
  | .tuple xs => .arr (itemsAsLists xs)
  | .mapping kvs => .obj (membersAsLists kvs)

def itemsAsLists : List PyValue → List Json
  | [] => []
  | x :: xs => x.asLists :: itemsAsLists xs

def membersAsLists : List (Str × PyValue) → List (Str × Json)
  | [] => []
  | (k, v) :: kvs => (k, v.asLists) :: membersAsLists kvs
end

/-- Distinct keys, and strings that UTF-16 could tell apart: no high surrogate before a low one. -/
def PyValue.Proper (v : PyValue) : Prop := v.asLists.Plain

/-! ### Writing -/

mutual
/-- `_normalize_json`: the JSON of a value, and the nodes met so far. -/
def normalize (maxNodes : Nat) : Nat → PyValue → Nat → Except Exn (Json × Nat)
  | depth, v, nodes =>
      if maxNodes < nodes + 1 ∨ maxJsonDepth < depth then .error (.record "json_structure_bound")
      else
        match v with
        | .none => .ok (.null, nodes + 1)
        | .bool b => .ok (.bool b, nodes + 1)
        | .int n => .ok (.int n, nodes + 1)
        | .str s => .ok (.str s, nodes + 1)
        | .mapping kvs =>
            match normalizeMembers maxNodes (depth + 1) kvs (nodes + 1) with
            | .error e => .error e
            | .ok (items, n) => .ok (.obj items, n)
        | .list xs =>
            match normalizeItems maxNodes (depth + 1) xs (nodes + 1) with
            | .error e => .error e
            | .ok (items, n) => .ok (.arr items, n)
        | .tuple xs =>
            match normalizeItems maxNodes (depth + 1) xs (nodes + 1) with
            | .error e => .error e
            | .ok (items, n) => .ok (.arr items, n)

def normalizeItems (maxNodes : Nat) : Nat → List PyValue → Nat → Except Exn (List Json × Nat)
  | _, [], nodes => .ok ([], nodes)
  | depth, x :: xs, nodes =>
      match normalize maxNodes depth x nodes with
      | .error e => .error e
      | .ok (y, n) =>
          match normalizeItems maxNodes depth xs n with
          | .error e => .error e
          | .ok (ys, m) => .ok (y :: ys, m)

def normalizeMembers (maxNodes : Nat) : Nat → List (Str × PyValue) → Nat → Except Exn (List (Str × Json) × Nat)
  | _, [], nodes => .ok ([], nodes)
  | depth, (k, v) :: kvs, nodes =>
      match normalize maxNodes depth v nodes with
      | .error e => .error e
      | .ok (w, n) =>
          match normalizeMembers maxNodes depth kvs n with
          | .error e => .error e
          | .ok (rest, m) => .ok ((k, w) :: rest, m)
end

/-- `canonical_json_bytes` -/
def canonicalValueBytes (v : PyValue) (maxBytes maxNodes : Nat) : Except Exn Bytes := do
  require (2 ≤ maxBytes && 1 ≤ maxNodes) (.record "json_bound_invalid")
  let normalized ← normalize maxNodes 0 v 0
  let text ← orElse (dumps normalized.1) (.record "json_value_invalid")
  require (text.length ≤ maxBytes) (.record "json_body_too_large")
  return asciiBytes text

/-! ### Reading -/

/-- The types that a schema can name: those of JSON, and others. -/
inductive PyType where
  | none
  | bool
  | int
  | float
  | str
  | list
  | dict
  | other (name : Str)
deriving DecidableEq

/-- `type(value)` -/
def typeOf : Json → PyType
  | .null => .none
  | .bool _ => .bool
  | .int _ => .int
  | .float _ => .float
  | .str _ => .str
  | .arr _ => .list
  | .obj _ => .dict

/-- The accepted types of each field. -/
abbrev FieldTypes := List (Str × List PyType)

/-- The round of the schema loop for one field. -/
def checkField (kvs : List (Str × Json)) (field : Str × List PyType) : Except Exn Unit := do
  require (!field.2.isEmpty) (.record "json_schema_invalid")
  require ((kvs.lookup field.1).any fun v => field.2.contains (typeOf v)) (.record "json_field_type_invalid")

/-- `decode_exact_json` -/
def decodeExact (body : Bytes) (schema : FieldTypes) (maxBytes maxDepth : Nat) : Except Exn (List (Str × Json)) := do
  require (body.length ≤ maxBytes) (.record "json_body_too_large")
  require (1 ≤ maxDepth) (.record "json_bound_invalid")
  let decoded ← exactValue (loadsUtf8 ⟨true, true⟩ body)
  checkDecodedBounds maxDepth maxJsonNodes decoded
  match decoded with
  | .obj kvs => do
      require (kvs.all (fun kv => (schema.map Prod.fst).contains kv.1) &&
        schema.all fun field => (kvs.map Prod.fst).contains field.1) (.record "json_unknown_or_missing_field")
      let _ ← checkAll (checkField kvs) schema
      return kvs
  | _ => .error (.record "json_shape_invalid")

/-! ### The reader of the records

The records have schemas of few types, and `decodeExactJson` is the reader at those. -/

def JsonType.type : JsonType → PyType
  | .str => .str
  | .int => .int
  | .bool => .bool
  | .dict => .dict
  | .none => .none

def Schema.fieldTypes (schema : Schema) : FieldTypes := schema.map fun f => (lit f.1, f.2.map JsonType.type)

theorem admits_eq (t : JsonType) (v : Json) : t.admits v = (t.type == typeOf v) := by
  cases t <;> cases v <;> rfl

theorem get_eq_lookup (key : String) (kvs : List (Str × Json)) : Json.get key kvs = kvs.lookup (lit key) := by
  induction kvs with
  | nil => rfl
  | cons kv kvs ih =>
      obtain ⟨k, v⟩ := kv
      rw [Json.get, List.lookup_cons]
      by_cases hk : k = lit key
      · simp [hk]
      · rw [if_neg hk, beq_false_of_ne fun h => hk h.symm]
        exact ih

theorem lookup_isSome {α : Type} {k : Str} : ∀ {kvs : List (Str × α)},
    (kvs.lookup k).isSome = (kvs.map Prod.fst).contains k
  | [] => rfl
  | (k', v) :: kvs => by
      rw [List.lookup_cons, List.map_cons, List.contains_cons]
      cases k == k' with
      | true => rfl
      | false => exact lookup_isSome

/-- The comparison of the keys, as a count and as two inclusions. -/
theorem hasExactly_eq {fields : List String} {kvs : List (Str × Json)} (hfields : fields.Nodup)
    (hkeys : (kvs.map Prod.fst).Nodup) : Json.hasExactly fields kvs =
      (kvs.all (fun kv => (fields.map lit).contains kv.1) &&
        fields.all fun f => (kvs.map Prod.fst).contains (lit f)) := by
  have hlits : (fields.map lit).Nodup := hfields.map fun a b h => lit_inj.mp h
  have hfound : (fields.all fun f => (Json.get f kvs).isSome) =
      fields.all fun f => (kvs.map Prod.fst).contains (lit f) := by
    simp only [get_eq_lookup, lookup_isSome]
  rw [Json.hasExactly, hfound, Bool.eq_iff_iff]
  simp only [Bool.and_eq_true, beq_iff_eq, List.all_eq_true, List.contains_iff_mem]
  refine and_congr_left fun hsub => ?_
  have hincl : fields.map lit ⊆ kvs.map Prod.fst := by
    intro k hk
    obtain ⟨f, hf, rfl⟩ := List.mem_map.mp hk
    exact hsub f hf
  constructor
  · intro hlen kv hkv
    have hperm : (fields.map lit).Perm (kvs.map Prod.fst) :=
      (List.subperm_of_subset hlits hincl).perm_of_length_le (by simp [hlen])
    exact hperm.mem_iff.mpr (List.mem_map.mpr ⟨kv, hkv, rfl⟩)
  · intro hall
    have hperm : (kvs.map Prod.fst).Perm (fields.map lit) := by
      refine (List.perm_ext_iff_of_nodup hkeys hlits).mpr fun k => ⟨fun hk => ?_, fun hk => hincl hk⟩
      obtain ⟨kv, hkv, rfl⟩ := List.mem_map.mp hk
      exact hall kv hkv
    simpa using hperm.length_eq

/-- The rounds of the schema loop, for a schema that names a type for each field. -/
theorem checkField_all {schema : Schema} {kvs : List (Str × Json)} (htypes : ∀ f ∈ schema, f.2 ≠ []) :
    (checkAll (checkField kvs) schema.fieldTypes >>= fun _ => (pure kvs : Except Exn _)) =
      (require (schema.all fun f => (Json.get f.1 kvs).any fun v => f.2.any fun t => t.admits v)
        (.record "json_field_type_invalid") >>= fun _ => pure kvs) := by
  induction schema with
  | nil => rfl
  | cons f schema ih =>
      have hne : (f.2.map JsonType.type).isEmpty = false := by
        have hf := htypes f List.mem_cons_self
        cases htypes : f.2 with
        | nil => exact absurd htypes hf
        | cons t ts => rfl
      have hadmits : ((kvs.lookup (lit f.1)).any fun v => (f.2.map JsonType.type).contains (typeOf v)) =
          (Json.get f.1 kvs).any fun v => f.2.any fun t => t.admits v := by
        rw [get_eq_lookup]
        congr 1
        funext v
        rw [Bool.eq_iff_iff]
        simp [admits_eq]
      have hrest := ih fun g hg => htypes g (List.mem_cons_of_mem f hg)
      simp only [Schema.fieldTypes, List.map_cons, checkAll, checkField, hne, hadmits, List.all_cons] at hrest ⊢
      cases (Json.get f.1 kvs).any fun v => f.2.any fun t => t.admits v with
      | false => rfl
      | true =>
          rw [Bool.true_and, ← hrest]
          cases checkAll (checkField kvs) (schema.map fun f => (lit f.1, f.2.map JsonType.type)) <;> rfl

theorem decodeExactJson_eq {schema : Schema} (hnames : (schema.map Prod.fst).Nodup)
    (htypes : ∀ f ∈ schema, f.2 ≠ []) (body : Bytes) (maxBytes : Nat) :
    decodeExactJson body schema maxBytes = decodeExact body schema.fieldTypes maxBytes maxJsonDepth := by
  rw [decodeExactJson, decodeExact]
  refine congrArg (require _ _ >>= ·) (funext fun _ => ?_)
  change _ = (exactValue (loadsUtf8 ⟨true, true⟩ body) >>= fun decoded => _)
  cases hload : loadsUtf8 ⟨true, true⟩ body with
  | error e => cases e <;> rfl
  | ok decoded =>
      refine congrArg (checkDecodedBounds maxJsonDepth maxJsonNodes decoded >>= ·) (funext fun _ => ?_)
      cases decoded with
      | obj kvs =>
          have hkeys : (kvs.map Prod.fst).Nodup := (loadsUtf8_decoded hload).1
          have hmap : schema.fieldTypes.map Prod.fst = (schema.map Prod.fst).map lit := by
            simp [Schema.fieldTypes, List.map_map, Function.comp_def]
          have hall : (schema.fieldTypes.all fun field => (kvs.map Prod.fst).contains field.1) =
              (schema.map Prod.fst).all fun f => (kvs.map Prod.fst).contains (lit f) := by
            simp [Schema.fieldTypes, List.all_map, Function.comp_def]
          change (require (Json.hasExactly (schema.map Prod.fst) kvs) _ >>= _) = (require _ _ >>= _)
          rw [hasExactly_eq hnames hkeys, hmap, hall]
          exact congrArg (require _ _ >>= ·) (funext fun _ => (checkField_all htypes).symm)
      | _ => rfl

/-! ### Equality -/

mutual
/-- Equality of JSON values: the order of keys is nothing. -/
def Json.Same : Json → Json → Prop
  | .arr xs, .arr ys => SameItems xs ys
  | .obj kvs, .obj kvs' => kvs.length = kvs'.length ∧ SameMembers kvs kvs'
  | v, w => v = w

def SameItems : List Json → List Json → Prop
  | [], [] => True
  | x :: xs, y :: ys => Json.Same x y ∧ SameItems xs ys
  | _, _ => False

/-- Every member has one of the same key and value on the other side. -/
def SameMembers : List (Str × Json) → List (Str × Json) → Prop
  | [], _ => True
  | (k, v) :: kvs, kvs' => (∃ w, (k, w) ∈ kvs' ∧ Json.Same v w) ∧ SameMembers kvs kvs'
end

theorem sameItems_iff {xs ys : List Json} : SameItems xs ys ↔ List.Forall₂ Json.Same xs ys := by
  induction xs generalizing ys with
  | nil => cases ys <;> simp [SameItems]
  | cons x xs ih => cases ys <;> simp [SameItems, ih]

theorem sameMembers_iff {kvs kvs' : List (Str × Json)} :
    SameMembers kvs kvs' ↔ ∀ kv ∈ kvs, ∃ w, (kv.1, w) ∈ kvs' ∧ Json.Same kv.2 w := by
  induction kvs with
  | nil => simp [SameMembers]
  | cons kv kvs ih => simp [SameMembers, ih]

/-- A container is not sorted into an atom. -/
theorem nesting_sortKeys_pos {v : Json} (h : v.nesting = 0) {w : Json} (hw : w.sortKeys = v.sortKeys) :
    w.nesting = 0 := by
  rw [sortKeys_atom h] at hw
  cases w with
  | arr xs =>
      rw [sortKeys_arr] at hw
      subst hw
      simp [Json.nesting] at h
  | obj kvs =>
      rw [sortKeys_obj] at hw
      subst hw
      simp [Json.nesting] at h
  | _ => rfl

/-- **Values that sort alike are the same.** -/
theorem same_of_sortKeys {v : Json} : ∀ {w : Json}, v.sortKeys = w.sortKeys → Json.Same v w := by
  induction v using Json.induction with
  | atom v hv =>
      intro w h
      have hw := nesting_sortKeys_pos hv h.symm
      rw [sortKeys_atom hv, sortKeys_atom hw] at h
      subst h
      cases v with
      | arr xs => simp [Json.nesting] at hv
      | obj kvs => simp [Json.nesting] at hv
      | _ => simp [Json.Same]
  | arr xs ih =>
      intro w h
      cases w with
      | arr ys =>
          rw [sortKeys_arr, sortKeys_arr, Json.arr.injEq] at h
          rw [Json.Same, sameItems_iff]
          refine List.forall₂_iff_get.mpr ⟨by simpa using congrArg List.length h, fun i hx hy => ?_⟩
          refine ih _ (List.get_mem xs ⟨i, hx⟩) ?_
          have hget := congrArg (fun l => l[i]?) h
          simpa [hx, hy] using hget
      | _ => simp [Json.sortKeys] at h
  | obj kvs ih =>
      intro w h
      cases w with
      | obj kvs' =>
          rw [sortKeys_obj, sortKeys_obj, Json.obj.injEq] at h
          rw [Json.Same, sameMembers_iff]
          refine ⟨?_, fun kv hkv => ?_⟩
          · have hlength := congrArg List.length h
            rwa [(sortedMembers_perm kvs).length_eq, (sortedMembers_perm kvs').length_eq, List.length_map,
              List.length_map] at hlength
          · have hmem : (kv.1, kv.2.sortKeys) ∈ sortedMembers kvs' :=
              h ▸ mem_sortedMembers.mpr ⟨kv.2, hkv, rfl⟩
            obtain ⟨w, hw, heq⟩ := mem_sortedMembers.mp hmem
            exact ⟨w, hw, ih kv hkv heq.symm⟩
      | _ => simp [Json.sortKeys] at h

/-! ### The walk -/

section
variable {maxNodes : Nat}

/-- The limits of `_normalize_json`. -/
abbrev writerLimits (maxNodes : Nat) : WalkLimits := ⟨maxNodes, maxJsonDepth, "json_number_invalid"⟩

mutual
/-- The walk over a value is the walk over its JSON, which it gives back. -/
theorem normalize_eq : ∀ (v : PyValue) (depth nodes : Nat), normalize maxNodes depth v nodes =
    (walk (writerLimits maxNodes) depth v.asLists nodes).map fun n => (v.asLists, n)
  | .none, depth, nodes => by
      rw [normalize, PyValue.asLists, walk_eq]
      split <;> rfl
  | .bool b, depth, nodes => by
      rw [normalize, PyValue.asLists, walk_eq]
      split <;> rfl
  | .int n, depth, nodes => by
      rw [normalize, PyValue.asLists, walk_eq]
      split <;> rfl
  | .str s, depth, nodes => by
      rw [normalize, PyValue.asLists, walk_eq]
      split <;> rfl
  | .list xs, depth, nodes => by
      rw [normalize, PyValue.asLists, walk_eq]
      split
      · rfl
      · dsimp only
        rw [normalizeItems_eq xs]
        cases walkElems (writerLimits maxNodes) (depth + 1) (itemsAsLists xs) (nodes + 1) <;> rfl
  | .tuple xs, depth, nodes => by
      rw [normalize, PyValue.asLists, walk_eq]
      split
      · rfl
      · dsimp only
        rw [normalizeItems_eq xs]
        cases walkElems (writerLimits maxNodes) (depth + 1) (itemsAsLists xs) (nodes + 1) <;> rfl
  | .mapping kvs, depth, nodes => by
      rw [normalize, PyValue.asLists, walk_eq]
      split
      · rfl
      · dsimp only
        rw [normalizeMembers_eq kvs]
        cases walkMembers (writerLimits maxNodes) (depth + 1) (membersAsLists kvs) (nodes + 1) <;> rfl

theorem normalizeItems_eq : ∀ (xs : List PyValue) (depth nodes : Nat), normalizeItems maxNodes depth xs nodes =
    (walkElems (writerLimits maxNodes) depth (itemsAsLists xs) nodes).map fun n => (itemsAsLists xs, n)
  | [], depth, nodes => rfl
  | x :: xs, depth, nodes => by
      rw [normalizeItems, itemsAsLists, walkElems, normalize_eq x]
      cases walk (writerLimits maxNodes) depth x.asLists nodes with
      | error e => rfl
      | ok n =>
          dsimp only [Except.map]
          rw [normalizeItems_eq xs]
          cases walkElems (writerLimits maxNodes) depth (itemsAsLists xs) n <;> rfl

theorem normalizeMembers_eq : ∀ (kvs : List (Str × PyValue)) (depth nodes : Nat),
    normalizeMembers maxNodes depth kvs nodes =
      (walkMembers (writerLimits maxNodes) depth (membersAsLists kvs) nodes).map fun n => (membersAsLists kvs, n)
  | [], depth, nodes => rfl
  | (k, v) :: kvs, depth, nodes => by
      rw [normalizeMembers, membersAsLists, walkMembers, normalize_eq v]
      cases walk (writerLimits maxNodes) depth v.asLists nodes with
      | error e => rfl
      | ok n =>
          dsimp only [Except.map]
          rw [normalizeMembers_eq kvs]
          cases walkMembers (writerLimits maxNodes) depth (membersAsLists kvs) n <;> rfl
end

theorem canonicalValueBytes_eq (v : PyValue) (maxBytes : Nat) :
    canonicalValueBytes v maxBytes maxNodes = canonicalJsonBytes v.asLists maxBytes maxNodes := by
  simp only [canonicalValueBytes, canonicalJsonBytes, normalizeJson, normalize_eq]
  cases walk (writerLimits maxNodes) 0 v.asLists 0 <;> rfl

end

/-- Both sides have the same bounds. -/
theorem bounds_agree (v : PyValue) : (∃ r, normalize maxJsonNodes 0 v 0 = .ok r) ↔
    checkDecodedBounds maxJsonDepth maxJsonNodes v.asLists = .ok () := by
  rw [checkDecodedBounds_eq_ok, ← normalizeJson_eq_ok (u := ()), normalizeJson, normalize_eq]
  cases walk (writerLimits maxJsonNodes) 0 v.asLists 0 <;> simp [Except.map, Functor.map]

/-! ### Faithful bytes -/

/-- The fields of a mapping are those of the schema, each of an accepted type. -/
def MatchesSchema (kvs : List (Str × PyValue)) (schema : FieldTypes) : Prop :=
  (∀ k, k ∈ kvs.map Prod.fst ↔ k ∈ schema.map Prod.fst) ∧
    ∀ field ∈ schema, ∀ v, (field.1, v) ∈ kvs → typeOf v.asLists ∈ field.2

theorem membersAsLists_eq (kvs : List (Str × PyValue)) :
    membersAsLists kvs = kvs.map fun kv => (kv.1, kv.2.asLists) := by
  induction kvs with
  | nil => rfl
  | cons kv kvs ih => rw [membersAsLists, ih, List.map_cons]

theorem typeOf_sortKeys (v : Json) : typeOf v.sortKeys = typeOf v := by
  cases v <;> rfl

theorem lookup_of_mem {α : Type} {k : Str} {v : α} : ∀ {kvs : List (Str × α)}, (kvs.map Prod.fst).Nodup →
    (k, v) ∈ kvs → kvs.lookup k = some v
  | [], _, h => by cases h
  | (k', w) :: kvs, hn, h => by
      obtain ⟨hk, hn⟩ := List.nodup_cons.mp hn
      rcases List.mem_cons.mp h with heq | hmem
      · cases heq
        simp
      · have hne : (k == k') = false := beq_false_of_ne fun he => hk (he ▸ List.mem_map.mpr ⟨_, hmem, rfl⟩)
        rw [List.lookup_cons, hne]
        exact lookup_of_mem hn hmem

theorem checkAll_ok {α β ε : Type} {f : α → Except ε β} {b : β} :
    ∀ {xs : List α}, (∀ x ∈ xs, f x = .ok b) → ∃ ys, checkAll f xs = .ok ys
  | [], _ => ⟨[], rfl⟩
  | x :: xs, h => by
      obtain ⟨ys, hys⟩ := checkAll_ok fun y hy => h y (List.mem_cons_of_mem x hy)
      refine ⟨b :: ys, ?_⟩
      rw [checkAll, h x List.mem_cons_self, hys]
      rfl

/-- What was written within the bounds is read with its keys sorted. -/
theorem decodeExact_canonical {kvs : List (Str × PyValue)} {schema : FieldTypes} {body : Bytes}
    (hproper : (PyValue.mapping kvs).Proper) (hmatch : MatchesSchema kvs schema)
    (h : canonicalValueBytes (.mapping kvs) maxJsonBytes maxJsonNodes = .ok body) :
    decodeExact body schema maxJsonBytes maxJsonDepth = .ok (sortedMembers (membersAsLists kvs)) := by
  have hplain : (Json.obj (membersAsLists kvs)).Plain := hproper
  rw [canonicalValueBytes_eq] at h
  have hbytes : canonicalJsonBytes (.obj (membersAsLists kvs)) maxJsonBytes maxJsonNodes = .ok body := h
  have hload := (loads_canonical hplain hbytes ⟨true, true⟩).2
  have hbounds :
      checkDecodedBounds maxJsonDepth maxJsonNodes (.obj (sortedMembers (membersAsLists kvs))) = .ok () := by
    obtain ⟨-, -, -, hnodes, hheight, -⟩ := canonicalJsonBytes_eq_ok.mp hbytes
    rw [checkDecodedBounds_eq_ok, ← sortKeys_obj]
    exact ⟨hplain.sortKeys.noFloats, by rw [nodes_sortKeys]; exact hnodes, (height_sortKeys_le _).trans hheight⟩
  have hkeys : (membersAsLists kvs).map Prod.fst = kvs.map Prod.fst := by
    rw [membersAsLists_eq, List.map_map]
    rfl
  have hmem : ∀ k, k ∈ (sortedMembers (membersAsLists kvs)).map Prod.fst ↔ k ∈ schema.map Prod.fst := by
    intro k
    rw [(sortedMembers_keys _).mem_iff, hkeys, hmatch.1]
  have hnodup : ((sortedMembers (membersAsLists kvs)).map Prod.fst).Nodup :=
    (sortedMembers_keys _).nodup_iff.mpr hplain.1
  have hfield : ∀ field ∈ schema, checkField (sortedMembers (membersAsLists kvs)) field = .ok () := by
    intro field hf
    obtain ⟨⟨k, v⟩, hkv, hk⟩ := List.mem_map.mp ((hmatch.1 field.1).mpr (List.mem_map.mpr ⟨field, hf, rfl⟩))
    obtain rfl : k = field.1 := hk
    have hsorted : (field.1, v.asLists.sortKeys) ∈ sortedMembers (membersAsLists kvs) :=
      mem_sortedMembers.mpr ⟨v.asLists, by rw [membersAsLists_eq]; exact List.mem_map.mpr ⟨_, hkv, rfl⟩, rfl⟩
    have htype := hmatch.2 field hf v hkv
    have hne : field.2.isEmpty = false := by
      cases htypes : field.2 with
      | nil => simp [htypes] at htype
      | cons t ts => rfl
    simp [checkField, hne, lookup_of_mem hnodup hsorted, typeOf_sortKeys, htype]
  obtain ⟨ys, hys⟩ := checkAll_ok hfield
  have hfields : ((sortedMembers (membersAsLists kvs)).all (fun kv => (schema.map Prod.fst).contains kv.1) &&
      schema.all fun field => ((sortedMembers (membersAsLists kvs)).map Prod.fst).contains field.1) = true := by
    simp only [Bool.and_eq_true, List.all_eq_true, List.contains_iff_mem]
    exact ⟨fun kv hkv => (hmem kv.1).mp (List.mem_map.mpr ⟨kv, hkv, rfl⟩),
      fun field hf => (hmem field.1).mpr (List.mem_map.mpr ⟨field, hf, rfl⟩)⟩
  have hlength : body.length ≤ maxJsonBytes := canonicalJsonBytes_length hbytes
  simp only [decodeExact, hlength, decide_true, require_true, hload, exactValue, sortKeys_obj]
  change (checkDecodedBounds maxJsonDepth maxJsonNodes (.obj (sortedMembers (membersAsLists kvs))) >>= _) = _
  rw [hbounds]
  change (require _ _ >>= _) = _
  rw [hfields, require_true]
  change (checkAll (checkField (sortedMembers (membersAsLists kvs))) schema >>= _) = _
  rw [hys]
  rfl

/-- **Canonical bytes are faithful**: equal bytes come from equal values, what was written within the bounds
is read back, and the bounds of both sides agree. -/
theorem canonical_faithful :
    (∀ (v w : PyValue) (maxBytes maxNodes maxBytes' maxNodes' : Nat) (body : Bytes), v.Proper → w.Proper →
      canonicalValueBytes v maxBytes maxNodes = .ok body → canonicalValueBytes w maxBytes' maxNodes' = .ok body →
      Json.Same v.asLists w.asLists) ∧
    (∀ (kvs : List (Str × PyValue)) (schema : FieldTypes) (body : Bytes), (PyValue.mapping kvs).Proper →
      MatchesSchema kvs schema → canonicalValueBytes (.mapping kvs) maxJsonBytes maxJsonNodes = .ok body →
      ∃ out, decodeExact body schema maxJsonBytes maxJsonDepth = .ok out ∧
        Json.Same (.obj out) (PyValue.mapping kvs).asLists) ∧
    (∀ v : PyValue, (∃ r, normalize maxJsonNodes 0 v 0 = .ok r) ↔
      checkDecodedBounds maxJsonDepth maxJsonNodes v.asLists = .ok ()) := by
  refine ⟨fun v w maxBytes maxNodes maxBytes' maxNodes' body hv hw hbody hbody' => ?_,
    fun kvs schema body hproper hmatch h => ?_, bounds_agree⟩
  · rw [canonicalValueBytes_eq] at hbody hbody'
    have hload := (loads_canonical hv hbody Hooks.plain).1
    rw [(loads_canonical hw hbody' Hooks.plain).1] at hload
    exact same_of_sortKeys (Except.ok.inj hload).symm
  · refine ⟨_, decodeExact_canonical hproper hmatch h, same_of_sortKeys ?_⟩
    rw [← sortKeys_obj, sortKeys_idem]
    rfl

/-- A mapping with a tuple, and the same with a list and its keys the other way round. -/
def tupleValue : PyValue := .mapping [(lit "b", .tuple [.int 1]), (lit "a", .none)]

def listValue : List (Str × PyValue) := [(lit "a", .none), (lit "b", .list [.int 1])]

theorem canonical_faithful_pair : Json.Same tupleValue.asLists (PyValue.mapping listValue).asLists ∧
    ∃ out, decodeExact (asciiBytes (lit "\x7b\"a\":null,\"b\":[1]\x7d"))
      [(lit "b", [.list]), (lit "a", [.str, .none])] maxJsonBytes maxJsonDepth = .ok out ∧
      Json.Same (.obj out) (PyValue.mapping listValue).asLists := by
  have hkeys : Str.Joined (lit "a") ∧ Str.Joined (lit "b") := ⟨joined_lit "a", joined_lit "b"⟩
  have htuple : tupleValue.Proper := ⟨by decide, hkeys.2, ⟨trivial, trivial⟩, hkeys.1, trivial, trivial⟩
  have hlist : (PyValue.mapping listValue).Proper :=
    ⟨by decide, hkeys.1, trivial, hkeys.2, ⟨trivial, trivial⟩, trivial⟩
  refine ⟨canonical_faithful.1 tupleValue (.mapping listValue) 100 10 200 20
    (asciiBytes (lit "\x7b\"a\":null,\"b\":[1]\x7d")) htuple hlist (by decide) (by decide),
    canonical_faithful.2.1 listValue _ _ hlist ⟨fun k => ?_, fun field hf v hv => ?_⟩ (by decide)⟩
  · simp [listValue, or_comm]
  · simp only [List.mem_cons, List.not_mem_nil, or_false] at hf
    simp only [listValue, List.mem_cons, List.not_mem_nil, or_false, Prod.mk.injEq] at hv
    rcases hf with rfl | rfl <;> rcases hv with ⟨hk, rfl⟩ | ⟨hk, rfl⟩
    · exact absurd hk (by decide)
    · exact List.mem_cons_self
    · exact List.mem_cons_of_mem _ List.mem_cons_self
    · exact absurd hk (by decide)

/-- A pair of surrogates is written like the character it stands for. -/
theorem surrogates_collide :
    canonicalValueBytes (.str [0xD83D, 0xDE00]) maxJsonBytes maxJsonNodes =
        canonicalValueBytes (.str [0x1F600]) maxJsonBytes maxJsonNodes ∧
      (canonicalValueBytes (.str [0x1F600]) maxJsonBytes maxJsonNodes).isOk = true ∧
      ¬ Json.Same (PyValue.str [0xD83D, 0xDE00]).asLists (PyValue.str [0x1F600]).asLists := by
  refine ⟨by decide, by decide, fun h => ?_⟩
  simp [PyValue.asLists, Json.Same] at h

end Checkpoints
