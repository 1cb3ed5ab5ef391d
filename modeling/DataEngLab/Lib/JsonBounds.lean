/-
How large a JSON value is.

A reader or a writer that bounds its work counts nodes and levels.  Both counts, and the
absence of floats, are the same for a value and for the value with its keys sorted, so a
value that was within bounds when it was written is within them when it is read.

A value that came out of the reader is `Decoded`: its strings are joined and its keys
distinct.  Without floats, that is all `Json.Plain` asks for.
-/
import DataEngLab.Lib.JsonDumps

namespace Lib

mutual
/-- The values inside a value, itself included. -/
def Json.nodes : Json → Nat
  | .arr xs => nodesElems xs + 1
  | .obj kvs => nodesMembers kvs + 1
  | _ => 1

def nodesElems : List Json → Nat
  | [] => 0
  | x :: xs => x.nodes + nodesElems xs

def nodesMembers : List (Str × Json) → Nat
  | [] => 0
  | (_, v) :: kvs => v.nodes + nodesMembers kvs
end

mutual
/-- The depth of the deepest node; that of the value itself is zero. -/
def Json.height : Json → Nat
  | .arr xs => heightElems xs
  | .obj kvs => heightMembers kvs
  | _ => 0

def heightElems : List Json → Nat
  | [] => 0
  | x :: xs => max (x.height + 1) (heightElems xs)

def heightMembers : List (Str × Json) → Nat
  | [] => 0
  | (_, v) :: kvs => max (v.height + 1) (heightMembers kvs)
end

mutual
def Json.noFloats : Json → Bool
  | .float _ => false
  | .arr xs => noFloatElems xs
  | .obj kvs => noFloatMembers kvs
  | _ => true

def noFloatElems : List Json → Bool
  | [] => true
  | x :: xs => x.noFloats && noFloatElems xs

def noFloatMembers : List (Str × Json) → Bool
  | [] => true
  | (_, v) :: kvs => v.noFloats && noFloatMembers kvs
end

mutual
/-- A value a reader may have returned: joined strings and distinct keys. -/
def Json.Decoded : Json → Prop
  | .str s => Str.Joined s
  | .arr xs => DecodedElems xs
  | .obj kvs => (kvs.map Prod.fst).Nodup ∧ DecodedMembers kvs
  | _ => True

def DecodedElems : List Json → Prop
  | [] => True
  | x :: xs => x.Decoded ∧ DecodedElems xs

def DecodedMembers : List (Str × Json) → Prop
  | [] => True
  | (k, v) :: kvs => Str.Joined k ∧ v.Decoded ∧ DecodedMembers kvs
end

/-! ### Lists -/

theorem nodesElems_eq (xs : List Json) : nodesElems xs = (xs.map Json.nodes).sum := by
  induction xs with
  | nil => rfl
  | cons x xs ih => simp [nodesElems, ih]

theorem nodesMembers_eq (kvs : List (Str × Json)) :
    nodesMembers kvs = (kvs.map fun kv => kv.2.nodes).sum := by
  induction kvs with
  | nil => rfl
  | cons kv kvs ih => simp [nodesMembers, ih]

theorem heightElems_le {xs : List Json} {d : Nat} :
    heightElems xs ≤ d ↔ ∀ x ∈ xs, x.height + 1 ≤ d := by
  induction xs with
  | nil => simp [heightElems]
  | cons x xs ih => simp [heightElems, ih]

theorem heightMembers_le {kvs : List (Str × Json)} {d : Nat} :
    heightMembers kvs ≤ d ↔ ∀ kv ∈ kvs, kv.2.height + 1 ≤ d := by
  induction kvs with
  | nil => simp [heightMembers]
  | cons kv kvs ih => simp [heightMembers, ih]

theorem noFloatElems_iff {xs : List Json} :
    noFloatElems xs = true ↔ ∀ x ∈ xs, x.noFloats = true := by
  induction xs with
  | nil => simp [noFloatElems]
  | cons x xs ih => simp [noFloatElems, ih]

theorem noFloatMembers_iff {kvs : List (Str × Json)} :
    noFloatMembers kvs = true ↔ ∀ kv ∈ kvs, kv.2.noFloats = true := by
  induction kvs with
  | nil => simp [noFloatMembers]
  | cons kv kvs ih => simp [noFloatMembers, ih]

theorem decodedElems_iff {xs : List Json} : DecodedElems xs ↔ ∀ x ∈ xs, x.Decoded := by
  induction xs with
  | nil => simp [DecodedElems]
  | cons x xs ih => simp [DecodedElems, ih]

theorem decodedMembers_iff {kvs : List (Str × Json)} :
    DecodedMembers kvs ↔ ∀ kv ∈ kvs, Str.Joined kv.1 ∧ kv.2.Decoded := by
  induction kvs with
  | nil => simp [DecodedMembers]
  | cons kv kvs ih => simp [DecodedMembers, ih, and_assoc]

/-- Induction over a value and what it contains. -/
theorem Json.induction {P : Json → Prop} (atom : ∀ v, v.nesting = 0 → P v)
    (arr : ∀ xs, (∀ x ∈ xs, P x) → P (.arr xs))
    (obj : ∀ kvs : List (Str × Json), (∀ kv ∈ kvs, P kv.2) → P (.obj kvs)) (v : Json) : P v := by
  have haux : ∀ (d : Nat) (v : Json), v.nesting ≤ d → P v := by
    intro d
    induction d with
    | zero => exact fun v hv => atom v (by omega)
    | succ d ih =>
        intro v hv
        cases v with
        | arr xs =>
            simp only [Json.nesting, Nat.add_le_add_iff_right, nestingElems_le] at hv
            exact arr xs fun x hx => ih x (hv x hx)
        | obj kvs =>
            simp only [Json.nesting, Nat.add_le_add_iff_right, nestingMembers_le] at hv
            exact obj kvs fun kv hkv => ih kv.2 (hv kv hkv)
        | _ => exact atom _ rfl
  exact haux v.nesting v le_rfl

theorem nesting_le_height (v : Json) : v.nesting ≤ v.height + 1 := by
  induction v using Json.induction with
  | atom v hv => omega
  | arr xs ih =>
      simp only [Json.nesting, Json.height, Nat.add_le_add_iff_right, nestingElems_le]
      exact fun x hx => (ih x hx).trans (heightElems_le.mp le_rfl x hx)
  | obj kvs ih =>
      simp only [Json.nesting, Json.height, Nat.add_le_add_iff_right, nestingMembers_le]
      exact fun kv hkv => (ih kv hkv).trans (heightMembers_le.mp le_rfl kv hkv)

theorem Json.Decoded.plain {v : Json} (hd : v.Decoded) (hf : v.noFloats = true) : v.Plain := by
  induction v using Json.induction with
  | atom v hv =>
      cases v with
      | arr xs => simp [Json.nesting] at hv
      | obj kvs => simp [Json.nesting] at hv
      | float s => simp [Json.noFloats] at hf
      | str s => exact hd
      | _ => trivial
  | arr xs ih =>
      simp only [Json.noFloats, noFloatElems_iff] at hf
      simp only [Json.Decoded, decodedElems_iff] at hd
      simp only [Json.Plain, plainElems_iff]
      exact fun x hx => ih x hx (hd x hx) (hf x hx)
  | obj kvs ih =>
      simp only [Json.noFloats, noFloatMembers_iff] at hf
      simp only [Json.Decoded, decodedMembers_iff] at hd
      simp only [Json.Plain, plainMembers_iff]
      exact ⟨hd.1, fun kv hkv => ⟨(hd.2 kv hkv).1, ih kv hkv (hd.2 kv hkv).2 (hf kv hkv)⟩⟩

theorem Json.Plain.noFloats {v : Json} (hp : v.Plain) : v.noFloats = true := by
  induction v using Json.induction with
  | atom v hv =>
      cases v with
      | arr xs => simp [Json.nesting] at hv
      | obj kvs => simp [Json.nesting] at hv
      | float s => exact hp.elim
      | _ => rfl
  | arr xs ih =>
      simp only [Json.Plain, plainElems_iff] at hp
      simp only [Json.noFloats, noFloatElems_iff]
      exact fun x hx => ih x hx (hp x hx)
  | obj kvs ih =>
      simp only [Json.Plain, plainMembers_iff] at hp
      simp only [Json.noFloats, noFloatMembers_iff]
      exact fun kv hkv => ih kv hkv (hp.2 kv hkv).2

/-! ### Sorting keys -/

@[simp] theorem nodes_sortKeys (v : Json) : v.sortKeys.nodes = v.nodes := by
  induction v using Json.induction with
  | atom v hv => rw [sortKeys_atom hv]
  | arr xs ih =>
      rw [sortKeys_arr]
      simp only [Json.nodes, nodesElems_eq, List.map_map]
      congr 2
      exact List.map_congr_left fun x hx => ih x hx
  | obj kvs ih =>
      have hperm := (sortedMembers_perm kvs).map fun kv : Str × Json => kv.2.nodes
      rw [sortKeys_obj]
      simp only [Json.nodes, nodesMembers_eq]
      rw [hperm.sum_nat, List.map_map]
      congr 2
      exact List.map_congr_left fun kv hkv => ih kv hkv

theorem height_sortKeys_le (v : Json) : v.sortKeys.height ≤ v.height := by
  induction v using Json.induction with
  | atom v hv => rw [sortKeys_atom hv]
  | arr xs ih =>
      rw [sortKeys_arr]
      simp only [Json.height, heightElems_le, List.mem_map, forall_exists_index, and_imp,
        forall_apply_eq_imp_iff₂]
      exact fun x hx => (Nat.succ_le_succ (ih x hx)).trans (heightElems_le.mp le_rfl x hx)
  | obj kvs ih =>
      rw [sortKeys_obj]
      simp only [Json.height, heightMembers_le]
      intro kv hkv
      obtain ⟨v, hm, hv⟩ := mem_sortedMembers.mp hkv
      rw [← hv]
      exact (Nat.succ_le_succ (ih _ hm)).trans (heightMembers_le.mp le_rfl _ hm)

end Lib
