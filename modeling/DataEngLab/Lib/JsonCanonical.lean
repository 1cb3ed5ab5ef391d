/-
Canonical JSON: which values have it, and when two values have the same.

A value has canonical bytes when its integers are short enough and all its strings and keys
are made of characters that UTF-8 can encode; `canonicalJson_isSome` says so.  The bytes
depend on the sorted value only, and an object that has exactly the wanted keys sorts like
the object built from its fields, in whatever order it held them: `hasExactly_perm`,
`sortKeys_members_congr`.
-/
import DataEngLab.Lib.JsonRaw

namespace Lib

/-! ### What sorting keeps -/

/-- A property that a container has through its members is one of the sorted value. -/
theorem sortKeys_iff {P : Json → Prop} {K : Str → Prop} (harr : ∀ xs, P (.arr xs) ↔ ∀ x ∈ xs, P x)
    (hobj : ∀ kvs, P (.obj kvs) ↔ ∀ kv ∈ kvs, K kv.1 ∧ P kv.2) (v : Json) : P v.sortKeys ↔ P v := by
  suffices ∀ d v, v.nesting ≤ d → (P v.sortKeys ↔ P v) from this _ v le_rfl
  intro d
  induction d with
  | zero => intro v hn; rw [sortKeys_atom (by omega)]
  | succ d ih =>
      intro v hn
      cases v with
      | arr xs =>
          simp only [Json.nesting, Nat.add_le_add_iff_right, nestingElems_le] at hn
          rw [sortKeys_arr, harr, harr]
          simp only [List.mem_map, forall_exists_index, and_imp, forall_apply_eq_imp_iff₂]
          exact forall₂_congr fun x hx => ih x (hn x hx)
      | obj kvs =>
          simp only [Json.nesting, Nat.add_le_add_iff_right, nestingMembers_le] at hn
          rw [sortKeys_obj, hobj, hobj]
          constructor
          · intro h kv hkv
            obtain ⟨hk, hv⟩ := h (kv.1, kv.2.sortKeys) (mem_sortedMembers.mpr ⟨kv.2, hkv, rfl⟩)
            exact ⟨hk, (ih kv.2 (hn kv hkv)).mp hv⟩
          · intro h kv hkv
            obtain ⟨v, hm, hv⟩ := mem_sortedMembers.mp hkv
            obtain ⟨hk, hp⟩ := h _ hm
            exact ⟨hk, hv ▸ (ih v (hn _ hm)).mpr hp⟩
      | _ => rfl

theorem sortKeys_intsFit (v : Json) : v.sortKeys.intsFit = v.intsFit := by
  have h := sortKeys_iff (P := (·.intsFit = true)) (K := fun _ => True)
    (fun xs => by simp only [Json.intsFit, elemsFit_iff]) (fun kvs => by simp only [Json.intsFit, membersFit_iff, true_and]) v
  exact Bool.eq_iff_iff.mpr h

/-- Values that sort alike have the same canonical bytes. -/
theorem canonicalJson_congr {v w : Json} (h : v.sortKeys = w.sortKeys) : canonicalJson v = canonicalJson w := by
  rw [canonicalJson, canonicalJson, ← sortKeys_intsFit v, ← sortKeys_intsFit w, h]

/-! ### The characters of a text -/

mutual
/-- Every character of the strings, the keys and the numbers is in a class. -/
def Json.Chars (P : Nat → Prop) : Json → Prop
  | .str s => ∀ c ∈ s, P c
  | .float text => ∀ c ∈ text, P c
  | .arr xs => CharsElems P xs
  | .obj kvs => CharsMembers P kvs
  | _ => True

def CharsElems (P : Nat → Prop) : List Json → Prop
  | [] => True
  | x :: xs => x.Chars P ∧ CharsElems P xs

def CharsMembers (P : Nat → Prop) : List (Str × Json) → Prop
  | [] => True
  | (k, v) :: kvs => ((∀ c ∈ k, P c) ∧ v.Chars P) ∧ CharsMembers P kvs
end

section
variable {P : Nat → Prop}

theorem charsElems_iff {xs : List Json} : CharsElems P xs ↔ ∀ x ∈ xs, x.Chars P := by
  induction xs with
  | nil => simp [CharsElems]
  | cons x xs ih => simp [CharsElems, ih]

theorem charsMembers_iff {kvs : List (Str × Json)} :
    CharsMembers P kvs ↔ ∀ kv ∈ kvs, (∀ c ∈ kv.1, P c) ∧ kv.2.Chars P := by
  induction kvs with
  | nil => simp [CharsMembers]
  | cons kv kvs ih => simp only [CharsMembers, ih, List.forall_mem_cons]

theorem chars_sortKeys (v : Json) : v.sortKeys.Chars P ↔ v.Chars P :=
  sortKeys_iff (P := Json.Chars P) (K := fun k => ∀ c ∈ k, P c) (fun xs => by rw [Json.Chars, charsElems_iff])
    (fun kvs => by rw [Json.Chars, charsMembers_iff]) v

variable (hascii : ∀ c < 128, P c)
include hascii

theorem chars_of_ascii {s : Str} (h : ∀ c ∈ s, c < 128) : ∀ c ∈ s, P c := fun c hc => hascii c (h c hc)

theorem rawChar_chars (c : Nat) : (∀ d ∈ rawChar c, P d) ↔ P c := by
  have hboth : ∀ {e : Str}, c < 128 → (∀ d ∈ e, d < 128) → ((∀ d ∈ e, P d) ↔ P c) := fun hc he =>
    ⟨fun _ => hascii c hc, fun _ => chars_of_ascii hascii he⟩
  unfold rawChar
  split_ifs with h1 h2 h3 h4 h5 h6 h7 h8
  · exact hboth (by omega) (by decide)
  · exact hboth (by omega) (by decide)
  · exact hboth (by omega) (by decide)
  · exact hboth (by omega) (by decide)
  · exact hboth (by omega) (by decide)
  · exact hboth (by omega) (by decide)
  · exact hboth (by omega) (by decide)
  · exact hboth (by omega) (escapeUnit_ascii c)
  · exact List.forall_mem_singleton

theorem quote_chars (s : Str) : (∀ c ∈ quote rawEscaping s, P c) ↔ ∀ c ∈ s, P c := by
  have hquote : P 34 := hascii 34 (by decide)
  have hflat : (∀ c ∈ s.flatMap rawChar, P c) ↔ ∀ c ∈ s, P c := by
    constructor
    · exact fun h c hc => (rawChar_chars hascii c).mp fun d hd => h d (List.mem_flatMap.mpr ⟨c, hc, hd⟩)
    · intro h d hd
      obtain ⟨c, hc, hd⟩ := List.mem_flatMap.mp hd
      exact (rawChar_chars hascii c).mpr (h c hc) d hd
  rw [← hflat]
  show (∀ c ∈ 34 :: (s.flatMap rawChar ++ [34]), P c) ↔ _
  rw [List.forall_mem_cons, List.forall_mem_append, List.forall_mem_singleton]
  exact ⟨fun h => h.2.1, fun h => ⟨hquote, h, hquote⟩⟩

mutual
/-- The text of a value is made of its strings, its keys and ASCII. -/
theorem text_chars : ∀ v : Json, (∀ c ∈ v.text rawEscaping, P c) ↔ v.Chars P
  | .null => by
      simp only [Json.text, Json.Chars, iff_true]
      exact chars_of_ascii hascii (by decide)
  | .bool true => by
      simp only [Json.text, Json.Chars, iff_true]
      exact chars_of_ascii hascii (by decide)
  | .bool false => by
      simp only [Json.text, Json.Chars, iff_true]
      exact chars_of_ascii hascii (by decide)
  | .int n => by
      simp only [Json.text, Json.Chars, iff_true]
      exact chars_of_ascii hascii (printInt_ascii n)
  | .float text => by rw [Json.text, Json.Chars]
  | .str s => by rw [Json.text, Json.Chars, quote_chars hascii]
  | .arr [] => by
      simp only [Json.text, Json.Chars, CharsElems, iff_true]
      exact chars_of_ascii hascii (by decide)
  | .arr (x :: xs) => by
      have hopen : P 91 := hascii 91 (by decide)
      simp only [Json.text, Json.Chars, CharsElems, List.cons_append, List.forall_mem_cons, List.forall_mem_append,
        hopen, true_and, text_chars x, textElems_chars xs]
  | .obj [] => by
      simp only [Json.text, Json.Chars, CharsMembers, iff_true]
      exact chars_of_ascii hascii (by decide)
  | .obj ((k, v) :: kvs) => by
      have hopen : P 123 := hascii 123 (by decide)
      have hcolon : P 58 := hascii 58 (by decide)
      simp only [Json.text, Json.Chars, CharsMembers, List.cons_append, List.append_assoc, List.forall_mem_cons,
        List.forall_mem_append, hopen, hcolon, true_and, quote_chars hascii, text_chars v, textMembers_chars kvs,
        and_assoc]

theorem textElems_chars : ∀ xs : List Json, (∀ c ∈ textElems rawEscaping xs, P c) ↔ CharsElems P xs
  | [] => by
      simp only [textElems, CharsElems, iff_true]
      exact chars_of_ascii hascii (by decide)
  | x :: xs => by
      have hcomma : P 44 := hascii 44 (by decide)
      simp only [textElems, CharsElems, List.cons_append, List.forall_mem_cons, List.forall_mem_append, hcomma,
        true_and, text_chars x, textElems_chars xs]

theorem textMembers_chars : ∀ kvs : List (Str × Json), (∀ c ∈ textMembers rawEscaping kvs, P c) ↔ CharsMembers P kvs
  | [] => by
      simp only [textMembers, CharsMembers, iff_true]
      exact chars_of_ascii hascii (by decide)
  | (k, v) :: kvs => by
      have hcomma : P 44 := hascii 44 (by decide)
      have hcolon : P 58 := hascii 58 (by decide)
      simp only [textMembers, CharsMembers, List.cons_append, List.append_assoc, List.forall_mem_cons,
        List.forall_mem_append, hcomma, hcolon, true_and, quote_chars hascii, text_chars v, textMembers_chars kvs,
        and_assoc]
end

end

/-! ### What UTF-8 encodes -/

/-- A code point that is no surrogate. -/
def IsScalar (c : Nat) : Prop := c < 0x110000 ∧ ¬ (0xD800 ≤ c ∧ c ≤ 0xDFFF)

instance (c : Nat) : Decidable (IsScalar c) := inferInstanceAs (Decidable (_ ∧ _))

theorem isScalar_ascii : ∀ c < 128, IsScalar c := fun c hc => by unfold IsScalar; omega

theorem utf8Char_isSome (c : Nat) : (utf8Char c).isSome = true ↔ IsScalar c := by
  unfold utf8Char IsScalar
  split_ifs
  all_goals simp only [Option.isSome_some, Option.isSome_none, Bool.false_eq_true, true_iff, false_iff]
  all_goals omega

theorem utf8Encode_isSome (s : Str) : (utf8Encode s).isSome = true ↔ ∀ c ∈ s, IsScalar c := by
  induction s with
  | nil => simp [utf8Encode]
  | cons c s ih =>
      rw [List.forall_mem_cons, ← ih, ← utf8Char_isSome, Option.isSome_iff_exists]
      simp only [utf8Encode_cons, Option.isSome_iff_exists]
      constructor
      · rintro ⟨_, units, rest, hc, hs, -⟩
        exact ⟨⟨units, hc⟩, rest, hs⟩
      · rintro ⟨⟨units, hc⟩, rest, hs⟩
        exact ⟨_, units, rest, hc, hs, rfl⟩

/-- **The values that have canonical bytes.** -/
theorem canonicalJson_isSome (v : Json) :
    (canonicalJson v).isSome = true ↔ v.intsFit = true ∧ v.Chars IsScalar := by
  rw [← chars_sortKeys, ← text_chars isScalar_ascii, ← utf8Encode_isSome, canonicalJson]
  split
  · rename_i hfit
    simp only [hfit, true_and]
  · rename_i hfit
    simp only [hfit, Option.isSome_none, Bool.false_eq_true, false_and]

theorem isScalar_lit (s : String) : ∀ c ∈ lit s, IsScalar c := by
  intro c hc
  obtain ⟨b, -, rfl⟩ := List.mem_map.mp hc
  have hb := b.toNat_lt
  exact ⟨by omega, by omega⟩

/-- An object has canonical bytes when its fields have. -/
theorem canonicalJson_members_isSome (fs : List (String × Json)) :
    (canonicalJson (.obj (members fs))).isSome = true ↔ ∀ f ∈ fs, f.2.intsFit = true ∧ f.2.Chars IsScalar := by
  rw [canonicalJson_isSome, Json.intsFit, membersFit_iff, Json.Chars, charsMembers_iff]
  simp only [members, List.mem_map, forall_exists_index, and_imp, forall_apply_eq_imp_iff₂, ← forall₂_and]
  exact forall₂_congr fun f _ => and_congr_right fun _ => and_iff_right (isScalar_lit f.1)

/-! ### Objects with exactly the wanted keys -/

/-- Objects whose fields sort alike, name by name, sort alike. -/
theorem sortKeys_members_congr {fs gs : List (String × Json)}
    (h : fs.map (fun f => (f.1, f.2.sortKeys)) = gs.map fun f => (f.1, f.2.sortKeys)) :
    (Json.obj (members fs)).sortKeys = (Json.obj (members gs)).sortKeys := by
  have hsorted : ∀ hs : List (String × Json), (members hs).map (fun kv => (kv.1, kv.2.sortKeys)) =
      (hs.map fun f => (f.1, f.2.sortKeys)).map fun f => (lit f.1, f.2) := fun hs => by
    simp only [members, List.map_map, Function.comp_def]
  rw [sortKeys_obj, sortKeys_obj, sortedMembers, sortedMembers, hsorted, hsorted, h]

/-- An object that has exactly the wanted keys holds its fields, in some order. -/
theorem hasExactly_perm {fields : List String} {kvs : List (Str × Json)} (hn : fields.Nodup)
    (h : Json.hasExactly fields kvs = true) :
    (members (fields.map fun f => (f, (Json.get f kvs).getD .null))).Perm kvs := by
  simp only [Json.hasExactly, Bool.and_eq_true, beq_iff_eq, List.all_eq_true] at h
  obtain ⟨hlen, hall⟩ := h
  have hkeys : ((members (fields.map fun f => (f, (Json.get f kvs).getD .null))).map Prod.fst).Nodup :=
    members_keys_nodup (by simpa only [List.map_map, Function.comp_def, List.map_id'] using hn)
  have hsub : members (fields.map fun f => (f, (Json.get f kvs).getD .null)) ⊆ kvs := by
    intro kv hkv
    simp only [members, List.map_map, List.mem_map, Function.comp_apply] at hkv
    obtain ⟨f, hf, rfl⟩ := hkv
    obtain ⟨v, hv⟩ := Option.isSome_iff_exists.mp (hall f hf)
    rw [hv]
    exact get_mem hv
  refine (List.subperm_of_subset (List.Nodup.of_map Prod.fst hkeys) hsub).perm_of_length_le ?_
  simp only [members, List.length_map, hlen, le_refl]

/-- Such an object sorts like the object built from its fields. -/
theorem sortKeys_of_hasExactly {fields : List String} {kvs : List (Str × Json)} (hn : fields.Nodup)
    (h : Json.hasExactly fields kvs = true) : (Json.obj kvs).sortKeys =
      (Json.obj (members (fields.map fun f => (f, (Json.get f kvs).getD .null)))).sortKeys := by
  have hkeys : ((members (fields.map fun f => (f, (Json.get f kvs).getD .null))).map Prod.fst).Nodup :=
    members_keys_nodup (by simpa only [List.map_map, Function.comp_def, List.map_id'] using hn)
  rw [sortKeys_obj, sortKeys_obj, sortedMembers_eq_of_perm (hasExactly_perm hn h) hkeys]

end Lib
