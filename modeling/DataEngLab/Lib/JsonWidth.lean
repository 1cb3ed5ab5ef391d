/-
How long the text of a value can be.

`Json.width` bounds every text of a value, whatever the order of its members and with
either way of escaping, where no character takes more than twelve.  The bound is generous
(an integer counts with all the digits it may have), but it is a sum over the value, so
what a document holds says how many bytes are enough for it.
-/
import DataEngLab.Lib.JsonBounds
import DataEngLab.Lib.JsonRaw

namespace Lib

mutual
def Json.width : Json → Nat
  | .null => 4
  | .bool _ => 5
  | .int _ => intDigitLimit + 1
  | .float text => text.length
  | .str s => 12 * s.length + 2
  | .arr xs => widthElems xs + 2
  | .obj kvs => widthMembers kvs + 2

def widthElems : List Json → Nat
  | [] => 0
  | x :: xs => x.width + 1 + widthElems xs

def widthMembers : List (Str × Json) → Nat
  | [] => 0
  | (k, v) :: kvs => 12 * k.length + v.width + 4 + widthMembers kvs
end

theorem widthElems_eq (xs : List Json) : widthElems xs = (xs.map fun x => x.width + 1).sum := by
  induction xs with
  | nil => rfl
  | cons x xs ih => simp [widthElems, ih]

theorem widthMembers_eq (kvs : List (Str × Json)) :
    widthMembers kvs = (kvs.map fun kv => 12 * kv.1.length + kv.2.width + 4).sum := by
  induction kvs with
  | nil => rfl
  | cons kv kvs ih => simp [widthMembers, ih]

@[simp] theorem width_sortKeys (v : Json) : v.sortKeys.width = v.width := by
  induction v using Json.induction with
  | atom v hv => rw [sortKeys_atom hv]
  | arr xs ih =>
      rw [sortKeys_arr]
      simp only [Json.width, widthElems_eq, List.map_map]
      congr 2
      exact List.map_congr_left fun x hx => by simp [ih x hx]
  | obj kvs ih =>
      have hperm := (sortedMembers_perm kvs).map fun kv : Str × Json => 12 * kv.1.length + kv.2.width + 4
      rw [sortKeys_obj]
      simp only [Json.width, widthMembers_eq]
      rw [hperm.sum_nat, List.map_map]
      congr 2
      exact List.map_congr_left fun kv hkv => by simp [ih kv hkv]

/-! ### Texts -/

section
variable {E : Escaping}

theorem quote_length_le (hE : ∀ c, (E.char c).length ≤ 12) (s : Str) : (quote E s).length ≤ 12 * s.length + 2 := by
  have hflat : (s.flatMap E.char).length ≤ 12 * s.length := by
    induction s with
    | nil => simp
    | cons c s ih =>
        have hc := hE c
        rw [List.flatMap_cons, List.length_append, List.length_cons]
        omega
  rw [quote, List.length_append, List.length_cons, List.length_singleton]
  omega

theorem printInt_length_le {n : Int} (h : intFits n = true) : (printInt n).length ≤ intDigitLimit + 1 := by
  simp only [intFits, decide_eq_true_eq] at h
  unfold printInt
  split
  · simpa using h
  · omega

mutual
theorem text_length_le (hE : ∀ c, (E.char c).length ≤ 12) : ∀ {v : Json}, v.intsFit = true →
    (v.text E).length ≤ v.width
  | .null, _ => Nat.le_refl 4
  | .bool true, _ => Nat.le_succ 4
  | .bool false, _ => Nat.le_refl 5
  | .int _, h => printInt_length_le h
  | .float _, _ => Nat.le_refl _
  | .str s, _ => quote_length_le hE s
  | .arr [], _ => Nat.le_refl 2
  | .arr (x :: xs), h => by
      rw [Json.intsFit, elemsFit, Bool.and_eq_true] at h
      have hx := text_length_le hE h.1
      have hxs := textElems_length_le hE h.2
      simp only [Json.text, Json.width, widthElems, List.length_append, List.length_cons]
      omega
  | .obj [], _ => Nat.le_refl 2
  | .obj ((k, v) :: kvs), h => by
      rw [Json.intsFit, membersFit, Bool.and_eq_true] at h
      have hk := quote_length_le hE k
      have hv := text_length_le hE h.1
      have hkvs := textMembers_length_le hE h.2
      simp only [Json.text, Json.width, widthMembers, List.length_append, List.length_cons]
      omega

theorem textElems_length_le (hE : ∀ c, (E.char c).length ≤ 12) : ∀ {xs : List Json}, elemsFit xs = true →
    (textElems E xs).length ≤ widthElems xs + 1
  | [], _ => Nat.le_refl 1
  | x :: xs, h => by
      rw [elemsFit, Bool.and_eq_true] at h
      have hx := text_length_le hE h.1
      have hxs := textElems_length_le hE h.2
      simp only [textElems, widthElems, List.length_append, List.length_cons]
      omega

theorem textMembers_length_le (hE : ∀ c, (E.char c).length ≤ 12) : ∀ {kvs : List (Str × Json)},
    membersFit kvs = true → (textMembers E kvs).length ≤ widthMembers kvs + 1
  | [], _ => Nat.le_refl 1
  | (k, v) :: kvs, h => by
      rw [membersFit, Bool.and_eq_true] at h
      have hk := quote_length_le hE k
      have hv := text_length_le hE h.1
      have hkvs := textMembers_length_le hE h.2
      simp only [textMembers, widthMembers, List.length_append, List.length_cons]
      omega
end

end

theorem escapeChar_length_le (c : Nat) : (escapeChar c).length ≤ 12 := by
  unfold escapeChar
  split_ifs <;> simp [escapeUnit]

theorem rawChar_length_le (c : Nat) : (rawChar c).length ≤ 12 := by
  unfold rawChar
  split_ifs <;> simp [escapeUnit]

/-! ### Bytes -/

theorem utf8Char_length_le {c : Nat} {units : Bytes} (h : utf8Char c = some units) : units.length ≤ 4 := by
  unfold utf8Char at h
  split_ifs at h <;> simp at h <;> subst h <;> simp

theorem utf8Encode_length_le : ∀ {s : Str} {b : Bytes}, utf8Encode s = some b → b.length ≤ 4 * s.length := by
  intro s
  induction s with
  | nil =>
      intro b h
      rw [← Option.some.inj h]
      simp
  | cons c s ih =>
      intro b h
      obtain ⟨units, rest, hc, hs, rfl⟩ := utf8Encode_cons.mp h
      have hunits := utf8Char_length_le hc
      have hrest := ih hs
      rw [List.length_append, List.length_cons]
      omega

/-- Canonical bytes are at most four times the width of their document. -/
theorem canonicalJson_length_le {v : Json} {b : Bytes} (h : canonicalJson v = some b) :
    b.length ≤ 4 * v.width := by
  obtain ⟨hfit, hbytes⟩ := canonicalJson_eq_some.mp h
  have htext : (v.sortKeys.text rawEscaping).length ≤ v.sortKeys.width :=
    text_length_le rawChar_length_le (intsFit_sortKeys hfit)
  rw [width_sortKeys] at htext
  exact (utf8Encode_length_le hbytes).trans (Nat.mul_le_mul_left 4 htext)

/-- The text of `json.dumps` is no longer than the width. -/
theorem dumps_length_le {v : Json} {s : Str} (h : dumps v = some s) : s.length ≤ v.width := by
  obtain ⟨hfit, rfl⟩ := dumps_eq_some.mp h
  have htext : (v.sortKeys.text asciiEscaping).length ≤ v.sortKeys.width :=
    text_length_le escapeChar_length_le (intsFit_sortKeys hfit)
  rwa [width_sortKeys, ← print_eq_text] at htext

end Lib
