/-
UTF-8, written and read back.

`utf8Encode` refuses exactly the text that holds a lone surrogate, and the decoder gives
back whatever it wrote.  So two texts with the same bytes are the same text, and text
that can be encoded is text a JSON reader gives back unchanged.
-/
import DataEngLab.Lib.Json

namespace Lib

theorem utf8Encode_cons {c : Nat} {s : Str} {b : Bytes} : utf8Encode (c :: s) = some b ↔
    ∃ units rest, utf8Char c = some units ∧ utf8Encode s = some rest ∧ units ++ rest = b := by
  simp only [utf8Encode]
  cases utf8Char c with
  | none => simp
  | some units =>
      cases utf8Encode s with
      | none => simp
      | some rest => simp

/-! ### One character -/

theorem byte_toNat {n : Nat} (h : n < 256) : (UInt8.ofNat n).toNat = n := by
  rw [UInt8.toNat_ofNat']
  omega

theorem isContinuation_low {n : Nat} (h : n < 64) : isContinuation (0x80 + n) = true := by
  simp only [isContinuation, Bool.and_eq_true, decide_eq_true_eq]
  omega

section
variable (surrogates : Bool) {c : Nat} (r : List Nat)

theorem utf8Step_two (hlo : 0x80 ≤ c) (hhi : c < 0x800) :
    utf8Step surrogates ((0xC0 + c / 64) :: (0x80 + c % 64) :: r) = some (c, r) := by
  have hcont := isContinuation_low (n := c % 64) (by omega)
  simp only [utf8Step]
  rw [if_neg (by omega), if_pos ⟨by omega, by omega, hcont⟩, Option.some.injEq, Prod.mk.injEq]
  exact ⟨by omega, rfl⟩

theorem utf8Step_three (hlo : 0x800 ≤ c) (hhi : c < 0x10000) (hs : ¬ (0xD800 ≤ c ∧ c ≤ 0xDFFF)) :
    utf8Step surrogates ((0xE0 + c / 4096) :: (0x80 + c / 64 % 64) :: (0x80 + c % 64) :: r) =
      some (c, r) := by
  have h1 := isContinuation_low (n := c / 64 % 64) (by omega)
  have h2 := isContinuation_low (n := c % 64) (by omega)
  simp only [utf8Step]
  rw [if_neg (by omega), if_neg (by omega), if_pos ⟨by omega, by omega, h1, h2, by omega, by omega⟩,
    Option.some.injEq, Prod.mk.injEq]
  exact ⟨by omega, rfl⟩

theorem utf8Step_four (hlo : 0x10000 ≤ c) (hhi : c < 0x110000) :
    utf8Step surrogates ((0xF0 + c / 262144) :: (0x80 + c / 4096 % 64) :: (0x80 + c / 64 % 64) ::
      (0x80 + c % 64) :: r) = some (c, r) := by
  have h1 := isContinuation_low (n := c / 4096 % 64) (by omega)
  have h2 := isContinuation_low (n := c / 64 % 64) (by omega)
  have h3 := isContinuation_low (n := c % 64) (by omega)
  simp only [utf8Step]
  rw [if_neg (by omega), if_neg (by omega), if_neg (by omega),
    if_pos ⟨by omega, by omega, h1, h2, h3, by omega, by omega⟩, Option.some.injEq, Prod.mk.injEq]
  exact ⟨by omega, rfl⟩

/-- The decoder's step undoes the encoding of one character. -/
theorem utf8Step_char {units : Bytes} (h : utf8Char c = some units) :
    utf8Step surrogates (units.map UInt8.toNat ++ r) = some (c, r) := by
  unfold utf8Char at h
  by_cases h1 : c < 0x80
  · rw [if_pos h1] at h
    cases h
    show utf8Step surrogates ((UInt8.ofNat c).toNat :: r) = _
    rw [byte_toNat (by omega)]
    simp only [utf8Step, if_pos h1]
  rw [if_neg h1] at h
  by_cases h2 : c < 0x800
  · rw [if_pos h2] at h
    cases h
    show utf8Step surrogates ((UInt8.ofNat _).toNat :: (UInt8.ofNat _).toNat :: r) = _
    rw [byte_toNat (by omega), byte_toNat (by omega)]
    exact utf8Step_two surrogates r (by omega) h2
  rw [if_neg h2] at h
  by_cases hs : 0xD800 ≤ c ∧ c ≤ 0xDFFF
  · rw [if_pos hs] at h
    cases h
  rw [if_neg hs] at h
  by_cases h3 : c < 0x10000
  · rw [if_pos h3] at h
    cases h
    show utf8Step surrogates ((UInt8.ofNat _).toNat :: (UInt8.ofNat _).toNat ::
      (UInt8.ofNat _).toNat :: r) = _
    rw [byte_toNat (by omega), byte_toNat (by omega), byte_toNat (by omega)]
    exact utf8Step_three surrogates r (by omega) h3 hs
  rw [if_neg h3] at h
  by_cases h4 : c < 0x110000
  · rw [if_pos h4] at h
    cases h
    show utf8Step surrogates ((UInt8.ofNat _).toNat :: (UInt8.ofNat _).toNat ::
      (UInt8.ofNat _).toNat :: (UInt8.ofNat _).toNat :: r) = _
    rw [byte_toNat (by omega), byte_toNat (by omega), byte_toNat (by omega), byte_toNat (by omega)]
    exact utf8Step_four surrogates r (by omega) h4
  · rw [if_neg h4] at h
    cases h

end

/-- A character that can be encoded is a code point and no surrogate. -/
theorem utf8Char_scalar {c : Nat} {units : Bytes} (h : utf8Char c = some units) :
    c < 0x110000 ∧ isHighSurrogate c = false := by
  have hcases : c < 0x110000 ∧ ¬ (0xD800 ≤ c ∧ c ≤ 0xDFFF) := by
    unfold utf8Char at h
    split_ifs at h
    all_goals omega
  refine ⟨hcases.1, ?_⟩
  simp only [isHighSurrogate, Bool.and_eq_false_iff, decide_eq_false_iff_not]
  omega

theorem utf8Char_length {c : Nat} {units : Bytes} (h : utf8Char c = some units) : 1 ≤ units.length := by
  unfold utf8Char at h
  split_ifs at h
  all_goals (cases h; simp)

/-! ### Text -/

theorem utf8DecodeAux_encode (surrogates : Bool) : ∀ {s : Str} {b : Bytes} {fuel : Nat},
    utf8Encode s = some b → s.length ≤ fuel →
      utf8DecodeAux surrogates fuel (b.map UInt8.toNat) = some s := by
  intro s
  induction s with
  | nil =>
      intro b fuel h _
      cases h
      cases fuel <;> rfl
  | cons c s ih =>
      intro b fuel h hfuel
      obtain ⟨units, rest, hu, hr, rfl⟩ := utf8Encode_cons.mp h
      cases fuel with
      | zero => simp at hfuel
      | succ fuel =>
          have hstep := utf8Step_char surrogates (rest.map UInt8.toNat) hu
          have htail := ih hr (Nat.le_of_succ_le_succ hfuel)
          rw [List.map_append]
          cases hb : units.map UInt8.toNat ++ rest.map UInt8.toNat with
          | nil =>
              have hlen := congrArg List.length hb
              have hpos := utf8Char_length hu
              simp only [List.length_append, List.length_map, List.length_nil] at hlen
              omega
          | cons x xs =>
              rw [hb] at hstep
              simp only [utf8DecodeAux, hstep, htail, Option.map_some]

theorem utf8Encode_length : ∀ {s : Str} {b : Bytes}, utf8Encode s = some b → s.length ≤ b.length := by
  intro s
  induction s with
  | nil => intro b _; simp
  | cons c s ih =>
      intro b h
      obtain ⟨units, rest, hu, hr, rfl⟩ := utf8Encode_cons.mp h
      have := utf8Char_length hu
      have := ih hr
      simp only [List.length_cons, List.length_append]
      omega

/-- **What was encoded is decoded again.** -/
theorem utf8Decode_utf8Encode (surrogates : Bool) {s : Str} {b : Bytes} (h : utf8Encode s = some b) :
    utf8Decode surrogates b = some s :=
  utf8DecodeAux_encode surrogates h (utf8Encode_length h)

theorem utf8Encode_ascii : ∀ {s : Str}, (∀ c ∈ s, c < 128) → utf8Encode s = some (asciiBytes s) := by
  intro s
  induction s with
  | nil => exact fun _ => rfl
  | cons c s ih =>
      intro h
      have hc : c < 0x80 := h c (by simp)
      exact utf8Encode_cons.mpr ⟨[UInt8.ofNat c], asciiBytes s, by rw [utf8Char, if_pos hc],
        ih fun d hd => h d (List.mem_cons_of_mem c hd), rfl⟩

theorem utf8Encode_inj {s t : Str} {b : Bytes} (hs : utf8Encode s = some b) (ht : utf8Encode t = some b) :
    s = t := by
  have h := utf8Decode_utf8Encode false hs
  rw [utf8Decode_utf8Encode false ht] at h
  exact (Option.some.inj h).symm

/-- Text that can be encoded holds no surrogates, so none that a reader would join. -/
theorem joined_of_utf8 : ∀ {s : Str} {b : Bytes}, utf8Encode s = some b → Str.Joined s := by
  intro s
  induction s with
  | nil => intro _ _; trivial
  | cons c s ih =>
      intro b h
      obtain ⟨units, rest, hu, hr, -⟩ := utf8Encode_cons.mp h
      obtain ⟨hlt, hhigh⟩ := utf8Char_scalar hu
      have hjoined := ih hr
      cases s with
      | nil => exact hlt
      | cons d s => exact ⟨hlt, fun hc => by simp [hhigh] at hc, hjoined⟩

end Lib
