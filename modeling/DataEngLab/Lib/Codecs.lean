/-
Decoding bytes that come in pieces.

A codec looks at the bytes ahead: they begin with a character, or with none, or it takes more bytes
to tell.  What more bytes cannot change is all that is asked of it (`Codec`), and then decoding the
pieces one by one, with the undecoded bytes kept for the next, is decoding the whole
(`Codec.decode_append`).

A word is found in a text that comes in pieces when the end of what went before is looked at with
each piece (`infix_append_window`).
-/
import DataEngLab.Lib.Text
import Mathlib.Data.List.Infix

namespace Lib

/-! ### Codecs -/

inductive Look where
  | char (c : Nat) (rest : Bytes)
  /-- the bytes may be the beginning of a character -/
  | incomplete
  | invalid

/-- With more bytes behind it. -/
def Look.append : Look → Bytes → Look
  | .char c rest, more => .char c (rest ++ more)
  | .incomplete, _ => .incomplete
  | .invalid, _ => .invalid

structure Codec where
  look : Bytes → Look
  char_length : ∀ {b : Bytes} {c : Nat} {rest : Bytes}, look b = .char c rest → rest.length < b.length
  look_append : ∀ {b : Bytes} (more : Bytes), look b ≠ .incomplete → look (b ++ more) = (look b).append more

namespace Codec

variable (k : Codec)

def decodeAux : Nat → Bytes → Option (Str × Bytes)
  | 0, b => some ([], b)
  | fuel + 1, b =>
      match k.look b with
      | .incomplete => some ([], b)
      | .invalid => none
      | .char c rest => (decodeAux fuel rest).map fun (s, left) => (c :: s, left)

/-- The text, and the bytes at the end that may become a character. -/
def decode (b : Bytes) : Option (Str × Bytes) := k.decodeAux (b.length + 1) b

/-- The text, when nothing is left. -/
def decodeAll (b : Bytes) : Option Str :=
  match k.decode b with
  | some (s, []) => some s
  | _ => none

variable {k} {b : Bytes}

theorem decodeAux_fuel : ∀ {b : Bytes} {fuel : Nat}, b.length < fuel → k.decodeAux fuel b = k.decode b := by
  intro b
  induction hn : b.length using Nat.strong_induction_on generalizing b with
  | _ n ih =>
      intro fuel hfuel
      obtain ⟨fuel, rfl⟩ : ∃ m, fuel = m + 1 := ⟨fuel - 1, by omega⟩
      rw [decode, decodeAux, decodeAux]
      cases hlook : k.look b with
      | incomplete => rfl
      | invalid => rfl
      | char c rest =>
          have hlt := k.char_length hlook
          dsimp only
          rw [ih _ (by omega) rfl (by omega), ih _ (by omega) rfl (by omega : rest.length < b.length)]

theorem decode_char {c : Nat} {rest : Bytes} (h : k.look b = .char c rest) :
    k.decode b = (k.decode rest).map fun (s, left) => (c :: s, left) := by
  rw [decode, decodeAux, h]
  dsimp only
  rw [decodeAux_fuel (k.char_length h)]

theorem decode_incomplete (h : k.look b = .incomplete) : k.decode b = some ([], b) := by
  rw [decode, decodeAux, h]

theorem decode_invalid (h : k.look b = .invalid) : k.decode b = none := by
  rw [decode, decodeAux, h]

/-- **Decoding in pieces is decoding the whole.** -/
theorem decode_append (more : Bytes) : ∀ {b : Bytes}, k.decode (b ++ more) =
    (k.decode b).bind fun (s, left) => (k.decode (left ++ more)).map fun (t, rest) => (s ++ t, rest) := by
  intro b
  induction hn : b.length using Nat.strong_induction_on generalizing b with
  | _ n ih =>
      cases hlook : k.look b with
      | incomplete =>
          rw [decode_incomplete hlook, Option.bind_some]
          exact Option.map_id'.symm
      | invalid =>
          have hmore := k.look_append more (b := b) (by rw [hlook]; exact Look.noConfusion)
          rw [hlook] at hmore
          rw [decode_invalid hlook, decode_invalid hmore]
          rfl
      | char c rest =>
          have hmore := k.look_append more (b := b) (by rw [hlook]; exact Look.noConfusion)
          rw [hlook] at hmore
          rw [decode_char hlook, decode_char hmore, ih _ (hn ▸ k.char_length hlook) rfl]
          cases k.decode rest with
          | none => rfl
          | some x =>
              rw [Option.bind_some, Option.map_some, Option.bind_some, Option.map_map]
              rfl

end Codec

/-! ### UTF-8 and UTF-16 -/

/-- `0x80 ≤ b ≤ 0xBF` -/
def isTail (b : UInt8) : Bool := 0x80 ≤ b.toNat && b.toNat ≤ 0xBF

/-- The first byte says how many follow, and what the second may be. -/
def lookUtf8 : Bytes → Look
  | [] => .incomplete
  | a :: r =>
      let n := a.toNat
      if n < 0x80 then .char n r
      else if 0xC2 ≤ n ∧ n ≤ 0xDF then
        match r with
        | [] => .incomplete
        | b :: r => if isTail b then .char ((n - 0xC0) * 64 + (b.toNat - 0x80)) r else .invalid
      else if 0xE0 ≤ n ∧ n ≤ 0xEF then
        match r with
        | [] => .incomplete
        | b :: r =>
            if !isTail b || (n == 0xE0 && b.toNat < 0xA0) then .invalid
            else
              match r with
              | [] => .incomplete
              | c :: r =>
                  if isTail c && !(n == 0xED && 0xA0 ≤ b.toNat) then
                    .char (((n - 0xE0) * 64 + (b.toNat - 0x80)) * 64 + (c.toNat - 0x80)) r
                  else .invalid
      else if 0xF0 ≤ n ∧ n ≤ 0xF4 then
        match r with
        | [] => .incomplete
        | b :: r =>
            if !isTail b || (n == 0xF0 && b.toNat < 0x90) || (n == 0xF4 && 0x8F < b.toNat) then .invalid
            else
              match r with
              | [] => .incomplete
              | c :: r =>
                  if !isTail c then .invalid
                  else
                    match r with
                    | [] => .incomplete
                    | d :: r =>
                        if isTail d then
                          .char ((((n - 0xF0) * 64 + (b.toNat - 0x80)) * 64 + (c.toNat - 0x80)) * 64 +
                            (d.toNat - 0x80)) r
                        else .invalid
      else .invalid

/-- The 16 bits of two bytes. -/
def unit16 (littleEndian : Bool) (a b : UInt8) : Nat :=
  if littleEndian then a.toNat + 256 * b.toNat else 256 * a.toNat + b.toNat

/-- Two bytes, or four where they are a pair of surrogates. -/
def lookUtf16 (littleEndian : Bool) : Bytes → Look
  | a :: b :: r =>
      let n := unit16 littleEndian a b
      if isHighSurrogate n then
        match r with
        | c :: d :: r =>
            let m := unit16 littleEndian c d
            if isLowSurrogate m then .char (0x10000 + (n - 0xD800) * 0x400 + (m - 0xDC00)) r else .invalid
        | _ => .incomplete
      else if isLowSurrogate n then .invalid
      else .char n r
  | _ => .incomplete

section
variable {b : Bytes}

theorem lookUtf8_length {c : Nat} {rest : Bytes} (h : lookUtf8 b = .char c rest) : rest.length < b.length := by
  rcases b with _ | ⟨x, _ | ⟨y, _ | ⟨z, _ | ⟨t, r⟩⟩⟩⟩
  · cases h
  all_goals
    simp only [lookUtf8] at h
    split_ifs at h
    all_goals first
      | exact Look.noConfusion h
      | obtain ⟨-, rfl⟩ := Look.char.inj h
        simp only [List.length_cons]
        omega

theorem lookUtf8_append (more : Bytes) (h : lookUtf8 b ≠ .incomplete) :
    lookUtf8 (b ++ more) = (lookUtf8 b).append more := by
  rcases b with _ | ⟨x, _ | ⟨y, _ | ⟨z, _ | ⟨t, r⟩⟩⟩⟩
  · exact absurd rfl h
  all_goals
    simp only [lookUtf8, List.cons_append, List.nil_append] at h ⊢
    split_ifs at h ⊢
    all_goals first
      | rfl
      | exact absurd rfl h

theorem lookUtf16_length {littleEndian : Bool} {c : Nat} {rest : Bytes} (h : lookUtf16 littleEndian b = .char c rest) :
    rest.length < b.length := by
  rcases b with _ | ⟨x, _ | ⟨y, _ | ⟨z, _ | ⟨t, r⟩⟩⟩⟩
  · cases h
  · cases h
  all_goals
    simp only [lookUtf16] at h
    split_ifs at h
    all_goals first
      | exact Look.noConfusion h
      | obtain ⟨-, rfl⟩ := Look.char.inj h
        simp only [List.length_cons]
        omega

theorem lookUtf16_append {littleEndian : Bool} (more : Bytes) (h : lookUtf16 littleEndian b ≠ .incomplete) :
    lookUtf16 littleEndian (b ++ more) = (lookUtf16 littleEndian b).append more := by
  rcases b with _ | ⟨x, _ | ⟨y, _ | ⟨z, _ | ⟨t, r⟩⟩⟩⟩
  · exact absurd rfl h
  · exact absurd rfl h
  all_goals
    simp only [lookUtf16, List.cons_append, List.nil_append] at h ⊢
    split_ifs at h ⊢
    all_goals first
      | rfl
      | exact absurd rfl h

end

def utf8Codec : Codec := ⟨lookUtf8, lookUtf8_length, lookUtf8_append⟩

def utf16Codec (littleEndian : Bool) : Codec := ⟨lookUtf16 littleEndian, lookUtf16_length, lookUtf16_append⟩

/-! ### Looking for a word -/

/-- The last characters. -/
def lastChars (n : Nat) (s : Str) : Str := s.drop (s.length - n)

theorem lastChars_append (n : Nat) (s t : Str) : lastChars n (lastChars n s ++ t) = lastChars n (s ++ t) := by
  simp only [lastChars, List.drop_append, List.length_append, List.length_drop, List.drop_drop]
  congr 2 <;> omega

/-- **A word that is not longer than the window by more than one is seen with the piece that completes it.** -/
theorem infix_append_window {word s t : Str} {n : Nat} (hword : word.length ≤ n + 1) :
    word <:+: s ++ t ↔ word <:+: s ∨ word <:+: lastChars n s ++ t := by
  constructor
  · rintro ⟨before, after, h⟩
    by_cases hcomplete : before.length + word.length ≤ s.length
    · -- the word ends in what went before
      refine .inl ⟨before, s.drop (before.length + word.length), ?_⟩
      have htake := congrArg (List.take (before.length + word.length)) h
      rw [List.take_append_of_le_length (by simp), List.take_of_length_le (by simp),
        List.take_append_of_le_length hcomplete] at htake
      rw [htake, List.take_append_drop]
    · -- the word begins in the window or after it
      have hlast : s.length - n ≤ before.length := by omega
      refine .inr ⟨before.drop (s.length - n), after, ?_⟩
      have hdrop := congrArg (List.drop (s.length - n)) h
      rw [List.append_assoc, List.drop_append_of_le_length hlast,
        List.drop_append_of_le_length (Nat.sub_le ..)] at hdrop
      rw [List.append_assoc]
      exact hdrop
  · rintro (h | h)
    · exact h.trans (List.prefix_append ..).isInfix
    · refine h.trans (List.IsSuffix.isInfix ⟨s.take (s.length - n), ?_⟩)
      rw [lastChars, ← List.append_assoc, List.take_append_drop]

end Lib
