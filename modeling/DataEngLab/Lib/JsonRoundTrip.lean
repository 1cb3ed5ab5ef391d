/-
Reading back what `json.dumps` prints when every character is escaped to ASCII.

`scanValue_print` is the theorem: a value that holds no float, no split surrogate pair and
no repeated key is read from its own text.  The escaping is what this file adds to
`scanValue_text`: a character's escape is read by `scanChar`, a literal by `scanString`,
and the text of a value under it is the printer's.
-/
import DataEngLab.Lib.JsonText

namespace Lib

/-! ### Characters and strings -/

theorem hexValue_hexDigit {d : Nat} (h : d < 16) : hexValue (hexDigit d) = some d := by
  have hall : ∀ e < 16, hexValue (hexDigit e) = some e := by decide
  exact hall d h

theorem scanUnit_escapeUnit {u : Nat} (h : u < 0x10000) (r : Str) :
    scanUnit ((escapeUnit u).drop 2 ++ r) = some (u, r) := by
  have hd : ∀ k : Nat, hexValue (hexDigit (k % 16)) = some (k % 16) :=
    fun k => hexValue_hexDigit (by omega)
  simp only [escapeUnit, List.drop_succ_cons, List.drop_zero, List.cons_append, List.nil_append,
    scanUnit, hd, Option.some.injEq, Prod.mk.injEq, and_true]
  omega

theorem escapeUnit_append (u : Nat) (r : Str) :
    escapeUnit u ++ r = 92 :: 117 :: ((escapeUnit u).drop 2 ++ r) := rfl

/-- What follows a high surrogate is not the escape of a low one. -/
def NoLow (u : Nat) (r : Str) : Prop := joinLow u r = .ok (u, r)

theorem scanChar_unit {u : Nat} (h : u < 0x10000) (r : Str)
    (hlow : isHighSurrogate u = true → NoLow u r) : scanChar (escapeUnit u ++ r) = .ok (u, r) := by
  rw [escapeUnit_append]
  simp only [scanChar, if_true, scanUnit_escapeUnit h]
  by_cases hu : isHighSurrogate u = true
  · rw [if_pos hu]
    exact hlow hu
  · rw [if_neg hu]

theorem scanChar_astral {c : Nat} (hlo : 0x10000 ≤ c) (hhi : c < 0x110000) (r : Str) :
    scanChar (escapeUnit (0xD800 + (c - 0x10000) / 1024) ++
      escapeUnit (0xDC00 + (c - 0x10000) % 1024) ++ r) = .ok (c, r) := by
  have hhigh : isHighSurrogate (0xD800 + (c - 0x10000) / 1024) = true := by
    simp only [isHighSurrogate, Bool.and_eq_true, decide_eq_true_eq]; omega
  have hlow : isLowSurrogate (0xDC00 + (c - 0x10000) % 1024) = true := by
    simp only [isLowSurrogate, Bool.and_eq_true, decide_eq_true_eq]; omega
  rw [List.append_assoc, escapeUnit_append]
  simp only [scanChar, if_true]
  rw [scanUnit_escapeUnit (by omega)]
  simp only [hhigh, if_true]
  rw [escapeUnit_append]
  simp only [joinLow]
  rw [scanUnit_escapeUnit (by omega)]
  simp only [hlow, if_true]
  refine congrArg (fun x => Except.ok (x, r)) ?_
  omega

/-- A character that is escaped as itself or by a letter is read back from its escape. -/
theorem scanChar_escape {c : Nat} (hc : c < 0x110000) (r : Str)
    (hlow : isHighSurrogate c = true → NoLow c r) : scanChar (escapeChar c ++ r) = .ok (c, r) := by
  unfold escapeChar
  split
  · subst_vars; rfl
  split
  · subst_vars; rfl
  split
  · subst_vars; rfl
  split
  · subst_vars; rfl
  split
  · subst_vars; rfl
  split
  · subst_vars; rfl
  split
  · subst_vars; rfl
  split
  · rename_i h34 h92 _ _ _ _ _ hprint
    simp only [List.cons_append, List.nil_append]
    rw [scanChar.eq_def]
    split
    · simp_all
    · simp_all
    · simp_all
    · rename_i heq
      simp only [List.cons.injEq] at heq
      obtain ⟨rfl, rfl⟩ := heq
      rw [if_neg (by omega)]
  split
  · exact scanChar_unit (by assumption) r hlow
  · exact scanChar_astral (by omega) hc r

theorem escapeChar_head (c : Nat) : ∃ d t, escapeChar c = d :: t ∧ d ≠ 34 := by
  unfold escapeChar
  split
  · exact ⟨_, _, rfl, by decide⟩
  split
  · exact ⟨_, _, rfl, by decide⟩
  split
  · exact ⟨_, _, rfl, by decide⟩
  split
  · exact ⟨_, _, rfl, by decide⟩
  split
  · exact ⟨_, _, rfl, by decide⟩
  split
  · exact ⟨_, _, rfl, by decide⟩
  split
  · exact ⟨_, _, rfl, by decide⟩
  split
  · exact ⟨_, _, rfl, by assumption⟩
  split
  · exact ⟨_, _, rfl, by decide⟩
  · exact ⟨_, _, rfl, by decide⟩

theorem noLow_quote (u : Nat) (r : Str) : NoLow u (34 :: r) := rfl

theorem noLow_escape (u : Nat) {d : Nat} (hd : d < 0x110000) (hnot : isLowSurrogate d = false)
    (r : Str) : NoLow u (escapeChar d ++ r) := by
  unfold NoLow escapeChar
  split
  · rfl
  split
  · rfl
  split
  · rfl
  split
  · rfl
  split
  · rfl
  split
  · rfl
  split
  · rfl
  split
  · rename_i h92 _ _ _ _ _ _
    simp only [List.cons_append, List.nil_append, joinLow]
    split
    · simp_all
    · rfl
  split
  · rw [escapeUnit_append]
    simp only [joinLow]
    rw [scanUnit_escapeUnit (by assumption)]
    simp [hnot]
  · rw [List.append_assoc, escapeUnit_append]
    simp only [joinLow]
    rw [scanUnit_escapeUnit (by omega)]
    have hhigh : isLowSurrogate (0xD800 + (d - 0x10000) / 1024) = false := by
      simp only [isLowSurrogate, Bool.and_eq_false_iff, decide_eq_false_iff_not]; omega
    simp [hhigh]

theorem scanString_of_ne {d : Nat} (hne : d ≠ 34) (n : Nat) (t : Str) :
    scanString (n + 1) (d :: t) =
      match scanChar (d :: t) with
      | .error e => .error e
      | .ok (c, r) =>
          match scanString n r with
          | .error e => .error e
          | .ok (cs, r') => .ok (c :: cs, r') := by
  conv_lhs => unfold scanString
  split
  · rename_i r heq
    exact absurd (List.cons.inj heq).1 hne
  · rfl

theorem scanString_escape : ∀ (s : Str) (fuel : Nat) (r : Str), Str.Joined s → s.length < fuel →
    scanString fuel (s.flatMap escapeChar ++ 34 :: r) = .ok (s, r) := by
  intro s
  induction s with
  | nil =>
      intro fuel r _ hf
      cases fuel with
      | zero => simp at hf
      | succ n => rfl
  | cons c rest ih =>
      intro fuel r hj hf
      cases fuel with
      | zero => simp at hf
      | succ n =>
          obtain ⟨d, t, hd, hne⟩ := escapeChar_head c
          have hlow : isHighSurrogate c = true →
              NoLow c (rest.flatMap escapeChar ++ 34 :: r) := by
            intro hhigh
            cases rest with
            | nil => exact noLow_quote c r
            | cons e rest' =>
                rw [List.flatMap_cons, List.append_assoc]
                refine noLow_escape c hj.tail.head ?_ _
                rcases hb : isLowSurrogate e with _ | _
                · rfl
                · exact absurd ⟨hhigh, hb⟩ hj.2.1
          have hscan := scanChar_escape hj.head (rest.flatMap escapeChar ++ 34 :: r) hlow
          rw [List.flatMap_cons, List.append_assoc]
          rw [hd] at hscan ⊢
          rw [List.cons_append] at hscan ⊢
          rw [scanString_of_ne hne, hscan]
          simp only
          rw [ih n r hj.tail (by simpa using hf)]
/-- `json.dumps` with `ensure_ascii`: everything outside printable ASCII is escaped. -/
def asciiEscaping : Escaping where
  char := escapeChar
  head := escapeChar_head

theorem reads_of_joined {s : Str} (hj : Str.Joined s) : Reads asciiEscaping s :=
  fun fuel r hf => scanString_escape s fuel r hj hf

/-! ### What a value looks like -/

mutual
/-- A value the reader gives back: no floats, joined strings, distinct keys. -/
def Json.Plain : Json → Prop
  | .float _ => False
  | .str s => Str.Joined s
  | .arr xs => PlainElems xs
  | .obj kvs => (kvs.map Prod.fst).Nodup ∧ PlainMembers kvs
  | _ => True

def PlainElems : List Json → Prop
  | [] => True
  | x :: xs => x.Plain ∧ PlainElems xs

def PlainMembers : List (Str × Json) → Prop
  | [] => True
  | (k, v) :: kvs => Str.Joined k ∧ v.Plain ∧ PlainMembers kvs
end

@[simp] theorem plainElems_iff {xs : List Json} : PlainElems xs ↔ ∀ x ∈ xs, x.Plain := by
  induction xs with
  | nil => simp [PlainElems]
  | cons x xs ih => simp [PlainElems, ih]

@[simp] theorem plainMembers_iff {kvs : List (Str × Json)} :
    PlainMembers kvs ↔ ∀ kv ∈ kvs, Str.Joined kv.1 ∧ kv.2.Plain := by
  induction kvs with
  | nil => simp [PlainMembers]
  | cons kv kvs ih => simp [PlainMembers, ih, and_assoc]

mutual
theorem Json.Plain.reads (hooks : Hooks) : ∀ {v : Json}, v.Plain → v.ReadsIn asciiEscaping hooks
  | .null, _ => trivial
  | .bool _, _ => trivial
  | .int _, _ => trivial
  | .float _, h => h.elim
  | .str _, h => reads_of_joined h
  | .arr _, h => PlainElems.reads hooks h
  | .obj _, h => ⟨h.1, PlainMembers.reads hooks h.2⟩

theorem PlainElems.reads (hooks : Hooks) :
    ∀ {xs : List Json}, PlainElems xs → ReadsElems asciiEscaping hooks xs
  | [], _ => trivial
  | _ :: _, h => ⟨Json.Plain.reads hooks h.1, PlainElems.reads hooks h.2⟩

theorem PlainMembers.reads (hooks : Hooks) : ∀ {kvs : List (Str × Json)}, PlainMembers kvs →
    ReadsMembers asciiEscaping hooks kvs
  | [], _ => trivial
  | _ :: _, h => ⟨reads_of_joined h.1, Json.Plain.reads hooks h.2.1, PlainMembers.reads hooks h.2.2⟩
end

/-! ### The printer's text -/

mutual
theorem print_eq_text : ∀ v : Json, v.print = v.text asciiEscaping
  | .null => rfl
  | .bool true => rfl
  | .bool false => rfl
  | .int _ => by rw [Json.print, Json.text]
  | .float _ => by rw [Json.print, Json.text]
  | .str _ => by rw [Json.print, Json.text]; rfl
  | .arr [] => rfl
  | .arr (x :: xs) => by rw [Json.print, Json.text, print_eq_text x, printElems_eq_text xs]
  | .obj [] => rfl
  | .obj ((k, v) :: kvs) => by
      rw [Json.print, Json.text, print_eq_text v, printMembers_eq_text kvs]
      rfl

theorem printElems_eq_text : ∀ xs : List Json, printElems xs = textElems asciiEscaping xs
  | [] => rfl
  | x :: xs => by rw [printElems, textElems, print_eq_text x, printElems_eq_text xs]

theorem printMembers_eq_text : ∀ kvs : List (Str × Json),
    printMembers kvs = textMembers asciiEscaping kvs
  | [] => rfl
  | (k, v) :: kvs => by
      rw [printMembers, textMembers, print_eq_text v, printMembers_eq_text kvs]
      rfl
end

theorem print_head {v : Json} (h : v.Plain) : ∃ c t, v.print = c :: t ∧ StartsValue c := by
  rw [print_eq_text]
  exact text_head (h.reads Hooks.plain)

theorem skipWs_print {v : Json} (h : v.Plain) (r : Str) : skipWs (v.print ++ r) = v.print ++ r := by
  rw [print_eq_text]
  exact skipWs_text (h.reads Hooks.plain) r

/-- **A printed value is read back.** -/
theorem scanValue_print (h : Hooks) (depth : Nat) (v : Json) (r : Str) (hp : v.Plain)
    (hf : v.intsFit = true) (hn : v.nesting ≤ depth) (hr : NumberEnds r) :
    scanValue h depth (v.print ++ r) = .ok (v, r) := by
  rw [print_eq_text]
  exact scanValue_text h depth v r (hp.reads h) hf hn hr

end Lib
