/-
Texts of JSON values, under any escaping of their strings.

`Json.text` prints a value compactly; how a character stands inside a string literal is
the argument, since `json.dumps` has two ways of doing it.  `scanValue_text` is the
theorem: a value is read from its own text if the reader reads its strings from theirs.
The reader's limits enter as hypotheses: the integers fit, and the nesting stays under the
limit.

The proof follows the printer.  What may follow a value in its text is never a character
that would extend a number, which is all the number case needs of it.
-/
import DataEngLab.Lib.Json

namespace Lib

/-! ### Escaping -/

/-- How a character stands inside a string literal: never as something that starts with the closing
quote. -/
structure Escaping where
  char : Nat → Str
  head : ∀ c, ∃ d t, char c = d :: t ∧ d ≠ 34

/-- The reader reads the string from its literal, given enough fuel. -/
def Reads (E : Escaping) (s : Str) : Prop :=
  ∀ (fuel : Nat) (r : Str), s.length < fuel → scanString fuel (s.flatMap E.char ++ 34 :: r) = .ok (s, r)

section
variable (E : Escaping)

def quote (s : Str) : Str := 34 :: s.flatMap E.char ++ [34]

mutual
/-- The compact text of a value, members in the order they are listed. -/
def Json.text : Json → Str
  | .null => lit "null"
  | .bool true => lit "true"
  | .bool false => lit "false"
  | .int n => printInt n
  | .float text => text
  | .str s => quote E s
  | .arr [] => [91, 93]
  | .arr (x :: xs) => 91 :: Json.text x ++ textElems xs
  | .obj [] => [123, 125]
  | .obj ((k, v) :: kvs) => 123 :: quote E k ++ 58 :: Json.text v ++ textMembers kvs

/-- The elements after the first, and the closing bracket. -/
def textElems : List Json → Str
  | [] => [93]
  | x :: xs => 44 :: Json.text x ++ textElems xs

/-- The members after the first, and the closing brace. -/
def textMembers : List (Str × Json) → Str
  | [] => [125]
  | (k, v) :: kvs => 44 :: quote E k ++ 58 :: Json.text v ++ textMembers kvs
end

example (x y : Json) : (Json.arr [x, .obj [([], y)]]).text E =
    91 :: x.text E ++ 44 :: 123 :: 34 :: 34 :: 58 :: y.text E ++ [125, 93] := by
  simp [Json.text, textElems, textMembers, quote]

theorem length_le_flatMap (s : Str) : s.length ≤ (s.flatMap E.char).length := by
  induction s with
  | nil => simp
  | cons c rest ih =>
      obtain ⟨d, t, hd, -⟩ := E.head c
      rw [List.flatMap_cons, List.length_append, hd]
      simp only [List.length_cons]
      omega

end

/-- The scanner's own fuel, the text that is left, is enough for a literal. -/
theorem scanString_quote {E : Escaping} (s r : Str) (hj : Reads E s) :
    scanString ((s.flatMap E.char ++ [34] ++ r).length + 1)
      (s.flatMap E.char ++ [34] ++ r) = .ok (s, r) := by
  have hlen := length_le_flatMap E s
  rw [List.append_assoc]
  refine hj _ r ?_
  simp only [List.length_append, List.length_cons]
  omega

/-! ### Numbers -/

/-- `r` cannot extend a number that ends where `r` starts. -/
def NumberEnds : Str → Prop
  | [] => True
  | c :: _ => isDigit c = false ∧ c ≠ 46 ∧ c ≠ 101 ∧ c ≠ 69

theorem NumberEnds.fraction {r : Str} (h : NumberEnds r) : scanFraction r = ([], r) := by
  cases r with
  | nil => rfl
  | cons c r =>
      obtain ⟨-, hdot, -, -⟩ := h
      unfold scanFraction
      split
      · simp_all
      · rfl

theorem NumberEnds.exponent {r : Str} (h : NumberEnds r) : scanExponent r = ([], r) := by
  cases r with
  | nil => rfl
  | cons c r =>
      obtain ⟨-, -, he, hE⟩ := h
      simp only [scanExponent]
      rw [if_neg (by rintro (hc | hc) <;> contradiction)]

theorem finishNumber_int {neg : Bool} {ds r : Str} (h : NumberEnds r)
    (hlen : ds.length ≤ intDigitLimit) :
    finishNumber neg ds r = .ok (.int (if neg then -(digitsValue ds : Int) else digitsValue ds), r) := by
  simp only [finishNumber, h.fraction, h.exponent, List.isEmpty_nil, Bool.and_self, if_true,
    if_pos hlen]

theorem takeWhile_digits {ds r : Str} (hds : ∀ c ∈ ds, isDigit c = true) (h : NumberEnds r) :
    (ds ++ r).takeWhile isDigit = ds ∧ (ds ++ r).dropWhile isDigit = r := by
  have hr : r.takeWhile isDigit = [] ∧ r.dropWhile isDigit = r := by
    cases r with
    | nil => exact ⟨rfl, rfl⟩
    | cons c r => exact ⟨by simp [h.1], by simp [h.1]⟩
  constructor
  · rw [List.takeWhile_append_of_pos hds, hr.1, List.append_nil]
  · rw [List.dropWhile_append_of_pos hds, hr.2]

theorem scanNatural_decDigits (neg : Bool) {n : Nat} {r : Str} (h : NumberEnds r)
    (hfit : (decDigits n).length ≤ intDigitLimit) :
    scanNatural neg (decDigits n ++ r) = .ok (.int (if neg then -(n : Int) else n), r) := by
  rcases decDigits_head n with h0 | ⟨d, rest, hd, hdig, hne⟩
  · have hn : n = 0 := by
      have := digitsValue_decDigits n
      rw [h0] at this
      simpa [digitsValue] using this.symm
    subst hn
    rw [h0]
    simp only [List.cons_append, List.nil_append, scanNatural, if_true]
    rw [finishNumber_int h (by decide)]
    simp [digitsValue]
  · have hspan := takeWhile_digits (decDigits_digits n) h
    rw [hd] at hspan hfit ⊢
    rw [List.cons_append] at hspan ⊢
    simp only [scanNatural, if_neg hne, hdig, if_true]
    rw [hspan.1, hspan.2, finishNumber_int h hfit, ← hd, digitsValue_decDigits]

/-! ### What a value looks like -/

/-- A character that can start a value, and none of the reader's punctuation. -/
def StartsValue (c : Nat) : Prop :=
  c = 34 ∨ c = 45 ∨ isDigit c = true ∨ c = 73 ∨ c = 78 ∨ c = 91 ∨ c = 123 ∨ c = 110 ∨ c = 116 ∨ c = 102

/-- A text that the reader takes for a float. -/
structure ReadsFloat (h : Hooks) (text : Str) : Prop where
  head : ∃ c t, text = c :: t ∧ StartsValue c ∧ c ≠ 91 ∧ c ≠ 123
  scan : ∀ r, NumberEnds r → scanScalar h (text ++ r) = .ok (.float text, r)

mutual
/-- A value the reader gives back: floats and strings it reads, distinct keys. -/
def Json.ReadsIn (E : Escaping) (h : Hooks) : Json → Prop
  | .float text => ReadsFloat h text
  | .str s => Reads E s
  | .arr xs => ReadsElems E h xs
  | .obj kvs => (kvs.map Prod.fst).Nodup ∧ ReadsMembers E h kvs
  | _ => True

def ReadsElems (E : Escaping) (h : Hooks) : List Json → Prop
  | [] => True
  | x :: xs => x.ReadsIn E h ∧ ReadsElems E h xs

def ReadsMembers (E : Escaping) (h : Hooks) : List (Str × Json) → Prop
  | [] => True
  | (k, v) :: kvs => Reads E k ∧ v.ReadsIn E h ∧ ReadsMembers E h kvs
end

mutual
/-- How deep containers are nested, an empty one included. -/
def Json.nesting : Json → Nat
  | .arr xs => nestingElems xs + 1
  | .obj kvs => nestingMembers kvs + 1
  | _ => 0

def nestingElems : List Json → Nat
  | [] => 0
  | x :: xs => max x.nesting (nestingElems xs)

def nestingMembers : List (Str × Json) → Nat
  | [] => 0
  | (_, v) :: kvs => max v.nesting (nestingMembers kvs)
end

section
variable {E : Escaping} {h : Hooks}

@[simp] theorem readsElems_iff {xs : List Json} : ReadsElems E h xs ↔ ∀ x ∈ xs, x.ReadsIn E h := by
  induction xs with
  | nil => simp [ReadsElems]
  | cons x xs ih => simp [ReadsElems, ih]

@[simp] theorem readsMembers_iff {kvs : List (Str × Json)} :
    ReadsMembers E h kvs ↔ ∀ kv ∈ kvs, Reads E kv.1 ∧ kv.2.ReadsIn E h := by
  induction kvs with
  | nil => simp [ReadsMembers]
  | cons kv kvs ih => simp [ReadsMembers, ih, and_assoc]

@[simp] theorem elemsFit_iff {xs : List Json} :
    elemsFit xs = true ↔ ∀ x ∈ xs, x.intsFit = true := by
  induction xs with
  | nil => simp [elemsFit]
  | cons x xs ih => simp [elemsFit, ih]

@[simp] theorem membersFit_iff {kvs : List (Str × Json)} :
    membersFit kvs = true ↔ ∀ kv ∈ kvs, kv.2.intsFit = true := by
  induction kvs with
  | nil => simp [membersFit]
  | cons kv kvs ih => simp [membersFit, ih]

@[simp] theorem nestingElems_le {xs : List Json} {d : Nat} :
    nestingElems xs ≤ d ↔ ∀ x ∈ xs, x.nesting ≤ d := by
  induction xs with
  | nil => simp [nestingElems]
  | cons x xs ih => simp [nestingElems, ih]

@[simp] theorem nestingMembers_le {kvs : List (Str × Json)} {d : Nat} :
    nestingMembers kvs ≤ d ↔ ∀ kv ∈ kvs, kv.2.nesting ≤ d := by
  induction kvs with
  | nil => simp [nestingMembers]
  | cons kv kvs ih => simp [nestingMembers, ih]

theorem StartsValue.ne {c : Nat} (h : StartsValue c) :
    isSpace c = false ∧ c ≠ 93 ∧ c ≠ 125 ∧ c ≠ 0xFEFF := by
  have hspace : isSpace c = false ↔ ¬ (c = 32 ∨ c = 9 ∨ c = 10 ∨ c = 13) := by
    simp [isSpace]
    tauto
  simp only [StartsValue, isDigit, Bool.and_eq_true, decide_eq_true_eq] at h
  rw [hspace]
  omega

theorem printInt_head (n : Int) : ∃ c t, printInt n = c :: t ∧ (c = 45 ∨ isDigit c = true) := by
  unfold printInt
  split
  · exact ⟨45, _, rfl, Or.inl rfl⟩
  · rcases decDigits_head n.natAbs with h | ⟨d, rest, h, hd, -⟩
    · exact ⟨48, [], h, Or.inr (by decide)⟩
    · exact ⟨d, rest, h, Or.inr hd⟩

theorem text_head {v : Json} (hv : v.ReadsIn E h) : ∃ c t, v.text E = c :: t ∧ StartsValue c := by
  cases v with
  | null => exact ⟨110, _, rfl, by simp [StartsValue]⟩
  | bool b =>
      cases b with
      | true => exact ⟨116, [114, 117, 101], rfl, by simp [StartsValue]⟩
      | false => exact ⟨102, [97, 108, 115, 101], rfl, by simp [StartsValue]⟩
  | int n =>
      obtain ⟨c, t, hc, hs⟩ := printInt_head n
      refine ⟨c, t, by rw [Json.text]; exact hc, ?_⟩
      rcases hs with rfl | hs
      · simp [StartsValue]
      · exact Or.inr (Or.inr (Or.inl hs))
  | float text =>
      obtain ⟨c, t, hc, hs, -⟩ := ReadsFloat.head hv
      exact ⟨c, t, by rw [Json.text]; exact hc, hs⟩
  | str s => exact ⟨34, _, by rw [Json.text]; rfl, by simp [StartsValue]⟩
  | arr xs =>
      cases xs with
      | nil => exact ⟨91, _, by rw [Json.text], by simp [StartsValue]⟩
      | cons x xs => exact ⟨91, _, by rw [Json.text]; rfl, by simp [StartsValue]⟩
  | obj kvs =>
      cases kvs with
      | nil => exact ⟨123, _, by rw [Json.text], by simp [StartsValue]⟩
      | cons kv kvs =>
          obtain ⟨k, v⟩ := kv
          exact ⟨123, _, by rw [Json.text]; rfl, by simp [StartsValue]⟩

theorem skipWs_text {v : Json} (hv : v.ReadsIn E h) (r : Str) : skipWs (v.text E ++ r) = v.text E ++ r := by
  obtain ⟨c, t, hc, hs⟩ := text_head hv
  rw [hc, List.cons_append, skipWs, List.dropWhile_cons_of_neg]
  simp [hs.ne.1]

@[simp] theorem skipWs_of_not_space {c : Nat} {r : Str} (h : isSpace c = false) :
    skipWs (c :: r) = c :: r := by
  rw [skipWs, List.dropWhile_cons_of_neg]
  simp [h]

/-! ### Dictionaries -/

theorem dictInsert_absent {k : Str} {v : Json} : ∀ {d : List (Str × Json)},
    k ∉ d.map Prod.fst → dictInsert k v d = d ++ [(k, v)] := by
  intro d
  induction d with
  | nil => intro _; rfl
  | cons kv rest ih =>
      intro h
      obtain ⟨k', v'⟩ := kv
      simp only [List.map_cons, List.mem_cons, not_or] at h
      rw [dictInsert, if_neg (fun hc => h.1 hc.symm), ih h.2, List.cons_append]

theorem foldl_dictInsert : ∀ (kvs d : List (Str × Json)),
    (d.map Prod.fst ++ kvs.map Prod.fst).Nodup →
    kvs.foldl (fun d p => dictInsert p.1 p.2 d) d = d ++ kvs := by
  intro kvs
  induction kvs with
  | nil => intro d _; simp
  | cons kv rest ih =>
      intro d h
      have hk : kv.1 ∉ d.map Prod.fst := by
        intro hc
        exact (List.nodup_append.mp h).2.2 _ hc _ (by simp) rfl
      rw [List.foldl_cons, dictInsert_absent hk, ih]
      · simp
      · simpa using h

theorem makeDict_nodup (h : Hooks) {kvs : List (Str × Json)} (hn : (kvs.map Prod.fst).Nodup) :
    makeDict h kvs = .ok (.obj kvs) := by
  unfold makeDict
  rw [if_neg (by simp [hn]), foldl_dictInsert kvs [] (by simpa using hn)]
  rfl

/-! ### Scalars -/

/-- A number is scanned as one, with its sign or without. -/
theorem scanScalar_digit (h : Hooks) {c : Nat} {t : Str} (hc : isDigit c = true) :
    scanScalar h (c :: t) = scanNatural false (c :: t) ∧ scanScalar h (45 :: c :: t) = scanNatural true (c :: t) := by
  simp only [isDigit, Bool.and_eq_true, decide_eq_true_eq] at hc
  constructor
  · unfold scanScalar
    split <;> simp_all
  · unfold scanScalar
    split <;> simp_all

theorem scanScalar_printInt (h : Hooks) {n : Int} {r : Str} (hr : NumberEnds r)
    (hfit : intFits n = true) : scanScalar h (printInt n ++ r) = .ok (.int n, r) := by
  have hlen : (decDigits n.natAbs).length ≤ intDigitLimit := by simpa [intFits] using hfit
  obtain ⟨d, t, hd, hdig⟩ : ∃ d t, decDigits n.natAbs = d :: t ∧ isDigit d = true := by
    rcases decDigits_head n.natAbs with h0 | ⟨d, rest, hd, hdig, -⟩
    · exact ⟨48, [], h0, by decide⟩
    · exact ⟨d, rest, hd, hdig⟩
  unfold printInt
  split
  · rename_i hneg
    have hscan := scanNatural_decDigits true hr hlen
    rw [hd, List.cons_append] at hscan
    rw [hd, List.cons_append, List.cons_append, (scanScalar_digit h hdig).2, hscan]
    refine congrArg (fun x => Except.ok (Json.int x, r)) ?_
    rw [if_pos rfl]
    omega
  · have hscan := scanNatural_decDigits false hr hlen
    rw [hd, List.cons_append] at hscan
    rw [hd, List.cons_append, (scanScalar_digit h hdig).1, hscan]
    refine congrArg (fun x => Except.ok (Json.int x, r)) ?_
    rw [if_neg (by simp)]
    omega

theorem scanScalar_quote (h : Hooks) {s : Str} (r : Str) (hj : Reads E s) :
    scanScalar h (quote E s ++ r) = .ok (.str s, r) := by
  have hscan := scanString_quote s r hj
  have htext : quote E s ++ r = 34 :: (s.flatMap E.char ++ [34] ++ r) := rfl
  rw [htext]
  simp only [scanScalar, hscan]

/-! ### Values -/

theorem scanValue_scalar (h : Hooks) (depth : Nat) {c : Nat} {t : Str} (h1 : c ≠ 91) (h2 : c ≠ 123) :
    scanValue h depth (c :: t) = scanScalar h (c :: t) := by
  rw [scanValue.eq_def]
  simp only
  split
  · simp_all
  · simp_all
  · rfl

theorem scanValue_array (h : Hooks) (d : Nat) {c : Nat} {t : Str} (hs : isSpace c = false)
    (hc : c ≠ 93) : scanValue h (d + 1) (91 :: c :: t) =
      match scanElems (scanValue h d) ((c :: t).length + 1) (c :: t) with
      | .error e => .error e
      | .ok (vs, r) => .ok (.arr vs, r) := by
  rw [scanValue.eq_def]
  simp only [skipWs_of_not_space hs]
  split
  · rename_i heq
    simp only [List.cons.injEq] at heq
    exact absurd heq.1 hc
  · rfl

theorem scanValue_object (h : Hooks) (d : Nat) {c : Nat} {t : Str} (hs : isSpace c = false)
    (hc : c ≠ 125) : scanValue h (d + 1) (123 :: c :: t) =
      match scanMembers (scanValue h d) ((c :: t).length + 1) (c :: t) with
      | .error e => .error e
      | .ok (kvs, r) =>
          match makeDict h kvs with
          | .error e => .error e
          | .ok v => .ok (v, r) := by
  rw [scanValue.eq_def]
  simp only [skipWs_of_not_space hs]
  split
  · rename_i heq
    simp only [List.cons.injEq] at heq
    exact absurd heq.1 hc
  · rfl

theorem text_arr_append (x : Json) (xs : List Json) (r : Str) :
    (Json.arr (x :: xs)).text E ++ r = 91 :: (x.text E ++ (textElems E xs ++ r)) := by
  simp only [Json.text, List.cons_append, List.append_assoc]

/-- The members of an object from its first key on. -/
theorem text_obj_append (k : Str) (v : Json) (kvs : List (Str × Json)) (r : Str) :
    (Json.obj ((k, v) :: kvs)).text E ++ r =
      123 :: (quote E k ++ 58 :: (v.text E ++ (textMembers E kvs ++ r))) := by
  simp only [Json.text, List.cons_append, List.append_assoc]

theorem quote_append (k r : Str) :
    quote E k ++ r = 34 :: (k.flatMap E.char ++ [34] ++ r) := rfl

theorem numberEnds_comma (r : Str) : NumberEnds (44 :: r) := ⟨rfl, by decide, by decide, by decide⟩
theorem numberEnds_bracket (r : Str) : NumberEnds (93 :: r) := ⟨rfl, by decide, by decide, by decide⟩
theorem numberEnds_brace (r : Str) : NumberEnds (125 :: r) := ⟨rfl, by decide, by decide, by decide⟩

theorem numberEnds_textElems (xs : List Json) (r : Str) : NumberEnds (textElems E xs ++ r) := by
  cases xs with
  | nil => exact numberEnds_bracket r
  | cons x xs => exact numberEnds_comma _

theorem numberEnds_textMembers (kvs : List (Str × Json)) (r : Str) :
    NumberEnds (textMembers E kvs ++ r) := by
  cases kvs with
  | nil => exact numberEnds_brace r
  | cons kv kvs =>
      obtain ⟨k, v⟩ := kv
      exact numberEnds_comma _

theorem length_le_textElems (xs : List Json) : xs.length < (textElems E xs).length := by
  induction xs with
  | nil => simp [textElems]
  | cons x xs ih =>
      rw [textElems]
      simp only [List.length_cons, List.length_append]
      omega

theorem length_le_textMembers (kvs : List (Str × Json)) :
    kvs.length < (textMembers E kvs).length := by
  induction kvs with
  | nil => simp [textMembers]
  | cons kv kvs ih =>
      obtain ⟨k, v⟩ := kv
      rw [textMembers]
      simp only [List.length_cons, List.length_append]
      omega

/-- `value` reads back every value of `xs` that is followed by no continuation of a number. -/
def ReadsBack (E : Escaping) (h : Hooks) (value : Str → Except LoadsError (Json × Str)) (v : Json) : Prop :=
  v.ReadsIn E h ∧ ∀ r, NumberEnds r → value (v.text E ++ r) = .ok (v, r)

theorem scanElems_text {value : Str → Except LoadsError (Json × Str)} : ∀ (xs : List Json)
    (x : Json) (fuel : Nat) (r : Str), (∀ v ∈ x :: xs, ReadsBack E h value v) → xs.length < fuel →
    scanElems value fuel (x.text E ++ (textElems E xs ++ r)) = .ok (x :: xs, r) := by
  intro xs
  induction xs with
  | nil =>
      intro x fuel r hv hfuel
      cases fuel with
      | zero => simp at hfuel
      | succ n =>
          rw [scanElems, (hv x (by simp)).2 _ (numberEnds_textElems [] r)]
          rfl
  | cons y ys ih =>
      intro x fuel r hv hfuel
      cases fuel with
      | zero => simp at hfuel
      | succ n =>
          have hrest := ih y n r (fun v hvm => hv v (List.mem_cons_of_mem x hvm))
            (by simpa using hfuel)
          rw [scanElems, (hv x (by simp)).2 _ (numberEnds_textElems (y :: ys) r), textElems]
          simp only [List.cons_append, List.append_assoc,
            skipWs_of_not_space (show isSpace 44 = false from rfl)]
          rw [skipWs_text (hv y (by simp)).1, hrest]

theorem scanMembers_text {value : Str → Except LoadsError (Json × Str)} :
    ∀ (kvs : List (Str × Json)) (k : Str) (v : Json) (fuel : Nat) (r : Str),
    (∀ kv ∈ (k, v) :: kvs, Reads E kv.1 ∧ ReadsBack E h value kv.2) → kvs.length < fuel →
    scanMembers value fuel (quote E k ++ 58 :: (v.text E ++ (textMembers E kvs ++ r)))
      = .ok ((k, v) :: kvs, r) := by
  intro kvs
  induction kvs with
  | nil =>
      intro k v fuel r hv hfuel
      cases fuel with
      | zero => simp at hfuel
      | succ n =>
          obtain ⟨hk, hplain, hback⟩ := hv (k, v) (by simp)
          have hscan := scanString_quote k (58 :: (v.text E ++ (textMembers E [] ++ r))) hk
          rw [quote_append, scanMembers]
          simp only [hscan, skipWs_of_not_space (show isSpace 58 = false from rfl)]
          rw [skipWs_text hplain, hback _ (numberEnds_textMembers [] r)]
          rfl
  | cons kv kvs ih =>
      intro k v fuel r hv hfuel
      obtain ⟨k', v'⟩ := kv
      cases fuel with
      | zero => simp at hfuel
      | succ n =>
          obtain ⟨hk, hplain, hback⟩ := hv (k, v) (by simp)
          have hrest := ih k' v' n r (fun kv hkv => hv kv (List.mem_cons_of_mem _ hkv))
            (by simpa using hfuel)
          have hscan := scanString_quote k
            (58 :: (v.text E ++ (textMembers E ((k', v') :: kvs) ++ r))) hk
          rw [quote_append, scanMembers]
          simp only [hscan, skipWs_of_not_space (show isSpace 58 = false from rfl)]
          rw [skipWs_text hplain, hback _ (numberEnds_textMembers ((k', v') :: kvs) r),
            textMembers]
          simp only [List.cons_append, List.append_assoc,
            skipWs_of_not_space (show isSpace 44 = false from rfl)]
          rw [quote_append] at hrest ⊢
          rw [skipWs_of_not_space (show isSpace 34 = false from rfl), hrest]

theorem scanValue_atom (h : Hooks) (depth : Nat) {v : Json} (hp : v.ReadsIn E h) (hf : v.intsFit = true)
    (ha : v.nesting = 0) {r : Str} (hr : NumberEnds r) :
    scanValue h depth (v.text E ++ r) = .ok (v, r) := by
  cases v with
  | null =>
      rw [show (Json.null).text E ++ r = 110 :: 117 :: 108 :: 108 :: r from rfl,
        scanValue_scalar h depth (by decide) (by decide)]
      rfl
  | bool b =>
      cases b with
      | true =>
          rw [show (Json.bool true).text E ++ r = 116 :: 114 :: 117 :: 101 :: r from rfl,
            scanValue_scalar h depth (by decide) (by decide)]
          rfl
      | false =>
          rw [show (Json.bool false).text E ++ r = 102 :: 97 :: 108 :: 115 :: 101 :: r from rfl,
            scanValue_scalar h depth (by decide) (by decide)]
          rfl
  | int n =>
      obtain ⟨c, t, hc, hs⟩ := printInt_head n
      have hne : c ≠ 91 ∧ c ≠ 123 := by
        simp only [isDigit, Bool.and_eq_true, decide_eq_true_eq] at hs
        omega
      have hscan := scanScalar_printInt h hr (n := n) (by simpa [Json.intsFit] using hf)
      rw [Json.text, hc, List.cons_append]
      rw [hc, List.cons_append] at hscan
      rw [scanValue_scalar h depth hne.1 hne.2, hscan]
  | float text =>
      obtain ⟨c, t, hc, -, h1, h2⟩ := ReadsFloat.head hp
      have hscan := ReadsFloat.scan hp r hr
      rw [Json.text]
      rw [hc, List.cons_append] at hscan ⊢
      rw [scanValue_scalar h depth h1 h2, hscan]
  | str s =>
      have hscan := scanScalar_quote h r (s := s) (by simpa [Json.ReadsIn] using hp)
      rw [Json.text, quote_append] at *
      rw [scanValue_scalar h depth (by decide) (by decide), hscan]
  | arr xs => simp [Json.nesting] at ha
  | obj kvs => simp [Json.nesting] at ha

/-- **A value is read back from its own text.**  The induction is on the levels of nesting
left: the elements of a container are read with one level less. -/
theorem scanValue_text (h : Hooks) : ∀ (depth : Nat) (v : Json) (r : Str), v.ReadsIn E h →
    v.intsFit = true → v.nesting ≤ depth → NumberEnds r →
    scanValue h depth (v.text E ++ r) = .ok (v, r) := by
  intro depth
  induction depth with
  | zero => intro v r hp hf hn hr; exact scanValue_atom h 0 hp hf (by omega) hr
  | succ d ih =>
      intro v r hp hf hn hr
      by_cases ha : v.nesting = 0
      · exact scanValue_atom h _ hp hf ha hr
      cases v with
      | arr xs =>
          simp only [Json.ReadsIn, readsElems_iff] at hp
          simp only [Json.intsFit, elemsFit_iff] at hf
          simp only [Json.nesting, Nat.add_le_add_iff_right, nestingElems_le] at hn
          cases xs with
          | nil => rfl
          | cons x xs =>
              have hback : ∀ v ∈ x :: xs, ReadsBack E h (scanValue h d) v :=
                fun v hv => ⟨hp v hv, fun r hr => ih v r (hp v hv) (hf v hv) (hn v hv) hr⟩
              obtain ⟨c, t, hc, hs⟩ := text_head (hp x (by simp))
              have hlen := length_le_textElems (E := E) xs
              have helems := scanElems_text xs x ((x.text E ++ (textElems E xs ++ r)).length + 1) r
                hback (by simp only [List.length_append]; omega)
              rw [text_arr_append]
              rw [hc, List.cons_append] at helems ⊢
              rw [scanValue_array h d hs.ne.1 hs.ne.2.1, helems]
      | obj kvs =>
          simp only [Json.ReadsIn, readsMembers_iff] at hp
          obtain ⟨hnodup, hp⟩ := hp
          simp only [Json.intsFit, membersFit_iff] at hf
          simp only [Json.nesting, Nat.add_le_add_iff_right, nestingMembers_le] at hn
          cases kvs with
          | nil =>
              rw [Json.text, scanValue.eq_def]
              simp only [List.cons_append, List.nil_append,
                skipWs_of_not_space (show isSpace 125 = false from rfl)]
              rw [makeDict_nodup h (by simp)]
          | cons kv kvs =>
              obtain ⟨k, v⟩ := kv
              have hback : ∀ kv ∈ (k, v) :: kvs, Reads E kv.1 ∧ ReadsBack E h (scanValue h d) kv.2 :=
                fun kv hkv => ⟨(hp kv hkv).1, (hp kv hkv).2,
                  fun r hr => ih kv.2 r (hp kv hkv).2 (hf kv hkv) (hn kv hkv) hr⟩
              have hlen := length_le_textMembers (E := E) kvs
              have hmem := scanMembers_text kvs k v
                ((quote E k ++ 58 :: (v.text E ++ (textMembers E kvs ++ r))).length + 1) r hback
                (by simp only [List.length_append, List.length_cons]; omega)
              rw [text_obj_append]
              rw [quote_append] at hmem ⊢
              rw [scanValue_object h d rfl (by decide), hmem]
              simp only
              rw [makeDict_nodup h hnodup]
      | _ => simp [Json.nesting] at ha

end

end Lib
