/-
Python text.

A Python `str` is a sequence of code points, and nothing keeps the surrogates out
of it, so the model is a list of numbers rather than Lean's `String`.  Everything
a program compares, slices or matches is written over that list; `lit` turns a
Lean literal into one.

The patterns the sources compile with `re` and use with `fullmatch` are nearly all
of one shape: a fixed number of characters, each drawn from a class.  `Pattern` is
that shape, so one lemma about its length and its characters serves every such
expression.
-/
import Mathlib.Data.List.Lex
import Mathlib.Data.List.Sort
import Mathlib.Tactic.Ring

namespace Lib

/-- A Python `str`: its code points, surrogates included. -/
abbrev Str := List Nat

instance : LawfulBEq Str := inferInstance

/-- A Python `bytes`. -/
abbrev Bytes := List UInt8

/-- The code points of an ASCII literal. -/
def lit (s : String) : Str := s.toByteArray.data.toList.map UInt8.toNat

@[simp] theorem lit_inj {s t : String} : lit s = lit t ↔ s = t := by
  constructor
  · intro h
    have hinj : Function.Injective UInt8.toNat := fun a b hab => UInt8.toNat_inj.mp hab
    have hlist := List.map_injective_iff.mpr hinj h
    exact String.toByteArray_inj.mp (ByteArray.ext (Array.toList_inj.mp hlist))
  · rintro rfl; rfl

@[simp] theorem lit_beq (s t : String) : (lit s == lit t) = (s == t) := by
  by_cases h : s = t
  · simp [h]
  · have hne : lit s ≠ lit t := fun hc => h (lit_inj.mp hc)
    simp [h, hne]

/-! ### Character classes -/

def isDigit (c : Nat) : Bool := 48 ≤ c && c ≤ 57

/-- `[0-9a-f]` -/
def isHex (c : Nat) : Bool := isDigit c || (97 ≤ c && c ≤ 102)

/-- `[A-Za-z0-9]` -/
def isAlnum (c : Nat) : Bool := isDigit c || (65 ≤ c && c ≤ 90) || (97 ≤ c && c ≤ 122)

def isAscii (s : Str) : Bool := s.all (· < 128)

/-- A high surrogate directly before a low one: what a JSON reader would join. -/
def isHighSurrogate (c : Nat) : Bool := 0xD800 ≤ c && c ≤ 0xDBFF

def isLowSurrogate (c : Nat) : Bool := 0xDC00 ≤ c && c ≤ 0xDFFF

theorem isHex_lt {c : Nat} (h : isHex c = true) : c < 128 := by
  simp only [isHex, isDigit, Bool.or_eq_true, Bool.and_eq_true, decide_eq_true_eq] at h
  omega

theorem isAlnum_lt {c : Nat} (h : isAlnum c = true) : c < 128 := by
  simp only [isAlnum, isDigit, Bool.or_eq_true, Bool.and_eq_true, decide_eq_true_eq] at h
  omega

/-! ### Fixed-length patterns -/

/-- One character class per position. -/
abbrev Pattern := List (Nat → Bool)

/-- `re.fullmatch` of a fixed-length expression. -/
def Pattern.fullmatch : Pattern → Str → Bool
  | [], [] => true
  | c :: cs, a :: as => c a && fullmatch cs as
  | _, _ => false

/-- The literal text `s` as a pattern. -/
def Pattern.text (s : Str) : Pattern := s.map fun c => (· == c)

/-- `n` characters of one class. -/
def Pattern.times (n : Nat) (c : Nat → Bool) : Pattern := List.replicate n c

theorem Pattern.fullmatch_length : ∀ {p : Pattern} {s : Str},
    p.fullmatch s = true → s.length = p.length := by
  intro p
  induction p with
  | nil => intro s h; cases s <;> simp [fullmatch] at h ⊢
  | cons c cs ih =>
      intro s h
      cases s with
      | nil => simp [fullmatch] at h
      | cons a as =>
          simp only [fullmatch, Bool.and_eq_true] at h
          simp [ih h.2]

/-- A property every class grants holds of every character matched. -/
theorem Pattern.fullmatch_all {Q : Nat → Prop} : ∀ {p : Pattern} {s : Str},
    p.fullmatch s = true → (∀ c ∈ p, ∀ a, c a = true → Q a) → ∀ a ∈ s, Q a := by
  intro p
  induction p with
  | nil => intro s h _; cases s <;> simp [fullmatch] at h ⊢
  | cons c cs ih =>
      intro s h hQ
      cases s with
      | nil => simp
      | cons a as =>
          simp only [fullmatch, Bool.and_eq_true] at h
          intro x hx
          rcases List.mem_cons.mp hx with rfl | hx'
          · exact hQ c (by simp) x h.1
          · exact ih h.2 (fun d hd => hQ d (by simp [hd])) x hx'

theorem Pattern.fullmatch_append : ∀ {p q : Pattern} {s t : Str},
    s.length = p.length → (p ++ q).fullmatch (s ++ t) = (p.fullmatch s && q.fullmatch t) := by
  intro p
  induction p with
  | nil => intro q s t h; simp_all [fullmatch]
  | cons c cs ih =>
      intro q s t h
      cases s with
      | nil => simp at h
      | cons a as =>
          simp only [List.cons_append, fullmatch]
          rw [ih (by simpa using h), Bool.and_assoc]

/-- `[0-9a-f]{64}` -/
def isSha256 (s : Str) : Bool := (Pattern.times 64 isHex).fullmatch s

theorem isSha256_length {s : Str} (h : isSha256 s = true) : s.length = 64 := Pattern.fullmatch_length h

/-- The four dash-separated groups that follow the first eight digits of a UUID, with
the class of the version digit and that of the variant digit. -/
def uuidPattern (version variant : Nat → Bool) : Pattern :=
  Pattern.times 8 isHex ++ Pattern.text (lit "-") ++ Pattern.times 4 isHex ++
    Pattern.text (lit "-") ++ version :: Pattern.times 3 isHex ++ Pattern.text (lit "-") ++
    variant :: Pattern.times 3 isHex ++ Pattern.text (lit "-") ++ Pattern.times 12 isHex

/-- `[89ab]` -/
def isVariant (c : Nat) : Bool := c == 56 || c == 57 || c == 97 || c == 98

/-- `[0-9a-f]{8}-[0-9a-f]{4}-[1-5][0-9a-f]{3}-[89ab][0-9a-f]{3}-[0-9a-f]{12}` -/
def uuid : Pattern := uuidPattern (fun c => 49 ≤ c && c ≤ 53) isVariant

/-- A pattern that only ASCII text matches. -/
def Pattern.Ascii (p : Pattern) : Prop := ∀ c ∈ p, ∀ a, c a = true → a < 128

theorem Pattern.Ascii.append {p q : Pattern} (hp : p.Ascii) (hq : q.Ascii) : (p ++ q).Ascii := by
  intro c hc
  rcases List.mem_append.mp hc with h | h
  · exact hp c h
  · exact hq c h

theorem Pattern.Ascii.cons {cls : Nat → Bool} {p : Pattern} (hc : ∀ a, cls a = true → a < 128)
    (hp : p.Ascii) : Pattern.Ascii (cls :: p) := by
  intro c h
  rcases List.mem_cons.mp h with rfl | h'
  · exact hc
  · exact hp c h'

theorem Pattern.ascii_times {n : Nat} {cls : Nat → Bool} (h : ∀ a, cls a = true → a < 128) :
    (Pattern.times n cls).Ascii := by
  intro c hc
  rw [List.eq_of_mem_replicate hc]
  exact h

theorem Pattern.ascii_text {s : Str} (h : ∀ x ∈ s, x < 128) : (Pattern.text s).Ascii := by
  intro c hc a ha
  obtain ⟨x, hx, rfl⟩ := List.mem_map.mp hc
  have : a = x := by simpa using ha
  exact this ▸ h x hx

theorem Pattern.Ascii.of_fullmatch {p : Pattern} {s : Str} (hp : p.Ascii) (h : p.fullmatch s = true) :
    ∀ c ∈ s, c < 128 := Pattern.fullmatch_all h hp

theorem uuidPattern_ascii {version variant : Nat → Bool} (h : ∀ a, version a = true → a < 128)
    (h' : ∀ a, variant a = true → a < 128) : (uuidPattern version variant).Ascii := by
  have hex : ∀ n, (Pattern.times n isHex).Ascii := fun n => Pattern.ascii_times fun _ => isHex_lt
  have dash : (Pattern.text (lit "-")).Ascii := Pattern.ascii_text (by decide)
  exact ((((((hex 8).append dash).append (hex 4)).append dash).append
    (.cons h ((hex 3).append (dash.append (.cons h' ((hex 3).append (dash.append (hex 12)))))))))

theorem uuid_ascii : uuid.Ascii := by
  refine uuidPattern_ascii (fun a ha => ?_) (fun a ha => ?_)
  · simp only [Bool.and_eq_true, decide_eq_true_eq] at ha; omega
  · simp only [isVariant, Bool.or_eq_true, beq_iff_eq] at ha; omega

/-! ### Decimal numerals -/

def decDigitsAux : Nat → Nat → Str → Str
  | 0, _, acc => acc
  | fuel + 1, n, acc =>
      if n < 10 then (48 + n) :: acc else decDigitsAux fuel (n / 10) ((48 + n % 10) :: acc)

/-- `str(n)` for a natural number. -/
def decDigits (n : Nat) : Str := decDigitsAux (n + 1) n []

/-- The value of a run of ASCII digits. -/
def digitsValue (s : Str) : Nat := s.foldl (fun v c => 10 * v + (c - 48)) 0

private theorem foldl_digits (s : Str) : ∀ v : Nat,
    s.foldl (fun v c => 10 * v + (c - 48)) v
      = v * 10 ^ s.length + s.foldl (fun v c => 10 * v + (c - 48)) 0 := by
  induction s with
  | nil => intro v; simp
  | cons c cs ih =>
      intro v
      rw [List.foldl_cons, ih, List.foldl_cons, ih (10 * 0 + (c - 48)), List.length_cons, pow_succ]
      ring

private theorem decDigitsAux_value : ∀ (fuel n : Nat) (acc : Str), n < fuel →
    digitsValue (decDigitsAux fuel n acc) = n * 10 ^ acc.length + digitsValue acc := by
  intro fuel
  induction fuel with
  | zero => intro n acc h; omega
  | succ fuel ih =>
      intro n acc h
      rw [decDigitsAux]
      split
      · simp only [digitsValue, List.foldl_cons]
        rw [foldl_digits]
        congr 2
        omega
      · rw [ih _ _ (by omega)]
        simp only [digitsValue, List.foldl_cons, List.length_cons]
        rw [foldl_digits acc (10 * 0 + (48 + n % 10 - 48)), pow_succ]
        have hn : n = 10 * (n / 10) + n % 10 := (Nat.div_add_mod n 10).symm
        have hd : 10 * 0 + (48 + n % 10 - 48) = n % 10 := by omega
        rw [hd]
        calc n / 10 * (10 ^ acc.length * 10)
              + (n % 10 * 10 ^ acc.length + acc.foldl (fun v c => 10 * v + (c - 48)) 0)
            = (10 * (n / 10) + n % 10) * 10 ^ acc.length
              + acc.foldl (fun v c => 10 * v + (c - 48)) 0 := by ring
          _ = _ := by rw [← hn]

@[simp] theorem digitsValue_decDigits (n : Nat) : digitsValue (decDigits n) = n := by
  rw [decDigits, decDigitsAux_value _ _ _ (by omega)]
  simp [digitsValue]

private theorem decDigitsAux_digits : ∀ (fuel n : Nat) (acc : Str),
    (∀ c ∈ acc, isDigit c = true) → ∀ c ∈ decDigitsAux fuel n acc, isDigit c = true := by
  intro fuel
  induction fuel with
  | zero => intro n acc h; exact h
  | succ fuel ih =>
      intro n acc h
      rw [decDigitsAux]
      split
      · intro c hc
        rcases List.mem_cons.mp hc with rfl | hc'
        · simp only [isDigit, Bool.and_eq_true, decide_eq_true_eq]; omega
        · exact h c hc'
      · refine ih _ _ fun c hc => ?_
        rcases List.mem_cons.mp hc with rfl | hc'
        · simp only [isDigit, Bool.and_eq_true, decide_eq_true_eq]; omega
        · exact h c hc'

theorem decDigits_digits (n : Nat) : ∀ c ∈ decDigits n, isDigit c = true :=
  decDigitsAux_digits _ _ _ (by simp)

private theorem decDigitsAux_length : ∀ (fuel n : Nat) (acc : Str) (k : Nat), n < 10 ^ (k + 1) →
    (decDigitsAux fuel n acc).length ≤ k + 1 + acc.length := by
  intro fuel
  induction fuel with
  | zero => intro n acc k _; rw [decDigitsAux]; omega
  | succ fuel ih =>
      intro n acc k h
      rw [decDigitsAux]
      split
      · simp only [List.length_cons]; omega
      · cases k with
        | zero => rw [Nat.zero_add, pow_one] at h; omega
        | succ k =>
            have hdiv : n / 10 < 10 ^ (k + 1) := by
              rw [pow_succ] at h
              exact Nat.div_lt_of_lt_mul (by omega)
            have := ih (n / 10) ((48 + n % 10) :: acc) k hdiv
            simp only [List.length_cons] at this
            omega

theorem decDigits_length_le {n k : Nat} (h : n < 10 ^ k) (hk : 0 < k) : (decDigits n).length ≤ k := by
  obtain ⟨k, rfl⟩ : ∃ j, k = j + 1 := ⟨k - 1, by omega⟩
  exact decDigitsAux_length (n + 1) n [] k h

private theorem decDigitsAux_head : ∀ (fuel n : Nat) (acc : Str), n < fuel → 10 ≤ n →
    ∃ d rest, decDigitsAux fuel n acc = d :: rest ∧ isDigit d = true ∧ d ≠ 48 := by
  intro fuel
  induction fuel with
  | zero => intro n acc h _; omega
  | succ fuel ih =>
      intro n acc h hn
      rw [decDigitsAux, if_neg (by omega)]
      by_cases hsmall : n / 10 < 10
      · cases fuel with
        | zero => omega
        | succ k =>
            rw [decDigitsAux, if_pos hsmall]
            exact ⟨_, _, rfl, by simp only [isDigit, Bool.and_eq_true, decide_eq_true_eq]; omega,
              by omega⟩
      · exact ih _ _ (by omega) (by omega)

/-- A numeral is `0` or starts with a digit other than `0`. -/
theorem decDigits_head (n : Nat) : decDigits n = [48] ∨
    ∃ d rest, decDigits n = d :: rest ∧ isDigit d = true ∧ d ≠ 48 := by
  by_cases h0 : n = 0
  · left; subst h0; rfl
  · right
    by_cases hn : n < 10
    · refine ⟨48 + n, [], ?_, ?_, by omega⟩
      · rw [decDigits, decDigitsAux, if_pos hn]
      · simp only [isDigit, Bool.and_eq_true, decide_eq_true_eq]; omega
    · exact decDigitsAux_head _ _ _ (by omega) (by omega)

/-- A numeral of fixed width, leading zeros included. -/
def padDigits : Nat → Nat → Str
  | 0, _ => []
  | k + 1, n => padDigits k (n / 10) ++ [48 + n % 10]

@[simp] theorem padDigits_length (k n : Nat) : (padDigits k n).length = k := by
  induction k generalizing n with
  | zero => rfl
  | succ k ih => simp [padDigits, ih]

theorem padDigits_digits (k n : Nat) : ∀ c ∈ padDigits k n, isDigit c = true := by
  induction k generalizing n with
  | zero => simp [padDigits]
  | succ k ih =>
      intro c hc
      rcases List.mem_append.mp hc with h | h
      · exact ih _ c h
      · rw [List.mem_singleton.mp h]
        simp only [isDigit, Bool.and_eq_true, decide_eq_true_eq]
        omega

theorem digitsValue_padDigits (k n : Nat) (h : n < 10 ^ k) : digitsValue (padDigits k n) = n := by
  induction k generalizing n with
  | zero => simp [padDigits, digitsValue] at h ⊢; omega
  | succ k ih =>
      have hk := ih (n / 10) (by rw [pow_succ] at h; omega)
      simp only [digitsValue] at hk
      simp only [padDigits, digitsValue, List.foldl_append, List.foldl_cons, List.foldl_nil, hk]
      omega

end Lib
