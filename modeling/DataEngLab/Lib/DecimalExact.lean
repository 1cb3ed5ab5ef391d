/-
Where decimal arithmetic is exact.

A number with a fixed count of places is a whole number of its last place.  Within the
digits of the context a sum of such numbers is the sum of the whole numbers; beyond them it
is rounded, and what it is rounded to is again beyond them (`Holds.add`).  A running sum
that compares equal to a number the context can hold is therefore exact, whatever happened
on the way.
-/
import DataEngLab.Lib.Decimal
import Mathlib.Data.List.TakeWhile

namespace Lib

/-! ### Digits -/

theorem digitCount_le_iff {n k : Nat} (hk : 0 < k) : digitCount n ≤ k ↔ n < 10 ^ k :=
  ⟨fun h => (lt_pow_digitCount n).trans_le (Nat.pow_le_pow_right (by decide) h),
    fun h => decDigits_length_le h hk⟩

private theorem decDigitsAux_append (n : Nat) : ∀ (fuel : Nat) (acc : Str), n < fuel →
    decDigitsAux fuel n acc = decDigits n ++ acc := by
  induction n using Nat.strongRecOn with
  | ind n ih =>
      intro fuel acc h
      obtain ⟨k, rfl⟩ : ∃ k, fuel = k + 1 := ⟨fuel - 1, by omega⟩
      rw [decDigits, decDigitsAux, decDigitsAux]
      split
      · rfl
      · rw [ih (n / 10) (by omega) k _ (by omega), ih (n / 10) (by omega) n _ (by omega),
          List.append_assoc, List.singleton_append]

theorem decDigits_small {n : Nat} (h : n < 10) : decDigits n = [48 + n] := by
  rw [decDigits, decDigitsAux, if_pos h]

theorem decDigits_step {n : Nat} (h : 10 ≤ n) : decDigits n = decDigits (n / 10) ++ [48 + n % 10] := by
  rw [decDigits, decDigitsAux, if_neg (by omega)]
  exact decDigitsAux_append _ _ _ (by omega)

/-- A numeral is the numeral of its leading part and two digits more. -/
theorem padded_decDigits (n : Nat) :
    List.replicate (3 - (decDigits n).length) 48 ++ decDigits n =
      decDigits (n / 100) ++ padDigits 2 (n % 100) := by
  have hpad : padDigits 2 (n % 100) = [48 + n / 10 % 10, 48 + n % 10] := by
    simp only [padDigits, List.nil_append, List.cons_append]
    congr 2 <;> omega
  rw [hpad]
  by_cases hone : n < 10
  · rw [decDigits_small hone, decDigits_small (by omega : n / 100 < 10)]
    simp [List.replicate, show n / 100 = 0 by omega, show n / 10 = 0 by omega, show n % 10 = n by omega]
  · rw [decDigits_step (by omega : 10 ≤ n)]
    by_cases htwo : n / 10 < 10
    · rw [decDigits_small htwo, decDigits_small (by omega : n / 100 < 10)]
      simp [show n / 100 = 0 by omega, show n / 10 % 10 = n / 10 by omega]
    · rw [decDigits_step (by omega : 10 ≤ n / 10), Nat.div_div_eq_div_mul]
      have hlong : 3 - (decDigits (n / (10 * 10)) ++ [48 + n / 10 % 10] ++ [48 + n % 10]).length = 0 := by
        have hpos : 0 < (decDigits (n / (10 * 10))).length := digitCount_pos _
        simp only [List.length_append, List.length_singleton]
        omega
      rw [hlong]
      simp

/-! ### A whole number of places -/

/-- `n` times `10 ^ e` -/
def Dec.scaled (n : Int) (e : Int) : Dec := ⟨n < 0, n.natAbs, e⟩

section
variable {n : Int} {e : Int}

@[simp] theorem Dec.scaled_exponent : (Dec.scaled n e).exponent = e := rfl

@[simp] theorem Dec.scaled_units : (Dec.scaled n e).units e = n := by
  simp only [Dec.units, Dec.scaled, Int.sub_self, Int.toNat_zero, pow_zero, mul_one, decide_eq_true_eq]
  split <;> omega

@[simp] theorem Dec.scaled_same : (Dec.scaled n e).same (Dec.scaled n e) = true := by
  simp [Dec.same]

@[simp] theorem Dec.scaled_positive : (Dec.scaled n e).positive = decide (0 < n) := by
  by_cases h : 0 < n
  · simp [Dec.positive, Dec.scaled, h]
    omega
  · simp [Dec.positive, Dec.scaled, h]
    omega

/-- Quantizing to the places a number has is refused exactly beyond the digits of the context. -/
theorem Dec.quantize_scaled :
    (Dec.scaled n e).quantize e = if n.natAbs < 10 ^ precision then some (Dec.scaled n e) else none := by
  simp only [Dec.quantize, Dec.scaled, le_refl, ↓reduceIte, Int.sub_self, Int.toNat_zero, pow_zero, mul_one,
    digitCount_le_iff (show 0 < precision by decide)]

end

/-! ### A running sum -/

theorem divHalfEven_one (n : Nat) : divHalfEven n 1 = n := by
  simp [divHalfEven, Nat.mod_one]

theorem div_le_divHalfEven (n d : Nat) : n / d ≤ divHalfEven n d := by
  simp only [divHalfEven]
  split <;> omega

/-- A running sum of numbers with the place `e`: exact while the context can hold it, and beyond what
the context can hold from then on. -/
structure Holds (e : Int) (t : Dec) (m : Nat) : Prop where
  sign : t.negative = false
  place : e ≤ t.exponent
  exact : m < 10 ^ precision → t.units e = m
  beyond : 10 ^ precision ≤ m → (10 : Int) ^ precision ≤ t.units e

theorem holds_zero {e : Int} (he : e ≤ 0) : Holds e ⟨false, 0, 0⟩ 0 where
  sign := rfl
  place := he
  exact _ := by simp [Dec.units]
  beyond h := absurd h (by decide)

/-- A number that fits is not changed by rounding. -/
theorem Dec.rounded_of_lt {d : Dec} (h : d.coefficient < 10 ^ precision) : d.rounded = d := by
  have hextra : digitCount d.coefficient - precision = 0 :=
    Nat.sub_eq_zero_of_le ((digitCount_le_iff (by decide)).mpr h)
  simp only [Dec.rounded, hextra, pow_zero, divHalfEven_one, if_neg h.ne, Int.natCast_zero, add_zero]

/-- A number that does not fit is rounded to one that does not fit either. -/
theorem Dec.rounded_of_ge {n : Nat} {e : Int} (h : 10 ^ precision ≤ n) :
    (Dec.rounded ⟨false, n, e⟩).negative = false ∧ e ≤ (Dec.rounded ⟨false, n, e⟩).exponent ∧
      (10 : Int) ^ precision ≤ (Dec.rounded ⟨false, n, e⟩).units e := by
  obtain ⟨k, hk⟩ : ∃ k, digitCount n = precision + 1 + k := by
    have hlong : ¬ digitCount n ≤ precision := fun hle =>
      absurd ((digitCount_le_iff (by decide)).mp hle) (by omega)
    exact ⟨digitCount n - precision - 1, by omega⟩
  have hextra : digitCount n - precision = k + 1 := by omega
  have hlow : 10 ^ (precision + k) ≤ n := by
    by_contra hlt
    have hshort := (digitCount_le_iff (n := n) (k := precision + k) (by simp [precision])).mpr
      (Nat.lt_of_not_le hlt)
    omega
  have hquotient : 10 ^ 27 ≤ divHalfEven n (10 ^ (k + 1)) := by
    refine le_trans ?_ (div_le_divHalfEven n _)
    rw [Nat.le_div_iff_mul_le (by positivity), ← pow_add]
    exact le_trans (Nat.pow_le_pow_right (by decide) (by simp [precision]; omega)) hlow
  have hscale : ∀ j, 1 ≤ j → (10 : Int) ^ precision ≤ 10 ^ 27 * 10 ^ j := fun j hj => by
    rw [← pow_add]
    exact pow_le_pow_right₀ (by norm_num) (by simp [precision]; omega)
  simp only [Dec.rounded, hextra]
  split
  · rename_i heq
    refine ⟨rfl, by simp only; omega, ?_⟩
    have hplaces : (e + ↑(k + 1) + 1 - e).toNat = k + 2 := by omega
    simp only [Dec.units, hplaces, heq, Bool.false_eq_true, ↓reduceIte]
    exact hscale (k + 2) (by omega)
  · refine ⟨rfl, by simp only; omega, ?_⟩
    have hplaces : (e + ↑(k + 1) - e).toNat = k + 1 := by omega
    simp only [Dec.units, hplaces, Bool.false_eq_true, ↓reduceIte]
    refine (hscale (k + 1) (by omega)).trans (mul_le_mul_of_nonneg_right ?_ (by positivity))
    exact_mod_cast hquotient

/-- **One more number.** -/
theorem Holds.add {e : Int} {t : Dec} {m n : Nat} (h : Holds e t m) (hpos : 0 < n) :
    Holds e (t.add (Dec.scaled n e)) (m + n) := by
  have hmin : min t.exponent (Dec.scaled (n : Int) e).exponent = e := min_eq_right h.place
  obtain ⟨N, hN⟩ : ∃ N : Nat, t.units e = N := by
    refine ⟨(t.units e).toNat, (Int.toNat_of_nonneg ?_).symm⟩
    simp only [Dec.units, h.sign, Bool.false_eq_true, ↓reduceIte]
    positivity
  have hsum : t.add (Dec.scaled n e) = Dec.rounded ⟨false, N + n, e⟩ := by
    have hne : ((N : Int) + n = 0) = False := by simp; omega
    have hlt : ((N : Int) + n < 0) = False := by simp; omega
    have habs : ((N : Int) + n).natAbs = N + n := by omega
    simp only [Dec.add, hmin, hN, Dec.scaled_units, hne, hlt, habs, ↓reduceIte, decide_false]
  rw [hsum]
  have hexact : N + n < 10 ^ precision → N = m := by
    intro hfits
    by_contra hne
    by_cases hm : m < 10 ^ precision
    · exact hne (by exact_mod_cast hN.symm.trans (h.exact hm))
    · have hbig := h.beyond (Nat.le_of_not_lt hm)
      rw [hN] at hbig
      have : 10 ^ precision ≤ N := by exact_mod_cast hbig
      omega
  by_cases hfits : N + n < 10 ^ precision
  · rw [Dec.rounded_of_lt hfits]
    refine ⟨rfl, le_refl _, fun _ => ?_, fun hm => ?_⟩
    · simp [Dec.units, hexact hfits]
    · rw [← hexact hfits] at hm
      omega
  · obtain ⟨hsign, hplace, hbeyond⟩ := Dec.rounded_of_ge (e := e) (Nat.le_of_not_lt hfits)
    refine ⟨hsign, hplace, fun hm => ?_, fun _ => hbeyond⟩
    have hN' : N = m := by exact_mod_cast hN.symm.trans (h.exact (by omega))
    omega

/-- What a running sum compares equal to, if the context can hold it, is the sum. -/
theorem Holds.same_iff {e : Int} {t : Dec} {m n : Nat} (h : Holds e t m) (hn : n < 10 ^ precision) :
    t.same (Dec.scaled n e) = true ↔ m = n := by
  have hmin : min t.exponent (Dec.scaled (n : Int) e).exponent = e := min_eq_right h.place
  simp only [Dec.same, hmin, Dec.scaled_units, beq_iff_eq]
  by_cases hm : m < 10 ^ precision
  · rw [h.exact hm, Int.natCast_inj]
  · have hbig := h.beyond (Nat.le_of_not_lt hm)
    have hlt : (n : Int) < 10 ^ precision := by exact_mod_cast hn
    constructor
    · intro heq
      omega
    · intro heq
      omega

/-! ### Reading and printing -/

theorem isPythonSpace_of_isDigit {c : Nat} (h : isDigit c = true) : isPythonSpace c = false := by
  simp only [isDigit, Bool.and_eq_true, decide_eq_true_eq] at h
  simp only [isPythonSpace, Bool.or_eq_false_iff, Bool.and_eq_false_iff, decide_eq_false_iff_not, beq_eq_false_iff_ne]
  omega

theorem digitsValue_append (s t : Str) : digitsValue (s ++ t) = digitsValue s * 10 ^ t.length + digitsValue t := by
  induction t using List.reverseRecOn with
  | nil => simp [digitsValue]
  | append_singleton t c ih =>
      have hlast : ∀ u : Str, digitsValue (u ++ [c]) = 10 * digitsValue u + (c - 48) := fun u => by
        rw [digitsValue, List.foldl_append]
        rfl
      rw [← List.append_assoc, hlast, hlast, ih, List.length_append, List.length_singleton, pow_succ]
      ring

/-- Digits, a point, and a sign. -/
def IsNumeralChar (c : Nat) : Prop := isDigit c = true ∨ c = 45 ∨ c = 46

theorem IsNumeralChar.plain {c : Nat} (h : IsNumeralChar c) : isPythonSpace c = false ∧ c ≠ 95 ∧ c < 128 := by
  rcases h with h | rfl | rfl
  · refine ⟨isPythonSpace_of_isDigit h, ?_⟩
    simp only [isDigit, Bool.and_eq_true, decide_eq_true_eq] at h
    omega
  · decide
  · decide

theorem strip_plain {s : Str} (h : ∀ c ∈ s, isPythonSpace c = false) : strip s = s := by
  have hdrop : ∀ {t : Str}, (∀ c ∈ t, isPythonSpace c = false) → t.dropWhile isPythonSpace = t := by
    intro t ht
    cases t with
    | nil => rfl
    | cons c t => rw [List.dropWhile_cons_of_neg (by simp [ht c (List.mem_cons_self ..)])]
  rw [strip, hdrop h, hdrop fun c hc => h c (List.mem_reverse.mp hc), List.reverse_reverse]

theorem numericAsAscii_plain {s : Str} (h : ∀ c ∈ s, IsNumeralChar c) : numericAsAscii s = some s := by
  have hfilter : s.filter (· != 95) = s := List.filter_eq_self.mpr fun c hc => by simp [(h c hc).plain.2.1]
  rw [numericAsAscii, strip_plain fun c hc => (h c hc).plain.1, hfilter]
  clear hfilter
  induction s with
  | nil => rfl
  | cons c s ih =>
      have hrest := ih fun x hx => h x (List.mem_cons_of_mem _ hx)
      simp only [List.mapM_cons, (h c (List.mem_cons_self ..)).plain.2.2, ↓reduceIte, hrest]
      rfl

/-- A numeral with a point in it. -/
theorem readNumeral_point {negative : Bool} {whole fraction : Str} (hw : whole ≠ [])
    (hwhole : ∀ c ∈ whole, isDigit c = true) (hfraction : ∀ c ∈ fraction, isDigit c = true) :
    readNumeral negative (whole ++ 46 :: fraction) =
      some ⟨negative, digitsValue (whole ++ fraction), -fraction.length⟩ := by
  have hpoint : ¬ isDigit 46 = true := by decide
  have htake : (whole ++ 46 :: fraction).takeWhile isDigit = whole := by
    rw [List.takeWhile_append_of_pos hwhole, List.takeWhile_cons_of_neg hpoint, List.append_nil]
  have hdrop : (whole ++ 46 :: fraction).dropWhile isDigit = 46 :: fraction := by
    rw [List.dropWhile_append_of_pos hwhole, List.dropWhile_cons_of_neg hpoint]
  have htakeRest : fraction.takeWhile isDigit = fraction := List.takeWhile_eq_self_iff.mpr hfraction
  have hdropRest : fraction.dropWhile isDigit = [] := List.dropWhile_eq_nil_iff.mpr hfraction
  simp [readNumeral, htake, hdrop, htakeRest, hdropRest, hw]

/-- No word of letters starts with a digit. -/
theorem not_word {d : Nat} {t : Str} (hd : isDigit d = true) :
    ¬ (lowerAscii (d :: t) = lit "inf" ∨ lowerAscii (d :: t) = lit "infinity") ∧
      ¬ ((lowerAscii (d :: t)).take 3 = lit "nan" ∧ ((lowerAscii (d :: t)).drop 3).all isDigit = true ∨
        (lowerAscii (d :: t)).take 4 = lit "snan" ∧ ((lowerAscii (d :: t)).drop 4).all isDigit = true) := by
  have hd : 48 ≤ d ∧ d ≤ 57 := by simpa [isDigit] using hd
  have hlower : lowerAscii (d :: t) = d :: lowerAscii t := by
    simp only [lowerAscii, List.map_cons]
    rw [if_neg (by omega)]
  have hword : ∀ (w t : Str), 57 < w.headD 0 → d :: t ≠ w := by
    rintro w t hlt rfl
    simp only [List.headD_cons] at hlt
    omega
  rw [hlower]
  constructor
  · rintro (h | h)
    · exact hword _ _ (by decide) h
    · exact hword _ _ (by decide) h
  · rintro (⟨h, -⟩ | ⟨h, -⟩)
    · exact hword (lit "nan") ((lowerAscii t).take 2) (by decide) h
    · exact hword (lit "snan") ((lowerAscii t).take 3) (by decide) h

/-- **Reading a numeral with a point.** -/
theorem ofText_point {negative : Bool} {whole fraction : Str} (hw : whole ≠ [])
    (hwhole : ∀ c ∈ whole, isDigit c = true) (hfraction : ∀ c ∈ fraction, isDigit c = true)
    (hfits : (Dec.mk negative (digitsValue (whole ++ fraction)) (-fraction.length)).representable = true) :
    Decimal.ofText ((if negative then [45] else []) ++ (whole ++ 46 :: fraction)) =
      some (.finite ⟨negative, digitsValue (whole ++ fraction), -fraction.length⟩) := by
  have hchars : ∀ c ∈ (if negative then [45] else []) ++ (whole ++ 46 :: fraction), IsNumeralChar c := by
    intro c hc
    rcases List.mem_append.mp hc with hc | hc
    · cases negative with
      | true => exact .inr (.inl (List.mem_singleton.mp hc))
      | false => cases hc
    · rcases List.mem_append.mp hc with hc | hc
      · exact .inl (hwhole c hc)
      · rcases List.mem_cons.mp hc with rfl | hc
        · exact .inr (.inr rfl)
        · exact .inl (hfraction c hc)
  obtain ⟨d, rest, rfl⟩ := List.exists_cons_of_ne_nil hw
  have hdigit : isDigit d = true := hwhole d (List.mem_cons_self ..)
  have hd : 48 ≤ d ∧ d ≤ 57 := by simpa [isDigit] using hdigit
  obtain ⟨hinfinite, hnan⟩ := not_word (t := rest ++ 46 :: fraction) hdigit
  have hread : readNumeral negative (d :: rest ++ 46 :: fraction) =
      some ⟨negative, digitsValue (d :: rest ++ fraction), -fraction.length⟩ := readNumeral_point hw hwhole hfraction
  unfold Decimal.ofText
  simp only [numericAsAscii_plain hchars, Option.bind_eq_bind, Option.bind_some]
  cases negative with
  | true =>
      simp only [↓reduceIte, List.singleton_append]
      simp only [List.cons_append, if_neg hinfinite, if_neg hnan]
      simp only [← List.cons_append, hread, Option.bind_some, hfits, ↓reduceIte]
  | false =>
      simp only [Bool.false_eq_true, ↓reduceIte, List.nil_append, List.cons_append]
      split
      · rename_i heq
        simp only [List.cons.injEq] at heq
        omega
      · rename_i heq
        simp only [List.cons.injEq] at heq
        omega
      · simp only [if_neg hinfinite, if_neg hnan]
        simp only [← List.cons_append, hread, Option.bind_some, hfits, ↓reduceIte]

end Lib
