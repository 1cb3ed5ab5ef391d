/-
Whole-second UTC instants and their ISO text.

An instant is the number of seconds since 0001-01-01T00:00:00Z, bounded by the last
second of the year 9999: the range of Python's `datetime`.  Comparing, subtracting
and adding are then arithmetic on that number, and the calendar is needed only to
print and to read `%Y-%m-%dT%H:%M:%SZ`.

The one theorem the rest of a development needs is `parseUtc_formatUtc`: printing an
instant and reading the text gives the instant back.  The year is found by the
400/100/4/1-year cycles and the month by walking the lengths of the months, and both
walks are inverted separately.

The reader is more generous than the printer.  The expression in front of
`strptime` says `\d`, which in Python matches every Unicode decimal digit, while
`strptime` itself pins some positions to ASCII; `parseUtc` follows both.
-/
import DataEngLab.Lib.Text

namespace Lib

/-- Seconds from 0001-01-01T00:00:00Z to 9999-12-31T23:59:59Z. -/
def maxSecond : Nat := 315537897599

/-- A UTC instant of whole-second precision in the range of `datetime`. -/
structure Instant where
  second : Nat
  le_max : second ≤ maxSecond

instance : DecidableEq Instant := fun a b =>
  decidable_of_iff (a.second = b.second) (by cases a; cases b; simp)

theorem Instant.ext_second {a b : Instant} (h : a.second = b.second) : a = b := by
  cases a; cases b; simp_all

instance : LE Instant := ⟨fun a b => a.second ≤ b.second⟩
instance : LT Instant := ⟨fun a b => a.second < b.second⟩
instance (a b : Instant) : Decidable (a ≤ b) := inferInstanceAs (Decidable (a.second ≤ b.second))
instance (a b : Instant) : Decidable (a < b) := inferInstanceAs (Decidable (a.second < b.second))

@[simp] theorem Instant.le_iff {a b : Instant} : a ≤ b ↔ a.second ≤ b.second := Iff.rfl
@[simp] theorem Instant.lt_iff {a b : Instant} : a < b ↔ a.second < b.second := Iff.rfl

/-- `value + timedelta(seconds=seconds)`; `none` is the `OverflowError`. -/
def Instant.add (t : Instant) (seconds : Nat) : Option Instant :=
  if h : t.second + seconds ≤ maxSecond then some ⟨t.second + seconds, h⟩ else none

theorem Instant.add_eq_some {t u : Instant} {n : Nat} :
    t.add n = some u ↔ u.second = t.second + n := by
  unfold add
  constructor
  · intro h
    split at h
    · simp only [Option.some.injEq] at h
      rw [← h]
    · simp at h
  · intro h
    have hle : t.second + n ≤ maxSecond := h ▸ u.le_max
    rw [dif_pos hle]
    exact congrArg some (Instant.ext_second h.symm)

/-- A `datetime` value: wall-clock seconds and microseconds, and the offset from UTC
in microseconds when there is a time zone. -/
structure Datetime where
  wall : Instant
  microsecond : Nat
  utcoffset : Option Int

instance : DecidableEq Datetime := fun a b =>
  decidable_of_iff
    (a.wall = b.wall ∧ a.microsecond = b.microsecond ∧ a.utcoffset = b.utcoffset)
    (by cases a; cases b; simp)

/-- Time zone present, offset zero, no fraction of a second. -/
def Datetime.exactUtc (d : Datetime) : Bool := d.utcoffset == some 0 && d.microsecond == 0

/-- The instant an exact UTC `datetime` stands for. -/
def Datetime.instant? (d : Datetime) : Option Instant := if d.exactUtc then some d.wall else none

/-- The exact UTC `datetime` of an instant. -/
def Instant.datetime (t : Instant) : Datetime := ⟨t, 0, some 0⟩

@[simp] theorem Instant.datetime_instant? (t : Instant) : t.datetime.instant? = some t := rfl

/-! ### The calendar -/

def isLeap (y : Nat) : Bool := y % 4 == 0 && (y % 100 != 0 || y % 400 == 0)

def monthLengths (leap : Bool) : List Nat :=
  [31, if leap then 29 else 28, 31, 30, 31, 30, 31, 31, 30, 31, 30, 31]

/-- Days before the first of January of year `y`, counted from 0001-01-01. -/
def daysBeforeYear (y : Nat) : Nat := (y - 1) * 365 + (y - 1) / 4 - (y - 1) / 100 + (y - 1) / 400

/-- The year a day lies in, by whole cycles of 400, 100, 4 and 1 years. -/
def yearOf (day : Nat) : Nat :=
  let n400 := day / 146097
  let r400 := day % 146097
  let n100 := min (r400 / 36524) 3
  let r100 := r400 - n100 * 36524
  let n4 := r100 / 1461
  let r4 := r100 % 1461
  let n1 := min (r4 / 365) 3
  400 * n400 + 100 * n100 + 4 * n4 + n1 + 1

/-- The month, counted from `m`, and the day of the month. -/
def monthDay : List Nat → Nat → Nat → Nat × Nat
  | [], m, doy => (m, doy + 1)
  | l :: ls, m, doy => if doy < l then (m, doy + 1) else monthDay ls (m + 1) (doy - l)

/-- Days before the first of the month that is `k` months after the first one listed. -/
def daysBeforeMonth (ls : List Nat) (k : Nat) : Nat := (ls.take k).sum

theorem daysBeforeYear_cycles {a b c d : Nat} (hb : b ≤ 3) (hc : c ≤ 24) (hd : d ≤ 3) :
    daysBeforeYear (400 * a + 100 * b + 4 * c + d + 1)
      = 146097 * a + 36524 * b + 1461 * c + 365 * d := by
  have h4 : (400 * a + 100 * b + 4 * c + d) / 4 = 100 * a + 25 * b + c := by omega
  have h100 : (400 * a + 100 * b + 4 * c + d) / 100 = 4 * a + b := by omega
  have h400 : (400 * a + 100 * b + 4 * c + d) / 400 = a := by omega
  simp only [daysBeforeYear, Nat.add_sub_cancel, h4, h100, h400]
  omega

theorem isLeap_cycles {a b c d : Nat} (hb : b ≤ 3) (hc : c ≤ 24) (hd : d ≤ 3) :
    isLeap (400 * a + 100 * b + 4 * c + d + 1) = true ↔ d = 3 ∧ (c ≠ 24 ∨ b = 3) := by
  simp only [isLeap, Bool.and_eq_true, Bool.or_eq_true, beq_iff_eq, bne_iff_ne]
  omega

/-- Of at most `4 * k` and a bit, no more than three whole cycles of `k` are taken. -/
theorem min_cycles {r k : Nat} (hr : r ≤ 4 * k) :
    ∃ q e, min (r / k) 3 = q ∧ q ≤ 3 ∧ r = q * k + e ∧ (e < k ∨ e = k ∧ q = 3 ∨ k = 0) := by
  rcases Nat.eq_zero_or_pos k with rfl | hk
  · exact ⟨0, 0, by simp, by omega, by omega, Or.inr (Or.inr rfl)⟩
  have hdiv := Nat.div_add_mod' r k
  have hmod := Nat.mod_lt r hk
  by_cases hq : r / k ≤ 3
  · exact ⟨r / k, r % k, by omega, hq, by omega, Or.inl hmod⟩
  · have hge : 4 * k ≤ r := by
      calc 4 * k ≤ r / k * k := Nat.mul_le_mul_right k (by omega)
        _ ≤ r := Nat.div_mul_le_self r k
    exact ⟨3, k, by omega, by omega, by omega, Or.inr (Or.inl ⟨rfl, rfl⟩)⟩

/-- A day is some whole cycles and a remainder shorter than a year, leap day included. -/
theorem yearOf_cycles (day : Nat) : ∃ a b c d e, b ≤ 3 ∧ c ≤ 24 ∧ d ≤ 3 ∧
    yearOf day = 400 * a + 100 * b + 4 * c + d + 1 ∧
    day = 146097 * a + 36524 * b + 1461 * c + 365 * d + e ∧
    (e < 365 ∨ e = 365 ∧ d = 3 ∧ (c ≠ 24 ∨ b = 3)) := by
  have h400 := Nat.div_add_mod day 146097
  have hr400 := Nat.mod_lt day (show 0 < 146097 by omega)
  obtain ⟨b, r, hbmin, hb, hbr, hbe⟩ := min_cycles (r := day % 146097) (k := 36524) (by omega)
  have h4 := Nat.div_add_mod r 1461
  have hr4 := Nat.mod_lt r (show 0 < 1461 by omega)
  obtain ⟨d, e, hdmin, hd, hde, hee⟩ := min_cycles (r := r % 1461) (k := 365) (by omega)
  refine ⟨day / 146097, b, r / 1461, d, e, hb, by omega, hd, ?_, by omega, by omega⟩
  have hr : day % 146097 - b * 36524 = r := by omega
  simp only [yearOf, hbmin, hr, hdmin]

theorem yearOf_spec (day : Nat) :
    1 ≤ yearOf day ∧ daysBeforeYear (yearOf day) ≤ day ∧
      day < daysBeforeYear (yearOf day) + 365 + (if isLeap (yearOf day) then 1 else 0) := by
  obtain ⟨a, b, c, d, e, hb, hc, hd, hy, hday, he⟩ := yearOf_cycles day
  have hbefore := daysBeforeYear_cycles (a := a) hb hc hd
  have hleap := isLeap_cycles (a := a) hb hc hd
  rw [hy, hbefore]
  clear hy hbefore hb hc hd
  refine ⟨Nat.le_add_left 1 _, by omega, ?_⟩
  by_cases hlast : d = 3 ∧ (c ≠ 24 ∨ b = 3)
  · rw [if_pos (hleap.mpr hlast)]
    clear hleap hlast
    omega
  · rw [if_neg (mt hleap.mp hlast)]
    have hlt : e < 365 := he.resolve_right fun h => hlast h.2
    clear hleap hlast he
    omega

theorem monthDay_spec : ∀ (ls : List Nat) (m doy : Nat), doy < ls.sum →
    ∃ k l, ls[k]? = some l ∧ (monthDay ls m doy).1 = m + k ∧ 1 ≤ (monthDay ls m doy).2 ∧
      (monthDay ls m doy).2 ≤ l ∧ daysBeforeMonth ls k + ((monthDay ls m doy).2 - 1) = doy := by
  intro ls
  induction ls with
  | nil => intro m doy h; simp at h
  | cons l ls ih =>
      intro m doy h
      by_cases hd : doy < l
      · exact ⟨0, l, by simp, by simp [monthDay, hd], by simp [monthDay, hd],
          by simp only [monthDay, if_pos hd]; omega, by simp [monthDay, hd, daysBeforeMonth]⟩
      · obtain ⟨k, l', hget, hm, hlo, hhi, hsum⟩ := ih (m + 1) (doy - l)
          (by simp only [List.sum_cons] at h; omega)
        refine ⟨k + 1, l', by simpa using hget, ?_, ?_, ?_, ?_⟩
        · simp only [monthDay, if_neg hd]; omega
        · simpa only [monthDay, if_neg hd] using hlo
        · simpa only [monthDay, if_neg hd] using hhi
        · simp only [monthDay, if_neg hd, daysBeforeMonth, List.take_succ_cons, List.sum_cons]
          simp only [daysBeforeMonth] at hsum
          omega

theorem monthLengths_sum (leap : Bool) :
    (monthLengths leap).sum = 365 + (if leap then 1 else 0) := by
  cases leap <;> rfl

theorem monthLengths_le (leap : Bool) : ∀ l ∈ monthLengths leap, l ≤ 31 := by
  cases leap <;> decide

/-! ### Printing -/

/-- `value.strftime("%Y-%m-%dT%H:%M:%SZ")`, the year padded to four digits as documented. -/
def formatUtc (t : Instant) : Str :=
  let day := t.second / 86400
  let y := yearOf day
  let md := monthDay (monthLengths (isLeap y)) 1 (day - daysBeforeYear y)
  let r := t.second % 86400
  padDigits 4 y ++ 45 :: padDigits 2 md.1 ++ 45 :: padDigits 2 md.2 ++ 84 ::
    padDigits 2 (r / 3600) ++ 58 :: padDigits 2 (r / 60 % 60) ++ 58 :: padDigits 2 (r % 60) ++ [90]

/-! ### Reading -/

/-- The code points of the Unicode decimal digits zero, one for each script. -/
def digitZeros : List Nat :=
  [0x30, 0x660, 0x6f0, 0x7c0, 0x966, 0x9e6, 0xa66, 0xae6, 0xb66, 0xbe6, 0xc66, 0xce6, 0xd66,
    0xde6, 0xe50, 0xed0, 0xf20, 0x1040, 0x1090, 0x17e0, 0x1810, 0x1946, 0x19d0, 0x1a80, 0x1a90,
    0x1b50, 0x1bb0, 0x1c40, 0x1c50, 0xa620, 0xa8d0, 0xa900, 0xa9d0, 0xa9f0, 0xaa50, 0xabf0,
    0xff10, 0x104a0, 0x10d30, 0x11066, 0x110f0, 0x11136, 0x111d0, 0x112f0, 0x11450, 0x114d0,
    0x11650, 0x116c0, 0x11730, 0x118e0, 0x11950, 0x11c50, 0x11d50, 0x11da0, 0x16a60, 0x16ac0,
    0x16b50, 0x1d7ce, 0x1d7d8, 0x1d7e2, 0x1d7ec, 0x1d7f6, 0x1e140, 0x1e2f0, 0x1e950, 0x1fbf0]

/-- The value of a character `\d` matches. -/
def unicodeDigit (c : Nat) : Option Nat :=
  (digitZeros.find? fun z => z ≤ c && c ≤ z + 9).map (c - ·)

/-- The value of a character `[0-9]` matches. -/
def asciiDigit (c : Nat) : Option Nat := if isDigit c then some (c - 48) else none

theorem unicodeDigit_of_isDigit {c : Nat} (h : isDigit c = true) : unicodeDigit c = some (c - 48) := by
  simp only [isDigit, Bool.and_eq_true, decide_eq_true_eq] at h
  simp [unicodeDigit, digitZeros, h.1, h.2]

/-- A two-digit field of `strptime`: the tens are ASCII, and so are the units when the
tens are one of `strict`. -/
def twoDigits (strict : List Nat) (a b : Nat) : Option Nat :=
  match asciiDigit a with
  | none => none
  | some t => (if t ∈ strict then asciiDigit b else unicodeDigit b).map (10 * t + ·)

/-- `%Y`: four digits of any script. -/
def fourDigits (a b c d : Nat) : Option Nat :=
  match unicodeDigit a, unicodeDigit b, unicodeDigit c, unicodeDigit d with
  | some w, some x, some y, some z => some (1000 * w + 100 * x + 10 * y + z)
  | _, _, _, _ => none

/-- `datetime(y, mo, d, h, mi, s)`; `none` is the `ValueError`. -/
def civil (y mo d h mi s : Nat) : Option Instant :=
  if y < 1 ∨ 9999 < y ∨ mo < 1 ∨ 12 < mo ∨ d < 1 ∨
      (monthLengths (isLeap y)).getD (mo - 1) 0 < d ∨ 23 < h ∨ 59 < mi ∨ 59 < s then none
  else
    let n := (daysBeforeYear y + daysBeforeMonth (monthLengths (isLeap y)) (mo - 1) + (d - 1)) * 86400
      + h * 3600 + mi * 60 + s
    if hn : n ≤ maxSecond then some ⟨n, hn⟩ else none

/-- The text `_parse_utc` accepts and the instant it reads from it. -/
def parseUtc : Str → Option Instant
  | [y1, y2, y3, y4, 45, m1, m2, 45, d1, d2, 84, h1, h2, 58, i1, i2, 58, s1, s2, 90] =>
      match fourDigits y1 y2 y3 y4, twoDigits [0, 1] m1 m2, twoDigits [0, 3] d1 d2,
        twoDigits [2] h1 h2, twoDigits [] i1 i2, twoDigits [6] s1 s2 with
      | some y, some mo, some d, some h, some mi, some s => civil y mo d h mi s
      | _, _, _, _, _, _ => none
  | _ => none

theorem twoDigits_pad (strict : List Nat) {n : Nat} (h : n < 100) :
    twoDigits strict (48 + n / 10 % 10) (48 + n % 10) = some n := by
  have ha : isDigit (48 + n / 10 % 10) = true := by
    simp only [isDigit, Bool.and_eq_true, decide_eq_true_eq]; omega
  have hb : isDigit (48 + n % 10) = true := by
    simp only [isDigit, Bool.and_eq_true, decide_eq_true_eq]; omega
  simp only [twoDigits, asciiDigit, ha, hb, if_true, unicodeDigit_of_isDigit hb, ite_self,
    Option.map_some, Option.some.injEq]
  omega

theorem fourDigits_pad {n : Nat} (h : n < 10000) :
    fourDigits (48 + n / 10 / 10 / 10 % 10) (48 + n / 10 / 10 % 10) (48 + n / 10 % 10)
      (48 + n % 10) = some n := by
  have hd : ∀ k : Nat, unicodeDigit (48 + k % 10) = some (k % 10) := by
    intro k
    rw [unicodeDigit_of_isDigit
      (by simp only [isDigit, Bool.and_eq_true, decide_eq_true_eq]; omega)]
    simp
  simp only [fourDigits, hd, Option.some.injEq]
  omega

theorem civil_of_parts {y mo d h mi s n : Nat} (hy : 1 ≤ y ∧ y ≤ 9999)
    (hmo : 1 ≤ mo ∧ mo ≤ 12) (hd : 1 ≤ d ∧ d ≤ (monthLengths (isLeap y)).getD (mo - 1) 0)
    (hh : h ≤ 23) (hmi : mi ≤ 59) (hs : s ≤ 59) (hn : n ≤ maxSecond)
    (heq : (daysBeforeYear y + daysBeforeMonth (monthLengths (isLeap y)) (mo - 1) + (d - 1)) * 86400
      + h * 3600 + mi * 60 + s = n) :
    civil y mo d h mi s = some ⟨n, hn⟩ := by
  unfold civil
  rw [if_neg (by omega)]
  simp only [heq, dif_pos hn]

/-- The time of a day in hours, minutes and seconds. -/
theorem clock_parts {r : Nat} (hr : r < 86400) :
    r / 3600 ≤ 23 ∧ r / 60 % 60 ≤ 59 ∧ r % 60 ≤ 59 ∧ r / 3600 * 3600 + r / 60 % 60 * 60 + r % 60 = r := by
  omega

/-- No instant is after the year 9999. -/
theorem year_le {day y : Nat} (hday : day ≤ 3652058) (hy : daysBeforeYear y ≤ day) : y ≤ 9999 := by
  simp only [daysBeforeYear] at hy
  omega

/-- The fields an instant is printed with, and that they stand for it. -/
theorem formatUtc_fields (t : Instant) : ∃ y mo d h mi s, y ≤ 9999 ∧ mo ≤ 12 ∧ d ≤ 31 ∧ h ≤ 23 ∧
    mi ≤ 59 ∧ s ≤ 59 ∧ civil y mo d h mi s = some t ∧
    formatUtc t = padDigits 4 y ++ 45 :: padDigits 2 mo ++ 45 :: padDigits 2 d ++ 84 ::
      padDigits 2 h ++ 58 :: padDigits 2 mi ++ 58 :: padDigits 2 s ++ [90] := by
  simp only [formatUtc]
  have hmax : t.second ≤ 315537897599 := t.le_max
  set day := t.second / 86400 with hday
  obtain ⟨hy1, hylo, hyhi⟩ := yearOf_spec day
  set y := yearOf day with hy
  have hy2 : y ≤ 9999 := year_le (Nat.lt_succ_iff.mp ((Nat.div_lt_iff_lt_mul (by decide)).mpr (Nat.lt_succ_iff.mpr hmax))) hylo
  set ls := monthLengths (isLeap y) with hls
  set doy := day - daysBeforeYear y with hdoy
  obtain ⟨k, l, hget, hm, hlo, hhi, hsum⟩ := monthDay_spec ls 1 doy
    (by rw [hls, monthLengths_sum]; exact Nat.sub_lt_left_of_lt_add hylo (by rw [← Nat.add_assoc]; exact hyhi))
  set md := monthDay ls 1 doy with hmd
  have hk : k < 12 := (List.getElem?_eq_some_iff.mp hget).1
  have hl31 : l ≤ 31 := monthLengths_le _ l (List.mem_of_getElem? hget)
  have hgetD : ls.getD (md.1 - 1) 0 = l := by
    rw [hm, Nat.add_sub_cancel_left, List.getD_eq_getElem?_getD, hget]
    rfl
  obtain ⟨hh, hmi, hs, hclock⟩ := clock_parts (Nat.mod_lt t.second (show 0 < 86400 by decide))
  have hmonth : md.1 - 1 = k := by rw [hm, Nat.add_sub_cancel_left]
  refine ⟨y, md.1, md.2, t.second % 86400 / 3600, t.second % 86400 / 60 % 60, t.second % 86400 % 60, hy2, ?_, hhi.trans hl31,
    hh, hmi, hs, ?_, rfl⟩
  · rw [hm, Nat.add_comm]
    exact hk
  refine civil_of_parts ⟨hy1, hy2⟩ ⟨?_, ?_⟩ ⟨hlo, ?_⟩ hh hmi hs t.le_max ?_
  · rw [hm]
    exact Nat.le_add_right 1 k
  · rw [hm, Nat.add_comm]
    exact hk
  · rw [hgetD]
    exact hhi
  · rw [← hls, hmonth, Nat.add_assoc (daysBeforeYear y), hsum, hdoy, Nat.add_sub_cancel' hylo, Nat.add_assoc,
      Nat.add_assoc, ← Nat.add_assoc (t.second % 86400 / 3600 * 3600), hclock]
    exact Nat.div_add_mod' t.second 86400

/-- **Printing an instant and reading the text gives the instant back.** -/
@[simp] theorem parseUtc_formatUtc (t : Instant) : parseUtc (formatUtc t) = some t := by
  obtain ⟨y, mo, d, h, mi, s, hy, hmo, hd, hh, hmi, hs, hcivil, htext⟩ := formatUtc_fields t
  rw [htext]
  simp only [padDigits, List.nil_append, List.cons_append, parseUtc]
  rw [fourDigits_pad (by omega), twoDigits_pad _ (by omega), twoDigits_pad _ (by omega),
    twoDigits_pad _ (by omega), twoDigits_pad _ (by omega), twoDigits_pad _ (by omega)]
  exact hcivil

theorem formatUtc_inj {t u : Instant} (h : formatUtc t = formatUtc u) : t = u := by
  have := congrArg parseUtc h
  simpa using this

theorem formatUtc_ascii (t : Instant) : ∀ c ∈ formatUtc t, 32 ≤ c ∧ c < 127 := by
  have hd : ∀ k n, ∀ c ∈ padDigits k n, 32 ≤ c ∧ c < 127 := by
    intro k n c hc
    have := padDigits_digits k n c hc
    simp only [isDigit, Bool.and_eq_true, decide_eq_true_eq] at this
    omega
  intro c hc
  simp only [formatUtc, List.append_assoc, List.cons_append, List.mem_append, List.mem_cons,
    List.not_mem_nil, or_false] at hc
  rcases hc with h | h | h | h | h | h | h | h | h | h | h | h <;>
    first | exact hd _ _ c h | omega

/-- Nothing in the text is escaped in a string literal. -/
theorem formatUtc_unquoted (t : Instant) : ∀ c ∈ formatUtc t, c ≠ 34 ∧ c ≠ 92 := by
  have hd : ∀ k n, ∀ c ∈ padDigits k n, c ≠ 34 ∧ c ≠ 92 := by
    intro k n c hc
    have := padDigits_digits k n c hc
    simp only [isDigit, Bool.and_eq_true, decide_eq_true_eq] at this
    omega
  intro c hc
  simp only [formatUtc, List.append_assoc, List.cons_append, List.mem_append, List.mem_cons,
    List.not_mem_nil, or_false] at hc
  rcases hc with h | h | h | h | h | h | h | h | h | h | h | h <;>
    first | exact hd _ _ c h | omega

@[simp] theorem formatUtc_length (t : Instant) : (formatUtc t).length = 20 := by
  simp [formatUtc]

end Lib
