/-
`datetime.fromisoformat`, and instants finer than a second.

The reader takes the ISO 8601 forms the documentation lists: calendar and week dates with
or without dashes, any one character between date and time, a time of hours, minutes and
seconds with or without colons, a decimal fraction of the seconds that is cut at the
microsecond, and an offset of the same form.  Digits are ASCII.

`fromIsoFormat_formatUtc` is what its callers rest on: the text of a whole-second instant,
with its `Z` spelled as an offset, reads as that instant.
-/
import DataEngLab.Lib.Utc

namespace Lib

/-- Microseconds from 0001-01-01T00:00:00Z, in the range of `datetime`. -/
structure Moment where
  micros : Nat
  le_max : micros < (maxSecond + 1) * 1000000

instance : DecidableEq Moment := fun a b =>
  decidable_of_iff (a.micros = b.micros) (by cases a; cases b; simp)

instance : LE Moment := ⟨fun a b => a.micros ≤ b.micros⟩
instance : LT Moment := ⟨fun a b => a.micros < b.micros⟩
instance (a b : Moment) : Decidable (a ≤ b) := inferInstanceAs (Decidable (a.micros ≤ b.micros))
instance (a b : Moment) : Decidable (a < b) := inferInstanceAs (Decidable (a.micros < b.micros))

@[simp] theorem Moment.le_iff {a b : Moment} : a ≤ b ↔ a.micros ≤ b.micros := Iff.rfl
@[simp] theorem Moment.lt_iff {a b : Moment} : a < b ↔ a.micros < b.micros := Iff.rfl

theorem Moment.ext_micros {a b : Moment} (h : a.micros = b.micros) : a = b := by
  cases a; cases b; simp_all

/-- The second a moment lies in: what `isoformat(timespec="seconds")` prints of it. -/
def Moment.instant (m : Moment) : Instant :=
  ⟨m.micros / 1000000, Nat.le_of_lt_succ (Nat.div_lt_of_lt_mul (by
    rw [Nat.mul_comm]; exact m.le_max))⟩

def Instant.moment (t : Instant) : Moment :=
  ⟨t.second * 1000000, by have := t.le_max; omega⟩

@[simp] theorem Instant.moment_micros (t : Instant) : t.moment.micros = t.second * 1000000 := rfl

@[simp] theorem Moment.instant_second (m : Moment) : m.instant.second = m.micros / 1000000 := rfl

@[simp] theorem Instant.moment_instant (t : Instant) : t.moment.instant = t :=
  Instant.ext_second (by simp)

/-! ### Numbers of fixed width -/

def twoAscii (a b : Nat) : Option Nat :=
  match asciiDigit a, asciiDigit b with
  | some t, some u => some (10 * t + u)
  | _, _ => none

def fourAscii (a b c d : Nat) : Option Nat :=
  match twoAscii a b, twoAscii c d with
  | some t, some u => some (100 * t + u)
  | _, _ => none

/-! ### Dates -/

/-- The day of a date, counted from 0001-01-01; `none` is the `ValueError`. -/
def civilDay (y mo d : Nat) : Option Nat := (civil y mo d 0 0 0).map (·.second / 86400)

/-- The first of January is this many days after a Monday. -/
def firstWeekday (y : Nat) : Nat := daysBeforeYear y % 7

/-- ISO years of 53 weeks start on a Thursday, or on a Wednesday when they are leap years. -/
def hasWeek53 (y : Nat) : Bool := firstWeekday y == 3 || firstWeekday y == 2 && isLeap y

/-- The day of an ISO week date. -/
def weekDay (y week day : Nat) : Option Nat :=
  if y < 1 ∨ 9999 < y ∨ week < 1 ∨ 53 < week ∨ week = 53 ∧ hasWeek53 y = false ∨ day < 1 ∨ 7 < day then
    none
  else
    let monday : Int := daysBeforeYear y - firstWeekday y + if 3 < firstWeekday y then 7 else 0
    let n := monday + (7 * (week - 1) + (day - 1) : Nat)
    if 0 ≤ n ∧ n * 86400 ≤ maxSecond then some n.toNat else none

/-- Where the date ends.  A digit after `YYYY-Www-` is taken for the day of the week, and an even
number of characters up to the last digit of `YYYYWww…` for a week without a day. -/
def dateLength (s : Str) : Nat :=
  if s.length = 7 then 7
  else if s[4]? = some 45 then
    if s[5]? = some 87 then
      if 8 < s.length ∧ s[8]? = some 45 then
        if (s[10]?.map isDigit) = some true then 8 else 10
      else 8
    else 10
  else if s[4]? = some 87 then
    let digits := 7 + ((s.drop 7).takeWhile isDigit).length
    if digits < 9 then digits else if digits % 2 = 0 then 7 else 8
  else 8

def isoDate : Str → Option Nat
  | [y1, y2, y3, y4, 45, 87, w1, w2] =>
      match fourAscii y1 y2 y3 y4, twoAscii w1 w2 with
      | some y, some w => weekDay y w 1
      | _, _ => none
  | [y1, y2, y3, y4, 45, 87, w1, w2, 45, d] =>
      match fourAscii y1 y2 y3 y4, twoAscii w1 w2, asciiDigit d with
      | some y, some w, some d => weekDay y w d
      | _, _, _ => none
  | [y1, y2, y3, y4, 87, w1, w2] =>
      match fourAscii y1 y2 y3 y4, twoAscii w1 w2 with
      | some y, some w => weekDay y w 1
      | _, _ => none
  | [y1, y2, y3, y4, 87, w1, w2, d] =>
      match fourAscii y1 y2 y3 y4, twoAscii w1 w2, asciiDigit d with
      | some y, some w, some d => weekDay y w d
      | _, _, _ => none
  | [y1, y2, y3, y4, 45, m1, m2, 45, d1, d2] =>
      match fourAscii y1 y2 y3 y4, twoAscii m1 m2, twoAscii d1 d2 with
      | some y, some mo, some d => civilDay y mo d
      | _, _, _ => none
  | [y1, y2, y3, y4, m1, m2, d1, d2] =>
      match fourAscii y1 y2 y3 y4, twoAscii m1 m2, twoAscii d1 d2 with
      | some y, some mo, some d => civilDay y mo d
      | _, _, _ => none
  | _ => none

/-! ### Times -/

/-- Hours, minutes, seconds and microseconds, none of them checked. -/
structure Clock where
  hour : Nat
  minute : Nat
  second : Nat
  micro : Nat

/-- The fraction after the seconds, cut at the microsecond. -/
def isoFraction : Str → Option Nat
  | [] => some 0
  | c :: ds =>
      if (c = 46 ∨ c = 44) ∧ ds ≠ [] ∧ ds.all isDigit then
        some (digitsValue (ds.take 6) * 10 ^ (6 - (ds.take 6).length))
      else none

/-- `HH[:MM[:SS[.ffffff]]]`, or the same without colons. -/
def isoClock : Str → Option Clock
  | [h1, h2] => (twoAscii h1 h2).map fun h => ⟨h, 0, 0, 0⟩
  | [h1, h2, 58, m1, m2] =>
      match twoAscii h1 h2, twoAscii m1 m2 with
      | some h, some m => some ⟨h, m, 0, 0⟩
      | _, _ => none
  | h1 :: h2 :: 58 :: m1 :: m2 :: 58 :: s1 :: s2 :: f =>
      match twoAscii h1 h2, twoAscii m1 m2, twoAscii s1 s2, isoFraction f with
      | some h, some m, some s, some u => some ⟨h, m, s, u⟩
      | _, _, _, _ => none
  | [h1, h2, m1, m2] =>
      match twoAscii h1 h2, twoAscii m1 m2 with
      | some h, some m => some ⟨h, m, 0, 0⟩
      | _, _ => none
  | h1 :: h2 :: m1 :: m2 :: s1 :: s2 :: f =>
      match twoAscii h1 h2, twoAscii m1 m2, twoAscii s1 s2, isoFraction f with
      | some h, some m, some s, some u => some ⟨h, m, s, u⟩
      | _, _, _, _ => none
  | _ => none

def Clock.micros (c : Clock) : Nat :=
  ((c.hour * 60 + c.minute) * 60 + c.second) * 1000000 + c.micro

def Clock.inDay (c : Clock) : Bool := c.hour ≤ 23 && c.minute ≤ 59 && c.second ≤ 59

/-- The sign that starts an offset. -/
def startsOffset (c : Nat) : Bool := c == 43 || c == 45 || c == 90

/-- A time and the offset after it in microseconds, when there is one; it is less than a day. -/
def isoTime (s : Str) : Option (Clock × Option Int) :=
  match isoClock (s.takeWhile fun c => !startsOffset c) with
  | none => none
  | some time =>
      match s.dropWhile fun c => !startsOffset c with
      | [] => some (time, none)
      | [90] => some (time, some 0)
      | sign :: tz =>
          match isoClock tz with
          | none => none
          | some c =>
              if sign = 90 ∨ 86400000000 ≤ c.micros then none
              else some (time, some (if sign = 45 then -(c.micros : Int) else c.micros))

/-- `datetime.fromisoformat(text)`: the wall clock, and the offset from UTC when there is a time
zone; `none` is the `ValueError`. -/
def fromIsoFormat (s : Str) : Option (Moment × Option Int) :=
  if s.length < 7 then none
  else
    let moment (day : Nat) (c : Clock) (offset : Option Int) : Option (Moment × Option Int) :=
      if h : c.inDay = true ∧ day * 86400000000 + c.micros < (maxSecond + 1) * 1000000 then
        some (⟨day * 86400000000 + c.micros, h.2⟩, offset)
      else none
    match isoDate (s.take (dateLength s)), s.drop (dateLength s + 1) with
    | none, _ => none
    | some day, [] => moment day ⟨0, 0, 0, 0⟩ none
    | some day, time =>
        match isoTime time with
        | none => none
        | some (c, offset) => moment day c offset

/-! ### Reading what was printed -/

theorem twoAscii_pad {n : Nat} (h : n < 100) :
    twoAscii (48 + n / 10 % 10) (48 + n % 10) = some n := by
  have ha : isDigit (48 + n / 10 % 10) = true := by
    simp only [isDigit, Bool.and_eq_true, decide_eq_true_eq]; omega
  have hb : isDigit (48 + n % 10) = true := by
    simp only [isDigit, Bool.and_eq_true, decide_eq_true_eq]; omega
  simp only [twoAscii, asciiDigit, ha, hb, if_true, Option.some.injEq]
  omega

theorem fourAscii_pad {n : Nat} (h : n < 10000) :
    fourAscii (48 + n / 10 / 10 / 10 % 10) (48 + n / 10 / 10 % 10) (48 + n / 10 % 10)
      (48 + n % 10) = some n := by
  have hhi : twoAscii (48 + n / 10 / 10 / 10 % 10) (48 + n / 10 / 10 % 10) = some (n / 100) := by
    rw [show n / 10 / 10 = n / 100 by omega]
    exact twoAscii_pad (n := n / 100) (by omega)
  have hlo : twoAscii (48 + n / 10 % 10) (48 + n % 10) = some (n % 100) := by
    have := twoAscii_pad (n := n % 100) (by omega)
    rwa [show n % 100 / 10 % 10 = n / 10 % 10 by omega, show n % 100 % 10 = n % 10 by omega] at this
  simp only [fourAscii, hhi, hlo, Option.some.injEq]
  omega

/-- `text.replace("Z", "+00:00")` -/
def zuluAsOffset (s : Str) : Str := s.flatMap fun c => if c = 90 then lit "+00:00" else [c]

theorem zuluAsOffset_digits {k n : Nat} (r : Str) :
    zuluAsOffset (padDigits k n ++ r) = padDigits k n ++ zuluAsOffset r := by
  have hpad : zuluAsOffset (padDigits k n) = padDigits k n := by
    unfold zuluAsOffset
    refine (List.flatMap_congr fun c hc => ?_).trans (List.flatMap_singleton' _)
    have := padDigits_digits k n c hc
    simp only [isDigit, Bool.and_eq_true, decide_eq_true_eq] at this
    exact if_neg (by omega)
  rw [zuluAsOffset, List.flatMap_append]
  exact congrArg (· ++ _) hpad

theorem zuluAsOffset_cons {c : Nat} (hc : c ≠ 90) (r : Str) :
    zuluAsOffset (c :: r) = c :: zuluAsOffset r := by
  rw [zuluAsOffset, List.flatMap_cons, if_neg hc]
  rfl

theorem civil_day {y mo d h mi s : Nat} {t : Instant} (hc : civil y mo d h mi s = some t) :
    ∃ day, civilDay y mo d = some day ∧ h ≤ 23 ∧ mi ≤ 59 ∧ s ≤ 59 ∧
      t.second = day * 86400 + (h * 60 + mi) * 60 + s := by
  unfold civil at hc
  by_cases hr : y < 1 ∨ 9999 < y ∨ mo < 1 ∨ 12 < mo ∨ d < 1 ∨
      (monthLengths (isLeap y)).getD (mo - 1) 0 < d ∨ 23 < h ∨ 59 < mi ∨ 59 < s
  · rw [if_pos hr] at hc; cases hc
  rw [if_neg hr] at hc
  simp only at hc
  generalize hn : daysBeforeYear y + daysBeforeMonth (monthLengths (isLeap y)) (mo - 1) + (d - 1) = n at hc
  split at hc
  · rename_i hle
    cases hc
    have hday : ¬ (y < 1 ∨ 9999 < y ∨ mo < 1 ∨ 12 < mo ∨ d < 1 ∨
        (monthLengths (isLeap y)).getD (mo - 1) 0 < d ∨ 23 < 0 ∨ 59 < 0 ∨ 59 < 0) := by
      omega
    refine ⟨n, ?_, by omega, by omega, by omega, ?_⟩
    · rw [civilDay, civil, if_neg hday]
      simp only [hn]
      have hle' : n * 86400 + 0 * 3600 + 0 * 60 + 0 ≤ maxSecond := by
        simp only [Nat.zero_mul, Nat.add_zero]
        refine Nat.le_trans (Nat.le_add_right (n * 86400) (h * 3600 + (mi * 60 + s))) ?_
        rwa [← Nat.add_assoc, ← Nat.add_assoc]
      rw [dif_pos hle', Option.map_some, Option.some.injEq]
      simp only
      omega
    · simp only
      omega
  · cases hc

/-- A date with dashes, a time with colons and the offset zero. -/
theorem fromIsoFormat_extended {y1 y2 y3 y4 m1 m2 d1 d2 h1 h2 i1 i2 s1 s2 y mo d h mi s day : Nat}
    (hy : fourAscii y1 y2 y3 y4 = some y) (hmo : twoAscii m1 m2 = some mo)
    (hd : twoAscii d1 d2 = some d) (hh : twoAscii h1 h2 = some h) (hmi : twoAscii i1 i2 = some mi)
    (hs : twoAscii s1 s2 = some s) (hweek : m1 ≠ 87) (hday : civilDay y mo d = some day)
    (hsign : ∀ c ∈ [h1, h2, i1, i2, s1, s2], startsOffset c = false) {m : Moment}
    (hclock : h ≤ 23 ∧ mi ≤ 59 ∧ s ≤ 59)
    (hm : m.micros = day * 86400000000 + ((h * 60 + mi) * 60 + s) * 1000000) :
    fromIsoFormat [y1, y2, y3, y4, 45, m1, m2, 45, d1, d2, 84, h1, h2, 58, i1, i2, 58, s1, s2,
      43, 48, 48, 58, 48, 48] = some (m, some 0) := by
  simp only [List.mem_cons, List.not_mem_nil, or_false, forall_eq_or_imp, forall_eq] at hsign
  obtain ⟨e1, e2, e3, e4, e5, e6⟩ := hsign
  have hdate : isoDate [y1, y2, y3, y4, 45, m1, m2, 45, d1, d2] = some day := by
    unfold isoDate
    split
    case h_7 hne _ => exact absurd rfl (hne _ _ _ _ _ _ _ _)
    all_goals simp_all
  have hzero : twoAscii 48 48 = some 0 := by decide
  have htime : isoTime [h1, h2, 58, i1, i2, 58, s1, s2, 43, 48, 48, 58, 48, 48] =
      some (⟨h, mi, s, 0⟩, some 0) := by
    have hspan : [h1, h2, 58, i1, i2, 58, s1, s2, 43, 48, 48, 58, 48, 48].takeWhile
          (fun c => !startsOffset c) = [h1, h2, 58, i1, i2, 58, s1, s2] ∧
        [h1, h2, 58, i1, i2, 58, s1, s2, 43, 48, 48, 58, 48, 48].dropWhile
          (fun c => !startsOffset c) = [43, 48, 48, 58, 48, 48] := by
      have e58 : startsOffset 58 = false := rfl
      have e43 : startsOffset 43 = true := rfl
      simp only [List.takeWhile_cons, List.dropWhile_cons, e1, e2, e3, e4, e5, e6, e58, e43, Bool.not_false,
        Bool.not_true, if_true, Bool.false_eq_true, if_false, and_self]
    rw [isoTime, hspan.1, hspan.2]
    simp only [isoClock, hh, hmi, hs, isoFraction, hzero]
    rfl
  have hlen : dateLength [y1, y2, y3, y4, 45, m1, m2, 45, d1, d2, 84, h1, h2, 58, i1, i2, 58, s1, s2,
      43, 48, 48, 58, 48, 48] = 10 := by
    simp [dateLength, hweek]
  rw [fromIsoFormat, if_neg (by simp), hlen]
  simp only [List.take_succ_cons, List.take_zero, List.drop_succ_cons, List.drop_zero, hdate, htime]
  have hin : (Clock.mk h mi s 0).inDay = true := by simp [Clock.inDay, hclock]
  have hmicros : day * 86400000000 + (Clock.mk h mi s 0).micros = m.micros := by
    rw [hm, Clock.micros, Nat.add_zero]
  have hrange : day * 86400000000 + (Clock.mk h mi s 0).micros < (maxSecond + 1) * 1000000 :=
    hmicros.trans_lt m.le_max
  rw [dif_pos ⟨hin, hrange⟩]
  exact congrArg (fun x => some (x, some 0)) (Moment.ext_micros hmicros)

/-- **The text of an instant reads as that instant, in UTC.** -/
theorem fromIsoFormat_formatUtc (t : Instant) :
    fromIsoFormat (zuluAsOffset (formatUtc t)) = some (t.moment, some 0) := by
  obtain ⟨y, mo, d, h, mi, s, hy, hmo, hd, hh, hmi, hs, hcivil, htext⟩ := formatUtc_fields t
  obtain ⟨day, hday, -, -, -, hsecond⟩ := civil_day hcivil
  have hle := t.le_max
  have hz : zuluAsOffset (formatUtc t) = padDigits 4 y ++ 45 :: padDigits 2 mo ++ 45 :: padDigits 2 d ++
      84 :: padDigits 2 h ++ 58 :: padDigits 2 mi ++ 58 :: padDigits 2 s ++ lit "+00:00" := by
    rw [htext]
    simp only [List.append_assoc, List.cons_append, zuluAsOffset_digits,
      zuluAsOffset_cons (show 45 ≠ 90 by decide), zuluAsOffset_cons (show 84 ≠ 90 by decide),
      zuluAsOffset_cons (show 58 ≠ 90 by decide)]
    rfl
  have hsign : ∀ k, startsOffset (48 + k % 10) = false := by
    intro k
    simp only [startsOffset, Bool.or_eq_false_iff, beq_eq_false_iff_ne]
    omega
  rw [hz]
  simp only [padDigits, List.nil_append, List.cons_append]
  refine fromIsoFormat_extended (fourAscii_pad (by omega)) (twoAscii_pad (by omega))
    (twoAscii_pad (by omega)) (twoAscii_pad (by omega)) (twoAscii_pad (by omega))
    (twoAscii_pad (by omega)) (by omega) hday ?_ ⟨hh, hmi, hs⟩ ?_
  · simp [hsign]
  · rw [Instant.moment_micros, hsecond]
    omega

end Lib
