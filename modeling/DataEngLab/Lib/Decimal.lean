/-
Python's `decimal` in its default context: 28 significant digits, halves to the even
neighbour, `InvalidOperation` raised and `Inexact` not.

A number keeps the exponent it was written with, so that `1.5` and `1.50` are equal and
print differently.
-/
import DataEngLab.Lib.Rounding
import DataEngLab.Lib.Utc

namespace Lib

/-- `(-1) ^ negative * coefficient * 10 ^ exponent` -/
structure Dec where
  negative : Bool
  coefficient : Nat
  exponent : Int

inductive Decimal where
  | finite (d : Dec)
  | infinite
  | nan

/-! ### Reading -/

/-- The characters `str.isspace` accepts. -/
def isPythonSpace (c : Nat) : Bool :=
  (9 ≤ c && c ≤ 13) || (28 ≤ c && c ≤ 32) || c == 0x85 || c == 0xA0 || c == 0x1680 ||
    (0x2000 ≤ c && c ≤ 0x200A) || c == 0x2028 || c == 0x2029 || c == 0x202F || c == 0x205F || c == 0x3000

/-- `s.strip()` -/
def strip (s : Str) : Str := ((s.dropWhile isPythonSpace).reverse.dropWhile isPythonSpace).reverse

/-- The text with its digits and spaces in ASCII and its underscores gone; `none` when some other
character is in it. -/
def numericAsAscii (s : Str) : Option Str :=
  ((strip s).filter (· != 95)).mapM fun c =>
    if c < 128 then some c
    else if isPythonSpace c then some 32
    else (unicodeDigit c).map (48 + ·)

def lowerAscii (s : Str) : Str := s.map fun c => if 65 ≤ c ∧ c ≤ 90 then c + 32 else c

/-- The digits of an exponent, with or without a sign. -/
def readExponent : Str → Option Int
  | 43 :: ds => if ds ≠ [] ∧ ds.all isDigit then some (digitsValue ds) else none
  | 45 :: ds => if ds ≠ [] ∧ ds.all isDigit then some (-(digitsValue ds)) else none
  | ds => if ds ≠ [] ∧ ds.all isDigit then some (digitsValue ds) else none

/-- Digits, with or without a point among them, and an exponent. -/
def readNumeral (negative : Bool) (s : Str) : Option Dec :=
  let whole := s.takeWhile isDigit
  let (fraction, rest) := match s.dropWhile isDigit with
    | 46 :: r => (r.takeWhile isDigit, r.dropWhile isDigit)
    | r => ([], r)
  let number (e : Int) : Option Dec :=
    if whole ++ fraction = [] then none
    else some ⟨negative, digitsValue (whole ++ fraction), e - fraction.length⟩
  match rest with
  | [] => number 0
  | 69 :: e => (readExponent e).bind number
  | 101 :: e => (readExponent e).bind number
  | _ => none

/-- The widest exponents the module works with. -/
def maxExponent : Int := 999999999999999999

def Dec.representable (d : Dec) : Bool :=
  d.exponent + digitCount d.coefficient - 1 ≤ maxExponent && -1999999999999999997 ≤ d.exponent

/-- `Decimal(s)`; `none` is `InvalidOperation`. -/
def Decimal.ofText (s : Str) : Option Decimal := do
  let t ← numericAsAscii s
  let (negative, body) := match t with
    | 43 :: r => (false, r)
    | 45 :: r => (true, r)
    | r => (false, r)
  let word := lowerAscii body
  if word = lit "inf" ∨ word = lit "infinity" then some .infinite
  else if (word.take 3 = lit "nan" ∧ (word.drop 3).all isDigit) ∨
      (word.take 4 = lit "snan" ∧ (word.drop 4).all isDigit) then some .nan
  else
    let d ← readNumeral negative body
    if d.representable then some (.finite d) else none

/-! ### Arithmetic -/

def precision : Nat := 28

/-- The number as a multiple of `10 ^ e`, for `e` at most its exponent. -/
def Dec.units (d : Dec) (e : Int) : Int :=
  let n : Int := d.coefficient * 10 ^ (d.exponent - e).toNat
  if d.negative then -n else n

/-- `a == b` -/
def Dec.same (a b : Dec) : Bool :=
  let e := min a.exponent b.exponent
  a.units e == b.units e

/-- `d > 0` -/
def Dec.positive (d : Dec) : Bool := !d.negative && d.coefficient != 0

/-- `d.quantize(Decimal(1).scaleb(e))`; `none` is `InvalidOperation`. -/
def Dec.quantize (d : Dec) (e : Int) : Option Dec :=
  let n := if e ≤ d.exponent then d.coefficient * 10 ^ (d.exponent - e).toNat
    else divHalfEven d.coefficient (10 ^ (e - d.exponent).toNat)
  if digitCount n ≤ precision then some ⟨d.negative, n, e⟩ else none

/-- A result with more digits than the context keeps, rounded. -/
def Dec.rounded (d : Dec) : Dec :=
  let extra := digitCount d.coefficient - precision
  let n := divHalfEven d.coefficient (10 ^ extra)
  if n = 10 ^ precision then ⟨d.negative, n / 10, d.exponent + extra + 1⟩
  else ⟨d.negative, n, d.exponent + extra⟩

/-- `a + b` -/
def Dec.add (a b : Dec) : Dec :=
  let e := min a.exponent b.exponent
  let n := a.units e + b.units e
  let negative := if n = 0 then a.negative && b.negative else n < 0
  Dec.rounded ⟨negative, n.natAbs, e⟩

/-- `format(d, "f")` of a number whose exponent is not positive. -/
def Dec.fixed (d : Dec) : Str :=
  let places := (-d.exponent).toNat
  let ds := decDigits d.coefficient
  let padded := List.replicate (places + 1 - ds.length) 48 ++ ds
  let whole := padded.take (padded.length - places)
  let sign : Str := if d.negative then [45] else []
  if places = 0 then sign ++ whole else sign ++ whole ++ 46 :: padded.drop (padded.length - places)

end Lib
