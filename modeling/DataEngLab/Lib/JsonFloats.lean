/-
The floats of a decoded value.

A reader turns a numeral with a fraction or an exponent into the nearest double, and one
that is too large into an infinity, without an error: a hook for constants never sees it.
`Json.finite` asks at every depth that no numeral does that.
-/
import DataEngLab.Lib.Decimal
import DataEngLab.Lib.Json

namespace Lib

/-- The least magnitude that rounds to infinity: halfway from the largest double to `2 ^ 1024`. -/
def doubleLimit : Nat := 2 ^ 1024 - 2 ^ 970

/-- The magnitude is at least the limit.  Only numbers of 309 digits before the point need a comparison. -/
def Dec.overflows (d : Dec) : Bool :=
  let digits : Int := digitCount d.coefficient + d.exponent
  if d.coefficient = 0 ∨ digits ≤ 308 then false
  else if 310 ≤ digits then true
  else doubleLimit * 10 ^ (-d.exponent).toNat ≤ d.coefficient * 10 ^ d.exponent.toNat

/-- `not math.isfinite(x)` of the float that a numeral is read as; what is no numeral is a constant. -/
def floatOverflows (text : Str) : Bool :=
  let numeral := match text with
    | 45 :: rest => readNumeral true rest
    | rest => readNumeral false rest
  match numeral with
  | some d => d.overflows
  | none => true

mutual
/-- No float in a value is an infinity or no number. -/
def Json.finite : Json → Bool
  | .float text => !floatOverflows text
  | .arr xs => finiteElems xs
  | .obj kvs => finiteMembers kvs
  | _ => true

def finiteElems : List Json → Bool
  | [] => true
  | x :: xs => x.finite && finiteElems xs

def finiteMembers : List (Str × Json) → Bool
  | [] => true
  | (_, v) :: kvs => v.finite && finiteMembers kvs
end

mutual
/-- A value with other texts for its floats. -/
def Json.mapFloats (f : Str → Str) : Json → Json
  | .float text => .float (f text)
  | .arr xs => .arr (mapFloatElems f xs)
  | .obj kvs => .obj (mapFloatMembers f kvs)
  | v => v

def mapFloatElems (f : Str → Str) : List Json → List Json
  | [] => []
  | x :: xs => x.mapFloats f :: mapFloatElems f xs

def mapFloatMembers (f : Str → Str) : List (Str × Json) → List (Str × Json)
  | [] => []
  | (k, v) :: kvs => (k, v.mapFloats f) :: mapFloatMembers f kvs
end

mutual
/-- The texts of floats have nothing to do with integers. -/
theorem Json.intsFit_mapFloats (f : Str → Str) : ∀ v : Json, (v.mapFloats f).intsFit = v.intsFit
  | .null => rfl
  | .bool _ => rfl
  | .int _ => rfl
  | .float _ => rfl
  | .str _ => rfl
  | .arr xs => elemsFit_mapFloats f xs
  | .obj kvs => membersFit_mapFloats f kvs

theorem elemsFit_mapFloats (f : Str → Str) : ∀ xs : List Json, elemsFit (mapFloatElems f xs) = elemsFit xs
  | [] => rfl
  | x :: xs => by rw [mapFloatElems, elemsFit, elemsFit, Json.intsFit_mapFloats f x, elemsFit_mapFloats f xs]

theorem membersFit_mapFloats (f : Str → Str) : ∀ kvs : List (Str × Json),
    membersFit (mapFloatMembers f kvs) = membersFit kvs
  | [] => rfl
  | (_, v) :: kvs => by
      rw [mapFloatMembers, membersFit, membersFit, Json.intsFit_mapFloats f v, membersFit_mapFloats f kvs]
end

def Json.isContainer : Json → Bool
  | .arr _ => true
  | .obj _ => true
  | _ => false

/-- A value that is neither a float nor a container is finite. -/
theorem Json.finite_of_scalar {v : Json} (hv : v.isContainer = false)
    (hfloat : ∀ text, v = .float text → floatOverflows text = false) : v.finite = true := by
  cases v with
  | arr xs => cases hv
  | obj kvs => cases hv
  | float text =>
      rw [Json.finite, hfloat text rfl]
      rfl
  | _ => rfl

example : floatOverflows (lit "1e999") = true ∧ floatOverflows (lit "-1.7976931348623157e308") = false := by
  decide +kernel

end Lib
