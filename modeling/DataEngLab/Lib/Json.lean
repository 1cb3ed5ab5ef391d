/-
Python's `json` module, as far as a program that never uses floats sees it.

`dumps` is `json.dumps(v, sort_keys=True, separators=(",", ":"), ensure_ascii=True)`
and `loads` is `json.loads` on text, with the two hooks a strict reader installs: one
that refuses a repeated key and one that refuses `NaN` and the infinities.  Floats are
read, so that a reader can refuse them, but carried only as their text.

Three limits of the runtime are part of the behaviour.  An integer of more than 4300
digits neither prints nor reads (`ValueError`), containers nested past the recursion
limit do not read (`RecursionError`), and an astral character is printed as two
surrogate escapes which the reader joins.  The last is why `Str.Joined` appears below:
a string that already holds a high and a low surrogate side by side does not survive.
-/
import DataEngLab.Lib.Text

namespace Lib

/-- A decoded JSON value; an object's members are in insertion order. -/
inductive Json where
  | null
  | bool (b : Bool)
  | int (n : Int)
  | float (text : Str)
  | str (s : Str)
  | arr (xs : List Json)
  | obj (kvs : List (Str × Json))

instance : Inhabited Json := ⟨.null⟩

/-- `value[key]` of a dictionary, and `value.get(key)` when absence is handled. -/
def Json.get (key : String) : List (Str × Json) → Option Json
  | [] => none
  | (k, v) :: rest => if k = lit key then some v else get key rest

/-- `set(value) == {fields}`; the keys of a dictionary are distinct. -/
def Json.hasExactly (fields : List String) (kvs : List (Str × Json)) : Bool :=
  kvs.length == fields.length && fields.all fun f => (Json.get f kvs).isSome

/-! ### Text -/

/-- Code points that a reader gives back unchanged: no high surrogate stands directly
before a low one. -/
def Str.Joined : Str → Prop
  | [] => True
  | [c] => c < 0x110000
  | c :: d :: rest =>
      c < 0x110000 ∧ ¬ (isHighSurrogate c = true ∧ isLowSurrogate d = true) ∧ Str.Joined (d :: rest)

theorem Str.joined_of_ascii : ∀ {s : Str}, (∀ c ∈ s, c < 128) → Str.Joined s := by
  intro s
  induction s with
  | nil => intro _; trivial
  | cons c rest ih =>
      intro h
      have hc : c < 128 := h c (by simp)
      cases rest with
      | nil => show c < 0x110000; omega
      | cons d rest =>
          refine ⟨by omega, ?_, ih fun x hx => h x (List.mem_cons_of_mem c hx)⟩
          rintro ⟨hhigh, -⟩
          simp only [isHighSurrogate, Bool.and_eq_true, decide_eq_true_eq] at hhigh
          omega

theorem Str.Joined.tail {c : Nat} {s : Str} (h : Str.Joined (c :: s)) : Str.Joined s := by
  cases s with
  | nil => trivial
  | cons d rest => exact h.2.2

theorem Str.Joined.head {c : Nat} {s : Str} (h : Str.Joined (c :: s)) : c < 0x110000 := by
  cases s with
  | nil => exact h
  | cons d rest => exact h.1

/-! ### Printing -/

def hexDigit (d : Nat) : Nat := if d < 10 then 48 + d else 87 + d

/-- `\uXXXX` -/
def escapeUnit (u : Nat) : Str :=
  [92, 117, hexDigit (u / 4096 % 16), hexDigit (u / 256 % 16), hexDigit (u / 16 % 16),
    hexDigit (u % 16)]

/-- One character of a string literal under `ensure_ascii`. -/
def escapeChar (c : Nat) : Str :=
  if c = 34 then [92, 34]
  else if c = 92 then [92, 92]
  else if c = 10 then [92, 110]
  else if c = 13 then [92, 114]
  else if c = 9 then [92, 116]
  else if c = 12 then [92, 102]
  else if c = 8 then [92, 98]
  else if 32 ≤ c ∧ c ≤ 126 then [c]
  else if c < 0x10000 then escapeUnit c
  else escapeUnit (0xD800 + (c - 0x10000) / 1024) ++ escapeUnit (0xDC00 + (c - 0x10000) % 1024)

def printStr (s : Str) : Str := 34 :: s.flatMap escapeChar ++ [34]

def printInt (n : Int) : Str := if n < 0 then 45 :: decDigits n.natAbs else decDigits n.natAbs

mutual
/-- The compact text of a value, members in the order they are listed. -/
def Json.print : Json → Str
  | .null => lit "null"
  | .bool true => lit "true"
  | .bool false => lit "false"
  | .int n => printInt n
  | .float text => text
  | .str s => printStr s
  | .arr [] => [91, 93]
  | .arr (x :: xs) => 91 :: x.print ++ printElems xs
  | .obj [] => [123, 125]
  | .obj ((k, v) :: kvs) => 123 :: printStr k ++ 58 :: v.print ++ printMembers kvs

/-- The elements after the first, and the closing bracket. -/
def printElems : List Json → Str
  | [] => [93]
  | x :: xs => 44 :: x.print ++ printElems xs

/-- The members after the first, and the closing brace. -/
def printMembers : List (Str × Json) → Str
  | [] => [125]
  | (k, v) :: kvs => 44 :: printStr k ++ 58 :: v.print ++ printMembers kvs
end

mutual
/-- `sort_keys=True`: every object's members in the order of their keys. -/
def Json.sortKeys : Json → Json
  | .arr xs => .arr (sortElems xs)
  | .obj kvs => .obj ((sortMembers kvs).insertionSort fun a b => a.1 ≤ b.1)
  | v => v

def sortElems : List Json → List Json
  | [] => []
  | x :: xs => x.sortKeys :: sortElems xs

def sortMembers : List (Str × Json) → List (Str × Json)
  | [] => []
  | (k, v) :: kvs => (k, v.sortKeys) :: sortMembers kvs
end

/-- Most digits an integer may have to be printed or read. -/
def intDigitLimit : Nat := 4300

/-- The conversion between `int` and text succeeds. -/
def intFits (n : Int) : Bool := (decDigits n.natAbs).length ≤ intDigitLimit

mutual
def Json.intsFit : Json → Bool
  | .int n => intFits n
  | .arr xs => elemsFit xs
  | .obj kvs => membersFit kvs
  | _ => true

def elemsFit : List Json → Bool
  | [] => true
  | x :: xs => x.intsFit && elemsFit xs

def membersFit : List (Str × Json) → Bool
  | [] => true
  | (_, v) :: kvs => v.intsFit && membersFit kvs
end

/-- `json.dumps` with sorted keys, compact separators and ASCII output; `none` is the
`ValueError` of an integer that is too long. -/
def dumps (v : Json) : Option Str := if v.intsFit then some v.sortKeys.print else none

/-! ### Reading -/

/-- What `json.loads` raises. -/
inductive LoadsError where
  /-- `json.JSONDecodeError` -/
  | decode
  /-- `UnicodeDecodeError` -/
  | unicode
  /-- the `ValueError` of an integer literal that is too long -/
  | value
  /-- `RecursionError` -/
  | recursion
  /-- the pairs hook met a repeated key -/
  | duplicateKey
  /-- the constant hook met `NaN` or an infinity -/
  | constant
deriving DecidableEq

/-- The hooks a reader installs. -/
structure Hooks where
  uniqueKeys : Bool
  finiteOnly : Bool

/-- `json.loads(text)` -/
def Hooks.plain : Hooks := ⟨false, false⟩

/-- Containers nested deeper than this raise `RecursionError`; the frames already on the
stack when the reader is called are not counted. -/
def nestingLimit : Nat := 1000

def isSpace (c : Nat) : Bool := c == 32 || c == 9 || c == 10 || c == 13

def skipWs (s : Str) : Str := s.dropWhile isSpace

def hexValue (c : Nat) : Option Nat :=
  if isDigit c then some (c - 48)
  else if 97 ≤ c ∧ c ≤ 102 then some (c - 87)
  else if 65 ≤ c ∧ c ≤ 70 then some (c - 55)
  else none

/-- The four hexadecimal digits after `\u`, and what follows them. -/
def scanUnit : Str → Option (Nat × Str)
  | a :: b :: c :: d :: r =>
      match hexValue a, hexValue b, hexValue c, hexValue d with
      | some w, some x, some y, some z => some (4096 * w + 256 * x + 16 * y + z, r)
      | _, _, _, _ => none
  | _ => none

def simpleEscape (c : Nat) : Option Nat :=
  if c = 34 then some 34
  else if c = 92 then some 92
  else if c = 47 then some 47
  else if c = 98 then some 8
  else if c = 102 then some 12
  else if c = 110 then some 10
  else if c = 114 then some 13
  else if c = 116 then some 9
  else none

/-- After a high surrogate escape: a low one that directly follows is joined to it. -/
def joinLow (u : Nat) (r : Str) : Except LoadsError (Nat × Str) :=
  match r with
  | 92 :: 117 :: r' =>
      match scanUnit r' with
      | none => .error .decode
      | some (l, r'') =>
          if isLowSurrogate l then .ok (0x10000 + ((u - 0xD800) * 1024 + (l - 0xDC00)), r'')
          else .ok (u, r)
  | _ => .ok (u, r)

/-- One character of a string literal, escapes resolved. -/
def scanChar : Str → Except LoadsError (Nat × Str)
  | [] => .error .decode
  | 92 :: [] => .error .decode
  | 92 :: e :: r =>
      if e = 117 then
        match scanUnit r with
        | none => .error .decode
        | some (u, r') => if isHighSurrogate u then joinLow u r' else .ok (u, r')
      else
        match simpleEscape e with
        | some c => .ok (c, r)
        | none => .error .decode
  | c :: r => if c < 32 then .error .decode else .ok (c, r)

/-- A string literal from after its opening quote. -/
def scanString : Nat → Str → Except LoadsError (Str × Str)
  | 0, _ => .error .decode
  | fuel + 1, s =>
      match s with
      | 34 :: r => .ok ([], r)
      | _ =>
          match scanChar s with
          | .error e => .error e
          | .ok (c, r) =>
              match scanString fuel r with
              | .error e => .error e
              | .ok (cs, r') => .ok (c :: cs, r')

/-- An optional `.digits`. -/
def scanFraction (s : Str) : Str × Str :=
  match s with
  | 46 :: c :: r => if isDigit c then ((46 :: (c :: r).takeWhile isDigit), (c :: r).dropWhile isDigit)
      else ([], s)
  | _ => ([], s)

/-- An optional `[eE][-+]?digits`. -/
def scanExponent (s : Str) : Str × Str :=
  match s with
  | e :: r =>
      if e = 101 ∨ e = 69 then
        let sign := match r with
          | c :: _ => if c = 43 ∨ c = 45 then [c] else []
          | [] => []
        let r' := r.drop sign.length
        if (r'.takeWhile isDigit).isEmpty then ([], s)
        else (e :: sign ++ r'.takeWhile isDigit, r'.dropWhile isDigit)
      else ([], s)
  | [] => ([], s)

/-- What follows the integer part of a number decides between `int` and `float`. -/
def finishNumber (neg : Bool) (ds r : Str) : Except LoadsError (Json × Str) :=
  let frac := scanFraction r
  let expo := scanExponent frac.2
  if frac.1.isEmpty && expo.1.isEmpty then
    if ds.length ≤ intDigitLimit then
      .ok (.int (if neg then -(digitsValue ds : Int) else digitsValue ds), r)
    else .error .value
  else .ok (.float ((if neg then [45] else []) ++ ds ++ frac.1 ++ expo.1), expo.2)

def scanNatural (neg : Bool) (s : Str) : Except LoadsError (Json × Str) :=
  match s with
  | [] => .error .decode
  | c :: r =>
      if c = 48 then finishNumber neg [48] r
      else if isDigit c then finishNumber neg (s.takeWhile isDigit) (s.dropWhile isDigit)
      else .error .decode

/-- `NaN`, `Infinity` and `-Infinity`. -/
def constant (h : Hooks) (name : String) (r : Str) : Except LoadsError (Json × Str) :=
  if h.finiteOnly then .error .constant else .ok (.float (lit name), r)

/-- A value that is neither an array nor an object. -/
def scanScalar (h : Hooks) (s : Str) : Except LoadsError (Json × Str) :=
  match s with
  | 34 :: r =>
      match scanString (r.length + 1) r with
      | .error e => .error e
      | .ok (cs, r') => .ok (.str cs, r')
  | 110 :: 117 :: 108 :: 108 :: r => .ok (.null, r)
  | 116 :: 114 :: 117 :: 101 :: r => .ok (.bool true, r)
  | 102 :: 97 :: 108 :: 115 :: 101 :: r => .ok (.bool false, r)
  | 78 :: 97 :: 78 :: r => constant h "NaN" r
  | 73 :: 110 :: 102 :: 105 :: 110 :: 105 :: 116 :: 121 :: r => constant h "Infinity" r
  | 45 :: 73 :: 110 :: 102 :: 105 :: 110 :: 105 :: 116 :: 121 :: r => constant h "-Infinity" r
  | 45 :: r => scanNatural true r
  | _ => scanNatural false s

/-- `result[key] = value` -/
def dictInsert (k : Str) (v : Json) : List (Str × Json) → List (Str × Json)
  | [] => [(k, v)]
  | (k', v') :: rest => if k' = k then (k', v) :: rest else (k', v') :: dictInsert k v rest

/-- The dictionary of a list of pairs, or the refusal of the hook. -/
def makeDict (h : Hooks) (pairs : List (Str × Json)) : Except LoadsError Json :=
  if h.uniqueKeys && !(pairs.map Prod.fst).Nodup then .error .duplicateKey
  else .ok (.obj (pairs.foldl (fun d p => dictInsert p.1 p.2 d) []))

/-- The elements of a non-empty array, from the first one to the closing bracket. -/
def scanElems (value : Str → Except LoadsError (Json × Str)) :
    Nat → Str → Except LoadsError (List Json × Str)
  | 0, _ => .error .decode
  | fuel + 1, s =>
      match value s with
      | .error e => .error e
      | .ok (v, r) =>
          match skipWs r with
          | 93 :: r' => .ok ([v], r')
          | 44 :: r' =>
              match scanElems value fuel (skipWs r') with
              | .error e => .error e
              | .ok (vs, r'') => .ok (v :: vs, r'')
          | _ => .error .decode

/-- The members of a non-empty object, from the first key to the closing brace. -/
def scanMembers (value : Str → Except LoadsError (Json × Str)) :
    Nat → Str → Except LoadsError (List (Str × Json) × Str)
  | 0, _ => .error .decode
  | fuel + 1, s =>
      match s with
      | 34 :: r =>
          match scanString (r.length + 1) r with
          | .error e => .error e
          | .ok (k, r') =>
              match skipWs r' with
              | 58 :: r'' =>
                  match value (skipWs r'') with
                  | .error e => .error e
                  | .ok (v, r₁) =>
                      match skipWs r₁ with
                      | 125 :: r₂ => .ok ([(k, v)], r₂)
                      | 44 :: r₂ =>
                          match scanMembers value fuel (skipWs r₂) with
                          | .error e => .error e
                          | .ok (kvs, r₃) => .ok ((k, v) :: kvs, r₃)
                      | _ => .error .decode
              | _ => .error .decode
      | _ => .error .decode

/-- A value at its first character, with `depth` levels of nesting left. -/
def scanValue (h : Hooks) : Nat → Str → Except LoadsError (Json × Str)
  | depth, s =>
      match s with
      | 91 :: r =>
          match depth with
          | 0 => .error .recursion
          | depth' + 1 =>
              match skipWs r with
              | 93 :: r' => .ok (.arr [], r')
              | r' =>
                  match scanElems (scanValue h depth') (r'.length + 1) r' with
                  | .error e => .error e
                  | .ok (vs, r'') => .ok (.arr vs, r'')
      | 123 :: r =>
          match depth with
          | 0 => .error .recursion
          | depth' + 1 =>
              match skipWs r with
              | 125 :: r' =>
                  match makeDict h [] with
                  | .error e => .error e
                  | .ok v => .ok (v, r')
              | r' =>
                  match scanMembers (scanValue h depth') (r'.length + 1) r' with
                  | .error e => .error e
                  | .ok (kvs, r'') =>
                      match makeDict h kvs with
                      | .error e => .error e
                      | .ok v => .ok (v, r'')
      | _ => scanScalar h s

/-- `json.loads(text)` with the given hooks. -/
def loads (h : Hooks) (s : Str) : Except LoadsError Json :=
  match s with
  | 0xFEFF :: _ => .error .decode
  | _ =>
      match scanValue h nestingLimit (skipWs s) with
      | .error e => .error e
      | .ok (v, r) => if skipWs r = [] then .ok v else .error .decode

/-! ### Bytes -/

/-- `text.encode("ascii")` of text that is known to be ASCII. -/
def asciiBytes (s : Str) : Bytes := s.map UInt8.ofNat

def isContinuation (b : Nat) : Bool := 0x80 ≤ b && b ≤ 0xBF

/-- One character of UTF-8; `surrogates` is the `surrogatepass` error handler. -/
def utf8Step (surrogates : Bool) : List Nat → Option (Nat × List Nat)
  | [] => none
  | a :: r =>
      if a < 0x80 then some (a, r)
      else
        match r with
        | [] => none
        | b :: r₁ =>
            if 0xC2 ≤ a ∧ a ≤ 0xDF ∧ isContinuation b then some ((a - 0xC0) * 64 + (b - 0x80), r₁)
            else
              match r₁ with
              | [] => none
              | c :: r₂ =>
                  if 0xE0 ≤ a ∧ a ≤ 0xEF ∧ isContinuation b ∧ isContinuation c ∧
                      (a = 0xE0 → 0xA0 ≤ b) ∧ (a = 0xED → surrogates = false → b ≤ 0x9F) then
                    some ((a - 0xE0) * 4096 + (b - 0x80) * 64 + (c - 0x80), r₂)
                  else
                    match r₂ with
                    | [] => none
                    | d :: r₃ =>
                        if 0xF0 ≤ a ∧ a ≤ 0xF4 ∧ isContinuation b ∧ isContinuation c ∧
                            isContinuation d ∧ (a = 0xF0 → 0x90 ≤ b) ∧ (a = 0xF4 → b ≤ 0x8F) then
                          some ((a - 0xF0) * 262144 + (b - 0x80) * 4096 + (c - 0x80) * 64
                            + (d - 0x80), r₃)
                        else none

def utf8DecodeAux (surrogates : Bool) : Nat → List Nat → Option Str
  | _, [] => some []
  | 0, _ :: _ => none
  | fuel + 1, s =>
      match utf8Step surrogates s with
      | none => none
      | some (c, r) => (utf8DecodeAux surrogates fuel r).map (c :: ·)

/-- `body.decode("utf-8")`, or with `surrogatepass` as `json.loads` decodes bytes. -/
def utf8Decode (surrogates : Bool) (b : Bytes) : Option Str :=
  utf8DecodeAux surrogates b.length (b.map UInt8.toNat)

/-- The UTF-8 of one character; a lone surrogate has none. -/
def utf8Char (c : Nat) : Option Bytes :=
  if c < 0x80 then some [UInt8.ofNat c]
  else if c < 0x800 then some [UInt8.ofNat (0xC0 + c / 64), UInt8.ofNat (0x80 + c % 64)]
  else if 0xD800 ≤ c ∧ c ≤ 0xDFFF then none
  else if c < 0x10000 then
    some [UInt8.ofNat (0xE0 + c / 4096), UInt8.ofNat (0x80 + c / 64 % 64), UInt8.ofNat (0x80 + c % 64)]
  else if c < 0x110000 then
    some [UInt8.ofNat (0xF0 + c / 262144), UInt8.ofNat (0x80 + c / 4096 % 64),
      UInt8.ofNat (0x80 + c / 64 % 64), UInt8.ofNat (0x80 + c % 64)]
  else none

/-- `text.encode("utf-8")`; `none` is the `UnicodeEncodeError` of a lone surrogate. -/
def utf8Encode : Str → Option Bytes
  | [] => some []
  | c :: s =>
      match utf8Char c, utf8Encode s with
      | some units, some rest => some (units ++ rest)
      | _, _ => none

/-- `json.loads(body)` of bytes.  The other encodings it would detect, by their byte order
mark or their null bytes, are not read. -/
def loadsBytes (h : Hooks) (b : Bytes) : Except LoadsError Json :=
  match utf8Decode true b with
  | none => .error .unicode
  | some s => loads h s

/-- `json.loads(body.decode("utf-8"))` -/
def loadsUtf8 (h : Hooks) (b : Bytes) : Except LoadsError Json :=
  match utf8Decode false b with
  | none => .error .unicode
  | some s => loads h s

end Lib
