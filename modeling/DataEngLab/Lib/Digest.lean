/-
Digests.

SHA-256 and SHA-1 over byte strings, and the version 5 UUID that is built on the second.
Words are natural numbers below 2^32.  Nothing is proved about the functions beyond the
form of what they print: a program that names objects by their digest relies on that
form everywhere, and on the absence of collisions only where it says so.
-/
import DataEngLab.Lib.Json

namespace Lib

/-! ### Words -/

def word (n : Nat) : Nat := n % 0x100000000

def rotr (n x : Nat) : Nat := word ((x >>> n) ||| (x <<< (32 - n)))

def rotl (n x : Nat) : Nat := rotr (32 - n) x

/-- The big-endian value of a byte string. -/
def beValue (b : List Nat) : Nat := b.foldl (fun v x => v * 256 + x) 0

/-- The last `k` big-endian bytes of a number. -/
def beBytes : Nat → Nat → List Nat
  | 0, _ => []
  | k + 1, n => beBytes k (n / 256) ++ [n % 256]

/-- The message with its end marker and its length in bits, a multiple of 64 bytes. -/
def padMessage (m : List Nat) : List Nat :=
  m ++ 0x80 :: List.replicate ((119 - m.length % 64) % 64) 0 ++ beBytes 8 (m.length * 8)

/-- The big-endian words of a byte string. -/
def words : List Nat → List Nat
  | a :: b :: c :: d :: rest => beValue [a, b, c, d] :: words rest
  | _ => []

/-- The schedule of a block as a shift register: sixteen words, the oldest first, of which
`next` takes those 16, 15, 14, 8, 7, 3 and 2 places back to make the one that follows; one
word is emitted for each element of the first list. -/
def expand (next : Nat → Nat → Nat → Nat → Nat → Nat → Nat → Nat) : List Nat → Nat → Nat → Nat → Nat → Nat →
    Nat → Nat → Nat → Nat → Nat → Nat → Nat → Nat → Nat → Nat → Nat → List Nat
  | [], _, _, _, _, _, _, _, _, _, _, _, _, _, _, _, _ => []
  | _ :: ks, a, b, c, d, e, f, g, h, i, j, k, l, m, n, p, q =>
      a :: expand next ks b c d e f g h i j k l m n p q (next a b c i j n p)

/-- The lower-case hexadecimal text of `k` digits. -/
def hexText : Nat → Nat → Str
  | 0, _ => []
  | k + 1, n => hexText k (n / 16) ++ [hexDigit (n % 16)]

@[simp] theorem hexText_length (k n : Nat) : (hexText k n).length = k := by
  induction k generalizing n with
  | zero => rfl
  | succ k ih => simp [hexText, ih]

theorem isHex_hexDigit {d : Nat} (h : d < 16) : isHex (hexDigit d) = true := by
  have hall : ∀ e < 16, isHex (hexDigit e) = true := by decide
  exact hall d h

theorem hexText_hex (k n : Nat) : ∀ c ∈ hexText k n, isHex c = true := by
  induction k generalizing n with
  | zero => simp [hexText]
  | succ k ih =>
      intro c hc
      rcases List.mem_append.mp hc with h | h
      · exact ih _ c h
      · rw [List.mem_singleton.mp h]
        exact isHex_hexDigit (by omega)

theorem fullmatch_times {k : Nat} {cls : Nat → Bool} : ∀ {s : Str}, s.length = k →
    (∀ c ∈ s, cls c = true) → (Pattern.times k cls).fullmatch s = true := by
  induction k with
  | zero => intro s hs _; rw [List.length_eq_zero_iff.mp hs]; rfl
  | succ k ih =>
      intro s hs h
      cases s with
      | nil => simp at hs
      | cons c s =>
          show (cls c && (Pattern.times k cls).fullmatch s) = true
          rw [h c (by simp), ih (by simpa using hs) (fun d hd => h d (List.mem_cons_of_mem _ hd))]
          rfl

/-! ### SHA-256 -/

def sha256Constants : List Nat :=
  [0x428a2f98, 0x71374491, 0xb5c0fbcf, 0xe9b5dba5, 0x3956c25b, 0x59f111f1, 0x923f82a4, 0xab1c5ed5,
    0xd807aa98, 0x12835b01, 0x243185be, 0x550c7dc3, 0x72be5d74, 0x80deb1fe, 0x9bdc06a7, 0xc19bf174,
    0xe49b69c1, 0xefbe4786, 0x0fc19dc6, 0x240ca1cc, 0x2de92c6f, 0x4a7484aa, 0x5cb0a9dc, 0x76f988da,
    0x983e5152, 0xa831c66d, 0xb00327c8, 0xbf597fc7, 0xc6e00bf3, 0xd5a79147, 0x06ca6351, 0x14292967,
    0x27b70a85, 0x2e1b2138, 0x4d2c6dfc, 0x53380d13, 0x650a7354, 0x766a0abb, 0x81c2c92e, 0x92722c85,
    0xa2bfe8a1, 0xa81a664b, 0xc24b8b70, 0xc76c51a3, 0xd192e819, 0xd6990624, 0xf40e3585, 0x106aa070,
    0x19a4c116, 0x1e376c08, 0x2748774c, 0x34b0bcb5, 0x391c0cb3, 0x4ed8aa4a, 0x5b9cca4f, 0x682e6ff3,
    0x748f82ee, 0x78a5636f, 0x84c87814, 0x8cc70208, 0x90befffa, 0xa4506ceb, 0xbef9a3f7, 0xc67178f2]

/-- The eight words of the state. -/
structure Sha256 where
  a : Nat
  b : Nat
  c : Nat
  d : Nat
  e : Nat
  f : Nat
  g : Nat
  h : Nat

def Sha256.init : Sha256 :=
  ⟨0x6a09e667, 0xbb67ae85, 0x3c6ef372, 0xa54ff53a, 0x510e527f, 0x9b05688c, 0x1f83d9ab, 0x5be0cd19⟩

def sha256Next (w16 w15 _w14 _w8 w7 _w3 w2 : Nat) : Nat :=
  let s0 := rotr 7 w15 ^^^ rotr 18 w15 ^^^ (w15 >>> 3)
  let s1 := rotr 17 w2 ^^^ rotr 19 w2 ^^^ (w2 >>> 10)
  word (w16 + s0 + w7 + s1)

def Sha256.round (s : Sha256) (k w : Nat) : Sha256 :=
  let s1 := rotr 6 s.e ^^^ rotr 11 s.e ^^^ rotr 25 s.e
  let ch := (s.e &&& s.f) ^^^ ((0xffffffff - s.e) &&& s.g)
  let t1 := s.h + s1 + ch + k + w
  let s0 := rotr 2 s.a ^^^ rotr 13 s.a ^^^ rotr 22 s.a
  let maj := (s.a &&& s.b) ^^^ (s.a &&& s.c) ^^^ (s.b &&& s.c)
  ⟨word (t1 + s0 + maj), s.a, s.b, s.c, word (s.d + t1), s.e, s.f, s.g⟩

def Sha256.rounds : List Nat → List Nat → Sha256 → Sha256
  | k :: ks, w :: ws, s => rounds ks ws (s.round k w)
  | _, _, s => s

def Sha256.add (s r : Sha256) : Sha256 :=
  ⟨word (s.a + r.a), word (s.b + r.b), word (s.c + r.c), word (s.d + r.d), word (s.e + r.e),
    word (s.f + r.f), word (s.g + r.g), word (s.h + r.h)⟩

/-- The blocks of sixteen words, one after the other. -/
def Sha256.blocks : List Nat → Sha256 → Sha256
  | a :: b :: c :: d :: e :: f :: g :: h :: i :: j :: k :: l :: m :: n :: p :: q :: rest, s =>
      let ws := expand sha256Next sha256Constants a b c d e f g h i j k l m n p q
      blocks rest (s.add (rounds sha256Constants ws s))
  | _, s => s

def Sha256.text (s : Sha256) : Str :=
  hexText 8 s.a ++ hexText 8 s.b ++ hexText 8 s.c ++ hexText 8 s.d ++ hexText 8 s.e ++
    hexText 8 s.f ++ hexText 8 s.g ++ hexText 8 s.h

/-- `hashlib.sha256(body).hexdigest()` -/
def sha256 (body : Bytes) : Str :=
  (Sha256.blocks (words (padMessage (body.map UInt8.toNat))) Sha256.init).text

theorem sha256_isSha256 (body : Bytes) : isSha256 (sha256 body) = true := by
  refine fullmatch_times ?_ ?_
  · simp [sha256, Sha256.text]
  · intro c hc
    simp only [sha256, Sha256.text, List.mem_append] at hc
    rcases hc with ((((((h | h) | h) | h) | h) | h) | h) | h <;> exact hexText_hex _ _ c h

example : sha256 (asciiBytes (lit "abc")) =
    lit "ba7816bf8f01cfea414140de5dae2223b00361a396177a9cb410ff61f20015ad" := by decide +kernel

/-! ### SHA-1 and version 5 UUIDs -/

/-- The five words of the state. -/
structure Sha1 where
  a : Nat
  b : Nat
  c : Nat
  d : Nat
  e : Nat

def Sha1.init : Sha1 := ⟨0x67452301, 0xefcdab89, 0x98badcfe, 0x10325476, 0xc3d2e1f0⟩

def sha1Next (w16 _w15 w14 w8 _w7 w3 _w2 : Nat) : Nat := rotl 1 (w3 ^^^ w8 ^^^ w14 ^^^ w16)

/-- The constant of each round, which also tells the round's function. -/
def sha1Constants : List Nat :=
  List.replicate 20 0x5a827999 ++ List.replicate 20 0x6ed9eba1 ++ List.replicate 20 0x8f1bbcdc ++
    List.replicate 20 0xca62c1d6

def Sha1.round (s : Sha1) (k w : Nat) : Sha1 :=
  let f :=
    if k = 0x5a827999 then (s.b &&& s.c) ||| ((0xffffffff - s.b) &&& s.d)
    else if k = 0x8f1bbcdc then (s.b &&& s.c) ||| (s.b &&& s.d) ||| (s.c &&& s.d)
    else s.b ^^^ s.c ^^^ s.d
  ⟨word (rotl 5 s.a + f + s.e + k + w), s.a, rotl 30 s.b, s.c, s.d⟩

def Sha1.rounds : List Nat → List Nat → Sha1 → Sha1
  | k :: ks, w :: ws, s => rounds ks ws (s.round k w)
  | _, _, s => s

def Sha1.add (s r : Sha1) : Sha1 :=
  ⟨word (s.a + r.a), word (s.b + r.b), word (s.c + r.c), word (s.d + r.d), word (s.e + r.e)⟩

def Sha1.blocks : List Nat → Sha1 → Sha1
  | a :: b :: c :: d :: e :: f :: g :: h :: i :: j :: k :: l :: m :: n :: p :: q :: rest, s =>
      let ws := expand sha1Next sha1Constants a b c d e f g h i j k l m n p q
      blocks rest (s.add (rounds sha1Constants ws s))
  | _, s => s

/-- The twenty bytes of the digest as one number. -/
def sha1 (body : List Nat) : Nat :=
  let s := Sha1.blocks (words (padMessage body)) Sha1.init
  (((s.a * 0x100000000 + s.b) * 0x100000000 + s.c) * 0x100000000 + s.d) * 0x100000000 + s.e

/-- The number a UUID's 32 hexadecimal digits stand for. -/
def uuidValue (u : Str) : Nat :=
  (u.filterMap hexValue).foldl (fun v d => v * 16 + d) 0

/-- `str(uuid.UUID(int=n))` with the version and the variant set. -/
def uuidText (version n : Nat) : Str :=
  hexText 8 (n / 2 ^ 96) ++ lit "-" ++ hexText 4 (n / 2 ^ 80) ++ lit "-" ++
    (hexDigit (version % 16) :: hexText 3 (n / 2 ^ 64)) ++ lit "-" ++
    (hexDigit (8 + n / 2 ^ 60 % 4) :: hexText 3 (n / 2 ^ 48)) ++ lit "-" ++ hexText 12 n

/-- `str(uuid.uuid5(uuid.UUID(ns), name))` of an ASCII name. -/
def uuid5 (ns name : Str) : Str :=
  uuidText 5 (sha1 (beBytes 16 (uuidValue ns) ++ name) / 2 ^ 32)

example : uuid5 (lit "6ba7b810-9dad-11d1-80b4-00c04fd430c8") (lit "python.org") =
    lit "886313e1-3b8a-5372-9b90-0c9aee199e5d" := by decide +kernel

end Lib
