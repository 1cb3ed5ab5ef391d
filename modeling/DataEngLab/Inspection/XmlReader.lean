/-
The XML reader that forbids declarations.

`_CheckedXmlReader.read` hands bytes on after it has looked for `<!DOCTYPE` and `<!ENTITY` in what it
decodes of them.  The decoders and the window of sixteen characters make the cuts invisible
(`Scanned`).

The encoding is chosen from the first bytes, as soon as they tell.  Two bytes already tell UTF-16,
and four of them UTF-32, so for one mark the cut matters after all (`splits_agree_iff`).

Upper case is a parameter, one character at a time.
-/
import DataEngLab.Lib.Codecs
import DataEngLab.Lib.Checks

namespace Inspection

open Lib

/-- What `read` raises. -/
inductive ReadError where
  | valueError (message : Str)
  | unicodeError
  | lockMismatch (limit expanded : Nat)

inductive Encoding where
  | utf16le
  | utf16be
  | utf8sig
  | utf8
deriving DecidableEq

def bomUtf32le : Bytes := [0xFF, 0xFE, 0, 0]
def bomUtf32be : Bytes := [0, 0, 0xFE, 0xFF]
def bomUtf16le : Bytes := [0xFF, 0xFE]
def bomUtf16be : Bytes := [0xFE, 0xFF]
def bomUtf8 : Bytes := [0xEF, 0xBB, 0xBF]

/-- `<` -/
def lessThan : UInt8 := 60

def wide : ReadError := .valueError (lit "unsupported wide XML encoding")

/-- The end of `_detect_encoding`, where there is no mark. -/
def detectUnmarked (probe : Bytes) (final : Bool) : Except ReadError (Option Encoding) :=
  match probe with
  | a :: b :: c :: d :: _ =>
      if [a, b, c, d] = [0, 0, 0, lessThan] ∨ [a, b, c, d] = [lessThan, 0, 0, 0] then .error wide
      else if a = 0 ∧ b = lessThan ∧ c = 0 then .ok (some .utf16be)
      else if a = lessThan ∧ b = 0 ∧ d = 0 then .ok (some .utf16le)
      else if 0 ∈ [a, b, c, d] then .error wide
      else .ok (some .utf8)
  | _ => .ok (if final then some .utf8 else none)

/-- `_detect_encoding` -/
def detectEncoding (probe : Bytes) (final : Bool) : Except ReadError (Option Encoding) :=
  if bomUtf32le.isPrefixOf probe || bomUtf32be.isPrefixOf probe then .error wide
  else if bomUtf16le.isPrefixOf probe then .ok (some .utf16le)
  else if bomUtf16be.isPrefixOf probe then .ok (some .utf16be)
  else if bomUtf8.isPrefixOf probe then .ok (some .utf8sig)
  else detectUnmarked probe final

/-! ### Decoding -/

/-- An incremental decoder, with the bytes it keeps for the next call. -/
structure Decoder where
  encoding : Encoding
  pending : Bytes
  /-- of `utf-8-sig`: the mark has not been looked for -/
  isFirst : Bool

def Encoding.decoder (encoding : Encoding) : Decoder := ⟨encoding, [], true⟩

def Encoding.codec : Encoding → Codec
  | .utf16le => utf16Codec true
  | .utf16be => utf16Codec false
  | .utf8sig => utf8Codec
  | .utf8 => utf8Codec

/-- `codecs.*_decode(input, "strict", final)` -/
def decodeInput (k : Codec) (input : Bytes) (final : Bool) : Except ReadError (Str × Bytes) :=
  match k.decode input with
  | none => .error .unicodeError
  | some (text, pending) => if final && pending != [] then .error .unicodeError else .ok (text, pending)

/-- `decode(data, final)` of a decoder -/
def Decoder.decode (d : Decoder) (data : Bytes) (final : Bool) : Except ReadError (Str × Decoder) := do
  let input := d.pending ++ data
  if d.encoding = .utf8sig ∧ d.isFirst = true ∧ input.length < 3 ∧ input.isPrefixOf bomUtf8 = true then
    return ([], { d with pending := input })
  else
    let body :=
      if d.encoding = .utf8sig ∧ d.isFirst = true ∧ bomUtf8.isPrefixOf input = true then input.drop 3 else input
    let (text, pending) ← decodeInput d.encoding.codec body final
    return (text, { d with pending := pending, isFirst := false })

/-! ### The reader -/

/-- The state of the reader, and `expanded` of its budget. -/
structure Reader where
  expanded : Nat
  rawProbe : Bytes
  decoder : Option Decoder
  decodedTail : Str

def Reader.start (expanded : Nat) : Reader := ⟨expanded, [], none, []⟩

def doctype : Str := lit "<!DOCTYPE"
def entity : Str := lit "<!ENTITY"

section
variable (upper : Nat → Str)

/-- `s.upper()` -/
def upperText (s : Str) : Str := s.flatMap upper

/-- The end of `_scan_declarations`. -/
def checkDecoded (s : Reader) (decoded : Str) : Except ReadError Reader :=
  let checked := upperText upper (s.decodedTail ++ decoded)
  if doctype <:+: checked then .error (.valueError (lit "DTD declaration is forbidden"))
  else if entity <:+: checked then .error (.valueError (lit "entity declaration is forbidden"))
  else .ok { s with decodedTail := lastChars 16 checked }

/-- `_scan_declarations` -/
def scanDeclarations (s : Reader) (data : Bytes) (final : Bool) : Except ReadError Reader :=
  match s.decoder with
  | none => do
      let probe := s.rawProbe ++ data
      let encoding ← detectEncoding probe final
      match encoding with
      | none => return { s with rawProbe := probe }
      | some encoding =>
          let (decoded, d) ← encoding.decoder.decode probe final
          checkDecoded upper { s with rawProbe := [], decoder := some d } decoded
  | some d => do
      let (decoded, d) ← d.decode data final
      checkDecoded upper { s with decoder := some d } decoded

variable (limit : Nat)

/-- `read`, when the stream answers with these bytes; they are handed on. -/
def read (s : Reader) (data : Bytes) : Except ReadError (Bytes × Reader) := do
  let expanded := s.expanded + data.length
  if limit < expanded then throw (.lockMismatch limit expanded)
  else
    let s ← scanDeclarations upper { s with expanded := expanded } data (data = [])
    return (data, s)

/-- Reads, one after the other: what was handed on, and how they end. -/
def readAll : Reader → List Bytes → List Bytes × Except ReadError Reader
  | s, [] => ([], .ok s)
  | s, data :: rest =>
      match read upper limit s data with
      | .error e => ([], .error e)
      | .ok (data, s) =>
          let (handed, result) := readAll s rest
          (data :: handed, result)

/-- The reads end with an empty one, and none raises. -/
def Accepts (s : Reader) (pieces : List Bytes) : Prop := ∃ s', (readAll upper limit s (pieces ++ [[]])).2 = .ok s'

/-! ### What is decoded -/

/-- The text of the bytes so far, and those that are left. -/
def Encoding.text (encoding : Encoding) (b : Bytes) : Option (Str × Bytes) :=
  encoding.codec.decode (if encoding = .utf8sig then b.drop 3 else b)

def Unmarked (s : Str) : Prop := ¬ doctype <:+: s ∧ ¬ entity <:+: s

/-- The bytes are a text without declarations; at the end nothing is left of them. -/
def Clean (encoding : Encoding) (b : Bytes) (final : Bool) : Prop :=
  ∃ text pending, encoding.text b = some (text, pending) ∧ Unmarked (upperText upper text) ∧
    (final = true → pending = [])

/-- The bytes of a stream, cut into reads. -/
def Splits (b : Bytes) (pieces : List Bytes) : Prop := pieces.flatten = b ∧ ∀ piece ∈ pieces, piece ≠ []

/-- The verdict does not depend on the cuts. -/
def SplitsAgree (expanded : Nat) (b : Bytes) : Prop := ∀ pieces others, Splits b pieces → Splits b others →
  (Accepts upper limit (.start expanded) pieces ↔ Accepts upper limit (.start expanded) others)

/-- What was handed on holds no declaration. -/
def Guards (expanded : Nat) (b : Bytes) : Prop := ∀ reads s, reads.flatten <+: b →
  (readAll upper limit (.start expanded) reads).2 = .ok s → ∀ d, s.decoder = some d →
    ∀ text pending, d.encoding.text reads.flatten = some (text, pending) → Unmarked (upperText upper text)

/-- What is accepted is handed on. -/
def HandsOn (expanded : Nat) (b : Bytes) : Prop := ∀ pieces, Splits b pieces →
  Accepts upper limit (.start expanded) pieces →
    (readAll upper limit (.start expanded) (pieces ++ [[]])).1.flatten = b

end

end Inspection
