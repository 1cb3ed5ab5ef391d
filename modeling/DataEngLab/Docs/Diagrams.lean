/-
The extraction of a diagram from its HTML master.

`_SVG_ROOT` finds the SVG, which must be the only one; then every named reference but the five
of XML is replaced, textually, by what it denotes in HTML.  The result must be XML without
anything that runs.

The word characters of `\b`, `str.lower` and `html.unescape` are parameters.  The text of an
error of the XML parser is left out.
-/
import DataEngLab.Lib.Decimal
import DataEngLab.Lib.XmlSyntax

namespace Docs

open Lib

section
variable (isWord : Nat → Bool)

end

/-- `_HTML_NAMED_ENTITY` after its `&`: the name and what follows the match. -/
def entityAt (s : Str) : Option (Str × Str) :=
  if Xml.isEntityName (s.takeWhile isAlnum) ∧ (s.dropWhile isAlnum).head? = some 59 then
    some (s.takeWhile isAlnum, (s.dropWhile isAlnum).tail)
  else none

theorem entityAt_length {s name rest : Str} (h : entityAt s = some (name, rest)) : rest.length ≤ s.length := by
  unfold entityAt at h
  split_ifs at h
  rw [← (Prod.mk.inj (Option.some.inj h)).2, List.length_tail]
  have := (List.dropWhile_suffix isAlnum (l := s)).length_le
  omega

def xmlNamedEntities : List Str := ["amp", "apos", "gt", "lt", "quot"].map lit

section
variable (unescape : Str → Str)

def sanitize (name : Str) : Str :=
  if xmlNamedEntities.contains name then 38 :: (name ++ [59]) else unescape (38 :: (name ++ [59]))

/-- `_HTML_NAMED_ENTITY.sub(sanitize, text)` -/
def replaceEntities : Str → Str
  | [] => []
  | c :: s =>
      if c = 38 then
        match _h : entityAt s with
        | some (name, rest) => sanitize unescape name ++ replaceEntities rest
        | none => c :: replaceEntities s
      else c :: replaceEntities s
termination_by s => s.length
decreasing_by
  · exact Nat.lt_succ_of_le (entityAt_length _h)
  · exact Nat.lt_succ_self _
  · exact Nat.lt_succ_self _

end

/-! ### What may not be in a diagram -/

section
variable (lower unescape : Str → Str)

end

end Docs
