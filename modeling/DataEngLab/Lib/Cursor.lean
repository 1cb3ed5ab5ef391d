/-
A position in a text, with what is left of it.

A scanner that runs an index over a text reads runs of characters of one class after
another.  `Cursor.skip` passes over one run and `Cursor.word` is that run; together they say
where the scanner stands, so a scanner is compared with a grammar run by run.
-/
import DataEngLab.Lib.Text
import Mathlib.Data.List.TakeWhile

namespace Lib

structure Cursor where
  pos : Nat
  rest : Str
deriving DecidableEq

namespace Cursor

/-- The run of these characters at the cursor. -/
def word (p : Nat → Bool) (c : Cursor) : Str := c.rest.takeWhile p

/-- The cursor after that run. -/
def skip (p : Nat → Bool) (c : Cursor) : Cursor := ⟨c.pos + (c.word p).length, c.rest.dropWhile p⟩

/-- One character further, at most. -/
def next (c : Cursor) : Cursor := ⟨c.pos + 1, c.rest.tail⟩

end Cursor

/-- The text does not go on with one of these characters. -/
def Stops (p : Nat → Bool) (s : Str) : Prop := ∀ x, s.head? = some x → p x = false

section
variable {p q : Nat → Bool} {pos : Nat} {a b s : Str}

theorem stops_nil : Stops p [] := fun _ h => by cases h

@[simp] theorem stops_cons {x : Nat} : Stops p (x :: s) ↔ p x = false := by
  constructor
  · exact fun h => h x rfl
  · rintro h y hy
    obtain rfl : x = y := Option.some.inj hy
    exact h

theorem Stops.append (h : Stops p a) (hb : a = [] → Stops p b) : Stops p (a ++ b) := by
  cases a with
  | nil => exact hb rfl
  | cons x a => exact stops_cons.mpr (stops_cons.mp h)

theorem stops_dropWhile : Stops p (s.dropWhile p) := by
  induction s with
  | nil => exact stops_nil
  | cons x s ih =>
      cases hx : p x with
      | true => rwa [List.dropWhile_cons_of_pos hx]
      | false =>
          rw [List.dropWhile_cons_of_neg (by simp [hx])]
          exact stops_cons.mpr hx

namespace Cursor

variable {c : Cursor}

theorem word_append_skip (p : Nat → Bool) (c : Cursor) : c.word p ++ (c.skip p).rest = c.rest :=
  List.takeWhile_append_dropWhile

@[simp] theorem skip_pos (p : Nat → Bool) (c : Cursor) : (c.skip p).pos = c.pos + (c.word p).length := rfl

theorem length_skip (p : Nat → Bool) (c : Cursor) : (c.skip p).rest.length ≤ c.rest.length :=
  (List.dropWhile_suffix p).length_le

theorem length_word_skip (p : Nat → Bool) (c : Cursor) :
    c.rest.length = (c.word p).length + (c.skip p).rest.length := by
  rw [← List.length_append, word_append_skip]

theorem length_skip_lt (h : c.word p ≠ []) : (c.skip p).rest.length < c.rest.length := by
  have hlen := length_word_skip p c
  have hpos := List.length_pos_iff.mpr h
  omega

theorem length_next (c : Cursor) : c.next.rest.length ≤ c.rest.length := by
  simp [next]

theorem length_next_lt {x : Nat} {s : Str} (h : c.rest = x :: s) : c.next.rest.length < c.rest.length := by
  simp [next, h]

end Cursor

end

end Lib
