/-
Python values, as a reader of YAML gives them.

A mapping is kept as its items in insertion order.  `plain` turns a value into the JSON
document `json.dumps` prints for it: a key becomes text, and a value that JSON has no form
for makes it fail.
-/
import DataEngLab.Lib.Json

namespace Lib

/-- A value; a float by the text that JSON prints for it, and one of any other class by its text. -/
inductive Value where
  | none
  | bool (b : Bool)
  | int (n : Int)
  | float (text : Str)
  | str (s : Str)
  | list (xs : List Value)
  | dict (kvs : List (Value × Value))
  /-- a date, a set, bytes -/
  | other (text : Str)

instance : Inhabited Value := ⟨.none⟩

namespace Value

mutual
/-- `a == b`; a float equals no integer here. -/
def eq : Value → Value → Bool
  | .none, .none => true
  | .bool a, .bool b => a == b
  | .bool a, .int b => (if a then 1 else 0) == b
  | .int a, .bool b => a == (if b then 1 else 0)
  | .int a, .int b => a == b
  | .float a, .float b => a == b
  | .str a, .str b => a == b
  | .list xs, .list ys => eqElems xs ys
  | .dict xs, .dict ys => eqMembers xs ys
  | .other a, .other b => a == b
  | _, _ => false

def eqElems : List Value → List Value → Bool
  | [], [] => true
  | x :: xs, y :: ys => x.eq y && eqElems xs ys
  | _, _ => false

def eqMembers : List (Value × Value) → List (Value × Value) → Bool
  | [], [] => true
  | (k, v) :: xs, (k', v') :: ys => k.eq k' && v.eq v' && eqMembers xs ys
  | _, _ => false
end

@[simp] theorem eq_str {a : Value} {s : Str} : a.eq (.str s) = true ↔ a = .str s := by
  cases a with
  | str t => simp [eq]
  | _ => simp [eq]

/-- `value.get(key)` -/
def get (key : Str) : List (Value × Value) → Option Value
  | [] => Option.none
  | (k, v) :: rest => if k.eq (.str key) then some v else get key rest

/-- `isinstance(value, str)`, with the text. -/
def text? : Value → Option Str
  | .str s => some s
  | _ => Option.none

@[simp] theorem text?_eq_some {v : Value} {s : Str} : v.text? = some s ↔ v = .str s := by
  cases v with
  | str t => simp [text?]
  | _ => simp [text?]

/-! ### Plain documents -/

/-- `str(key)` -/
def keyText : Value → Option Str
  | .none => some (lit "None")
  | .bool true => some (lit "True")
  | .bool false => some (lit "False")
  | .int n => if intFits n then some (printInt n) else Option.none
  | .float text => some text
  | .str s => some s
  | .other text => some text
  | .list _ => Option.none
  | .dict _ => Option.none

mutual
/-- The document `json.dumps` prints for a value whose keys were made text; `none` is a `TypeError`. -/
def plain : Value → Option Json
  | .none => some .null
  | .bool b => some (.bool b)
  | .int n => some (.int n)
  | .float text => some (.float text)
  | .str s => some (.str s)
  | .list xs => (plainElems xs).map .arr
  | .dict kvs => (plainMembers kvs).map fun members =>
      .obj (members.foldl (fun d m => dictInsert m.1 m.2 d) [])
  | .other _ => Option.none

def plainElems : List Value → Option (List Json)
  | [] => some []
  | x :: xs => do
      let v ← x.plain
      let vs ← plainElems xs
      return v :: vs

def plainMembers : List (Value × Value) → Option (List (Str × Json))
  | [] => some []
  | (k, v) :: kvs => do
      let key ← keyText k
      let value ← v.plain
      let rest ← plainMembers kvs
      return (key, value) :: rest
end

end Value

end Lib
