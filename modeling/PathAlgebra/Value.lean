import PathAlgebra.Display
import PathAlgebra.Text.Quoted

set_option autoImplicit false

/-! # Plain data

A type of plain data with equality and a display text, and without an enumeration: the unit,
truth values, integers, strings and lists of data. Whatever does not go through all values of a
carrier can be tried on it.

The type is for callers whose data have no carrier of their own. No operation and no result of the
theory is about it, and it is the only type whose display text has quoted strings in it.
-/

namespace PathAlgebra

/-- Plain data. A list is a chain of `cons` that ends in `nil`. -/
inductive Value where
  /-- The unit. -/
  | unit
  /-- A truth value. -/
  | bool (b : Bool)
  /-- An integer. -/
  | int (i : Int)
  /-- A string. -/
  | str (s : String)
  /-- The empty list. -/
  | nil
  /-- A list with a first item. -/
  | cons (head tail : Value)
  deriving DecidableEq

namespace Value

/-- A list of data as data. -/
def ofList (l : List Value) : Value := l.foldr cons nil

/-- The items of a list; other data have none. -/
def items : Value → List Value
  | cons head tail => head :: tail.items
  | _ => []

mutual

/-- The text of a value. -/
def text : Value → String
  | unit => "Unit"
  | bool b => "Bool(" ++ display b ++ ")"
  | int i => "Int(" ++ toString i ++ ")"
  | str s => "Str(" ++ Text.quoted s ++ ")"
  | nil => "List([])"
  | cons head tail => "List([" ++ head.text ++ tail.textAfter ++ "])"

/-- The texts of the items of a list that follow others. -/
def textAfter : Value → String
  | cons head tail => ", " ++ head.text ++ tail.textAfter
  | _ => ""

end

instance : Display Value := ⟨text, "Value"⟩

end Value

end PathAlgebra
