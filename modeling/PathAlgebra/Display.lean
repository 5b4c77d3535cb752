set_option autoImplicit false

/-! # Display texts

The text by which a value is named in reports: a constructor with its arguments in parentheses,
pairs as in `(a, b)`. The text of a table shows its values and names the type of its arguments, so
types have names as well.
-/

namespace PathAlgebra

/-- Values that reports can name. -/
class Display (α : Type) where
  /-- The text that stands for a value. -/
  display : α → String
  /-- The name of the type, without the place where it is defined. -/
  typeName : String

export Display (display typeName)

instance : Display Empty := ⟨nofun, "Empty"⟩

instance : Display Unit := ⟨fun _ => "()", "()"⟩

instance : Display Bool := ⟨fun b => if b then "true" else "false", "bool"⟩

instance {n : Nat} : Display (Fin n) :=
  ⟨fun i => "Fin(" ++ toString i.val ++ ")", "Fin<" ++ toString n ++ ">"⟩

/-- The text of an optional value. -/
def displayOption {α : Type} [Display α] : Option α → String
  | none => "None"
  | some a => "Some(" ++ display a ++ ")"

instance {α : Type} [Display α] : Display (Option α) :=
  ⟨displayOption, "Option<" ++ typeName α ++ ">"⟩

instance {α β : Type} [Display α] [Display β] : Display (α × β) :=
  ⟨fun z => "(" ++ display z.1 ++ ", " ++ display z.2 ++ ")",
    "(" ++ typeName α ++ ", " ++ typeName β ++ ")"⟩

instance {α : Type} [Display α] : Display (List α) :=
  ⟨fun l => "[" ++ ", ".intercalate (l.map display) ++ "]", "Vec<" ++ typeName α ++ ">"⟩

end PathAlgebra
