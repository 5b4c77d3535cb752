set_option autoImplicit false

/-! # Symbols

Names are kept as symbols, which are compared in their place. A symbol table gives the symbol of a
name and the name of a symbol. It grows when it is asked for the symbol of a name that it does not
have yet.
-/

namespace PathAlgebra

/-- The tables in `σ` have symbols from `κ`. -/
class SymbolTable (σ : Type) (κ : outParam Type) where
  /-- The table without names. -/
  empty : σ
  /-- The symbol of a name, and the table that has the name. -/
  intern : String → σ → κ × σ
  /-- The name of a symbol. -/
  resolve : σ → κ → String

/-- A list of names, in the order in which their symbols were first asked for. The symbol of a
name is its position. -/
structure NameTable where
  /-- The names. -/
  names : List String

instance : SymbolTable NameTable Nat where
  empty := ⟨[]⟩
  intern name table :=
    (table.names.idxOf name, if name ∈ table.names then table else ⟨table.names ++ [name]⟩)
  resolve table symbol := table.names[symbol]?.getD ""

end PathAlgebra
