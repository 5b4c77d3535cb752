import PathAlgebra.Table.Basic

set_option autoImplicit false

/-! # Grids

A dependent function of two arguments is stored as a grid: a row for each value of the first
argument, with an entry for each value of the second. `Grid.uncurry` and `Table.curry` turn grids
into tables on pairs and back; grids are listed and numbered as the tables that they become.
-/

namespace PathAlgebra

variable {α β F : Type}

/-- The values of a dependent function of two arguments, row by row. -/
structure Grid (α β F : Type) where
  /-- The rows, in the order of the elements of `α`. -/
  rows : List (List F)
  deriving DecidableEq

namespace Grid

/-- The text of a grid shows its rows, and of its arguments only the types. -/
instance [Display α] [Display β] [Display F] : Display (Grid α β F) :=
  ⟨fun g => "Pi2 \x7b rows: " ++ display g.rows ++ ", phantom: PhantomData<" ++ typeName (α × β) ++
      "> \x7d",
    "Pi2<" ++ typeName α ++ ", " ++ typeName β ++ ", " ++ typeName F ++ ">"⟩

/-- The value at `a` and `b`. -/
def apply [Enumerated α] [Enumerated β] (g : Grid α β F) (a : α) (b : β) : Asserted F := do
  let row ← Table.entry g.rows (Enumerated.position a)
  Table.entry row (Enumerated.position b)

variable [Enumerated α] [DecidableEq α] [Display α]
variable [Enumerated β] [DecidableEq β] [Display β] [Family (α × β) F]

/-- The grid of a function; refused at the first value, row by row, that lies in the wrong
fiber. -/
def tabulate [Display F] (f : α → β → Asserted F) : Outcome (Grid α β F) := do
  let rows ← Enumerated.elements.mapM fun a => Enumerated.elements.mapM fun b =>
    show Outcome F from do
      let u ← f a b
      if (← Family.index u) = (a, b) then pure u
      else refuse (.wrongFiberPair (display u) (display a) (display b))
  return ⟨rows⟩

/-- The grid of a function that respects the fibers, which is asserted. -/
def build (f : α → β → Asserted F) : Asserted (Grid α β F) := do
  let rows ← Enumerated.elements.mapM fun a => Enumerated.elements.mapM fun b =>
    show Asserted F from do
      let u ← f a b
      assertSame (← Family.index u) (a, b)
      return u
  return ⟨rows⟩

/-- The same function as a function on pairs. -/
def uncurry (g : Grid α β F) : Asserted (Table (α × β) F) :=
  Table.build fun z => g.apply z.1 z.2

end Grid

/-- The same function as a function of two arguments. -/
def Table.curry [Enumerated α] [DecidableEq α] [Display α] [Enumerated β] [DecidableEq β]
    [Display β] [Family (α × β) F] (h : Table (α × β) F) : Asserted (Grid α β F) :=
  Grid.build fun a b => h.apply (a, b)

namespace Grid

variable [Enumerated α] [DecidableEq α] [Display α]
variable [Enumerated β] [DecidableEq β] [Display β] [Family (α × β) F]
variable [Enumerated F] [DecidableEq F]

/-- All grids, in the order of the tables that they become. -/
def elements (α β F : Type) [Enumerated α] [DecidableEq α] [Display α] [Enumerated β]
    [DecidableEq β] [Display β] [Family (α × β) F] [Enumerated F] :
    Asserted (List (Grid α β F)) := do
  (← Table.elements (α × β) F).mapM Table.curry

/-- The number of a grid in the listing of all grids. -/
def position (g : Grid α β F) : Asserted Nat := do
  (← g.uncurry).position

end Grid

end PathAlgebra
