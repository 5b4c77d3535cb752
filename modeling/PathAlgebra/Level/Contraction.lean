import PathAlgebra.Cell
import PathAlgebra.Equiv.Basic

set_option autoImplicit false

/-! # Contractions

A space of cells is contractible if it has a center from which a path leads to every cell. A
contraction names the center and a function that should give these paths; whether it does so on a
given space is what `Contraction.verify` checks. Contractions of two types combine to one of the
pair type, and a contraction is carried along an equivalence.
-/

namespace PathAlgebra

variable {α β : Type}

/-- A center, and a function that should give a path from the center to every cell. -/
structure Contraction (α : Type) where
  /-- The center. -/
  center : Cell α
  /-- The path from the center to a cell. -/
  contract : Cell α → Outcome (Cell α)

namespace Contraction

/-- The contraction that claims the center to be the only cell. -/
def singleton [DecidableEq α] [Display α] (center : Cell α) : Contraction α :=
  ⟨center, fun x => Cell.between center x⟩

/-- Checks that the contraction leads from the center to `x`. -/
def verifyAt [DecidableEq α] [Display α] (c : Contraction α) (x : Cell α) : Outcome Unit := do
  let p ← Outcome.within (.contracting (display x)) (c.contract x)
  if p.boundary = some (c.center, x) then pure ()
  else refuse (.wrongContraction (display p) (display c.center) (display x))

/-- Checks that the center lies in a space and that the contraction leads from it to every cell
of the space. -/
def verify [DecidableEq α] [Display α] (c : Contraction α) (space : List (Cell α)) :
    Outcome Unit :=
  if c.center ∈ space then space.forM c.verifyAt
  else refuse (.centerOutside (display c.center))

/-- Contracts a space of cells of pairs componentwise, to the pair of the centers. -/
def prod [Display α] [Display β] (c : Contraction α) (d : Contraction β) :
    Fallible (Contraction (α × β)) := do
  let center ← Cell.pair c.center d.center
  return ⟨center, fun z => do
    let p ← c.contract z.unpair.1
    let q ← d.contract z.unpair.2
    Cell.pair p q⟩

/-- Carries a contraction along an equivalence. A cell `y` is reached by the image of the path
to its inverse image `x`, followed by the cell from the image of `x` to `y`. -/
def transfer [DecidableEq β] [Display β] (e : AdjointEquiv α β) (c : Contraction α) :
    Asserted (Contraction β) := do
  let center ← c.center.mapM e.toFun
  return ⟨center, fun y => do
    let x ← y.mapM e.inv
    let p ← (← c.contract x).mapM e.toFun
    let q ← Cell.between (← x.mapM e.toFun) y
    p.concat q⟩

end Contraction

end PathAlgebra
