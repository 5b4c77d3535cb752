import PathAlgebra.Equiv.Basic
import PathAlgebra.Table.Grid

set_option autoImplicit false

/-! # Function extensionality

Two tables are the same value exactly when they agree at every argument. So paths between the
values of two functions, one for each argument, give a path between the functions. With it,
currying is an equivalence between dependent functions on pairs and dependent functions of two
arguments.
-/

namespace PathAlgebra

variable {α β F : Type}
variable [Enumerated α] [DecidableEq α] [Display α]
variable [Enumerated β] [DecidableEq β] [Display β]
variable [DecidableEq F] [Display F]

/-- The path `f = g` given by paths between their values. Asserts the ends of each. -/
def Path.ofPointwise (f g : Table α F) (h : α → Asserted (Path F)) :
    Asserted (Path (Table α F)) := do
  Enumerated.elements.forM fun a => show Asserted Unit from do
    let p ← h a
    p.assertEnds (← f.apply a) (← g.apply a)
  assertSame f g
  return refl f

/-- The path `f = g` of functions of two arguments given by paths between their values. Asserts
the ends of each. -/
def Path.ofPointwise₂ (f g : Grid α β F) (h : α → β → Asserted (Path F)) :
    Asserted (Path (Grid α β F)) := do
  Enumerated.elements.forM fun a => Enumerated.elements.forM fun b =>
    show Asserted Unit from do
      let p ← h a b
      p.assertEnds (← f.apply a b) (← g.apply a b)
  assertSame f g
  return refl f

variable [Family (α × β) F]

/-- Currying is inverse to uncurrying: both round trips hold pointwise by reflexivity. -/
def AdjointInverse.uncurry (α β F : Type) [Enumerated α] [DecidableEq α] [Display α]
    [Enumerated β] [DecidableEq β] [Display β] [DecidableEq F] [Display F] [Family (α × β) F] :
    AdjointInverse (Grid α β F) (Table (α × β) F) :=
  AdjointInverse.ofRoundTrips Grid.uncurry Table.curry
    (fun h => do
      let there ← (← h.curry).uncurry
      Path.ofPointwise there h fun z => do return .refl (← h.apply z))
    (fun g => do
      let back ← (← g.uncurry).curry
      Path.ofPointwise₂ back g fun a b => do return .refl (← g.apply a b))

/-- Dependent functions of two arguments are equivalent to dependent functions on pairs. -/
def AdjointEquiv.uncurry (α β F : Type) [Enumerated α] [DecidableEq α] [Display α]
    [Enumerated β] [DecidableEq β] [Display β] [DecidableEq F] [Display F] [Family (α × β) F] :
    AdjointEquiv (Grid α β F) (Table (α × β) F) :=
  ofParts Grid.uncurry (AdjointInverse.uncurry α β F)

end PathAlgebra
