import PathAlgebra.Path.Basic

set_option autoImplicit false

/-! # Type families

A family over `ι` is given by its total space: every value carries the index of the fiber in
which it lies. In the product of two families a value is a pair whose components have the same
index, so the index of a pair asserts that they do.
-/

namespace PathAlgebra

variable {ι α P Q : Type}

/-- `P` is the total space of a family over `ι`. -/
class Family (ι : outParam Type) (P : Type) where
  /-- The index of the fiber in which a value lies. -/
  index : P → Asserted ι

/-- The family whose fibers are all `α`. -/
structure Fiber (ι α : Type) where
  /-- The index of the fiber. -/
  index : ι
  /-- The value in the fiber. -/
  value : α
  deriving DecidableEq

instance [Display ι] [Display α] : Display (Fiber ι α) :=
  ⟨fun u => "Fiber \x7b index: " ++ display u.index ++ ", value: " ++ display u.value ++ " \x7d",
    "Fiber<" ++ typeName ι ++ ", " ++ typeName α ++ ">"⟩

instance : Family ι (Fiber ι α) := ⟨fun u => .ok u.index⟩

/-- The pointwise product of two families. -/
instance [DecidableEq ι] [Display ι] [Family ι P] [Family ι Q] : Family ι (P × Q) :=
  ⟨fun u => do
    let left ← Family.index u.1
    let right ← Family.index u.2
    assertSame left right
    return left⟩

/-- Carries a value along a path of indices. Asserts that it lies over the start of the path. -/
def Path.transport [DecidableEq ι] [Display ι] [Family ι P] (p : Path ι) (u : P) : Asserted P := do
  assertSame (← Family.index u) p.source
  return u

@[simp] theorem Family.index_fiber (u : Fiber ι α) : Family.index u = .ok u.index := rfl

end PathAlgebra
