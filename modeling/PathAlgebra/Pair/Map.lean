import PathAlgebra.Pair.Path

set_option autoImplicit false

/-! # Functions on pairs

Two functions act on a pair componentwise. This action respects identities and composition, and
it commutes with pairing of paths. The functions may break assertions; the one on the first
components is always applied first.
-/

namespace PathAlgebra

variable {α α' α'' β β' β'' : Type}

/-- The componentwise action of two functions on a pair. -/
def mapPair (f : α → Asserted α') (g : β → Asserted β') (z : α × β) : Asserted (α' × β') := do
  return (← f z.1, ← g z.2)

namespace Path

/-- Identities act on a pair as the identity. -/
def mapPairId (z : α × β) : Path (α × β) := refl (z.1, z.2)

/-- Composites act on a pair as the composite of the actions. -/
def mapPairComp (f : α → Asserted α') (f' : α' → Asserted α'') (g : β → Asserted β')
    (g' : β' → Asserted β'') (z : α × β) : Asserted (Path (α'' × β'')) := do
  return refl (← f' (← f z.1), ← g' (← g z.2))

/-- Mapping the pair of `p` and `q` componentwise is pairing the mapped components. -/
def mapPairNatural (f : α → Asserted α') (g : β → Asserted β') :
    Path α → Path β → Asserted (Path (Path (α' × β')))
  | refl x, refl y => do return refl (refl (← f x, ← g y))

end Path

end PathAlgebra
