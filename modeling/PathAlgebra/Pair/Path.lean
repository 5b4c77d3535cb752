import PathAlgebra.Path.Laws
import PathAlgebra.Family

set_option autoImplicit false

/-! # Paths in pair types

A path between two pairs is the same as a pair of paths between their components.
`Path.ofComponents` builds it between given ends, `Path.pair` takes the ends from the components,
and `Path.unpair` takes a path apart again. The laws say that the two are inverse to each other
and that transport in a product of families is componentwise.
-/

namespace PathAlgebra

variable {α β ι P Q : Type}

/-- Turns a value over `(u.1, u.2)` into one over `u`. Asserts that it lies there. -/
def unpack [DecidableEq α] [Display α] [DecidableEq β] [Display β] [Family (α × β) P]
    (u : α × β) (w : P) : Asserted P := do
  assertSame (← Family.index w) (u.1, u.2)
  return w

namespace Path

/-- The path `z = z'` with the given components. Asserts that these run between the components of
`z` and `z'`, the first components first. -/
def ofComponents [DecidableEq α] [Display α] [DecidableEq β] [Display β]
    (z z' : α × β) (p : Path α) (q : Path β) : Asserted (Path (α × β)) := do
  p.assertEnds z.1 z'.1
  q.assertEnds z.2 z'.2
  return refl (p.source, q.source)

/-- The path `z = z'` with the given pair of components. -/
def ofComponentPair [DecidableEq α] [Display α] [DecidableEq β] [Display β]
    (z z' : α × β) (pq : Path α × Path β) : Asserted (Path (α × β)) :=
  ofComponents z z' pq.1 pq.2

/-- The path of pairs with the given components, between the ends of the components. -/
def pair [DecidableEq α] [Display α] [DecidableEq β] [Display β]
    (p : Path α) (q : Path β) : Asserted (Path (α × β)) :=
  ofComponents (p.source, q.source) (p.target, q.target) p q

/-- The components of a path of pairs. -/
def unpair (r : Path (α × β)) : Path α × Path β := (r.map Prod.fst, r.map Prod.snd)

/-! ## Laws -/

/-- The pair of the components of `z` is `z`. -/
def pairEta (z : α × β) : Path (α × β) := refl (z.1, z.2)

/-- The first component of the pair of `p` and `q` is `p`. -/
def fstPair : Path α → Path β → Path (Path α)
  | refl x, refl _ => refl (refl x)

/-- The second component of the pair of `p` and `q` is `q`. -/
def sndPair : Path α → Path β → Path (Path β)
  | refl _, refl y => refl (refl y)

/-- The pair of the components of `r` is `r`. -/
def pairUnpair : Path (α × β) → Path (Path (α × β))
  | refl (x, y) => refl (refl (x, y))

/-- Transport in a product of families is transport of the components. Asserts that both
components lie over the start of `p`. -/
def transportPair [DecidableEq ι] [Display ι] [Family ι P] [Family ι Q]
    (p : Path ι) (u : P × Q) : Asserted (Path (P × Q)) := do
  assertSame (← Family.index u.1) p.source
  assertSame (← Family.index u.2) p.source
  return refl (u.1, u.2)

/-! ## Pairing never breaks an assertion -/

theorem pair_eq_ok [DecidableEq α] [Display α] [DecidableEq β] [Display β]
    (p : Path α) (q : Path β) : p.pair q = .ok (refl (p.source, q.source)) := by
  cases p
  cases q
  simp [pair, ofComponents, assertEnds, source, target, bind, Except.bind, pure, Except.pure]

end Path

end PathAlgebra
