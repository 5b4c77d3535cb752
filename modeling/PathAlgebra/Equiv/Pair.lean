import PathAlgebra.Equiv.Basic
import PathAlgebra.Pair.Map

set_option autoImplicit false

/-! # Equivalences of pair types

Pairs of paths are equivalent to paths of pairs (`paths`), two equivalences act on pairs
componentwise (`prod`), and the components of a pair can be exchanged (`swap`).
-/

namespace PathAlgebra

variable {α α' β β' : Type}

namespace AdjointInverse

/-- Taking a path of pairs apart is inverse to pairing paths. All round trips are reflexivities
at reflexivities, and so is the triangle law. -/
def paths (α β : Type) : AdjointInverse (Path α × Path β) (Path (α × β)) where
  inv r := .ok r.unpair
  sect
    | (.refl x, .refl y) => .ok (.refl (.refl x, .refl y))
  retr r := .ok (Path.pairUnpair r)
  adj
    | (.refl x, .refl y) => .ok (.refl (.refl (.refl (x, y))))

variable [DecidableEq α] [Display α] [DecidableEq β] [Display β]
variable [DecidableEq α'] [Display α'] [DecidableEq β'] [Display β']

/-- The componentwise inverse of two equivalences. The round trips pair those of the components.
The triangle law leads from the round trip at the image, over the paired triangle laws of the
components and the naturality of pairing, to the image of the round trip. -/
def prod (e : AdjointEquiv α α') (e' : AdjointEquiv β β') :
    AdjointInverse (α × β) (α' × β') where
  inv := mapPair e.inv e'.inv
  sect z := do
    let p ← (← e.sect z.1).pair (← e'.sect z.2)
    p.concat (Path.pairEta z)
  retr w := do
    let p ← (← e.retr w.1).pair (← e'.retr w.2)
    p.concat (Path.pairEta w)
  adj z := do
    let sectLeft ← e.sect z.1
    let sectRight ← e'.sect z.2
    let retrLeft ← e.retr (← e.toFun z.1)
    let retrRight ← e'.retr (← e'.toFun z.2)
    let retrPair ← retrLeft.pair retrRight
    let sectPair ← sectLeft.pair sectRight
    let triangles ← (← e.adj z.1).pair (← e'.adj z.2)
    let adjPair ← triangles.mapM fun pq => pq.1.pair pq.2
    let natural ← Path.mapPairNatural e.toFun e'.toFun sectLeft sectRight
    let unit ← (Path.concatRefl sectPair).inverse.mapM fun r =>
      r.mapM (mapPair e.toFun e'.toFun)
    let whole ← (Path.concatRefl retrPair).concat adjPair
    let whole ← whole.concat natural.inverse
    whole.concat unit

end AdjointInverse

namespace AdjointEquiv

/-- The exchange of the components. -/
def swap (α β : Type) : AdjointEquiv (α × β) (β × α) where
  toFun z := .ok (z.2, z.1)
  inv w := .ok (w.2, w.1)
  sect z := .ok (Path.pairEta z)
  retr w := .ok (Path.pairEta w)
  adj z := .ok (.refl (.refl (z.2, z.1)))

variable [DecidableEq α] [Display α] [DecidableEq β] [Display β]
variable [DecidableEq α'] [Display α'] [DecidableEq β'] [Display β']

/-- Pairs of paths are equivalent to paths of pairs. Restricted to fixed ends, this is the
equivalence of `(z.1 = z'.1) × (z.2 = z'.2)` and `z = z'`. -/
def paths : AdjointEquiv (Path α × Path β) (Path (α × β)) :=
  ofParts (fun pq => pq.1.pair pq.2) (AdjointInverse.paths α β)

/-- The componentwise action of two equivalences. -/
def prod (e : AdjointEquiv α α') (e' : AdjointEquiv β β') : AdjointEquiv (α × β) (α' × β') :=
  ofParts (mapPair e.toFun e'.toFun) (AdjointInverse.prod e e')

end AdjointEquiv

end PathAlgebra
