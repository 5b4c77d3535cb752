import PathAlgebra.Equiv.Check
import PathAlgebra.Equiv.Pair
import PathAlgebra.Level.Witness
import PathAlgebra.Table.Extensionality

set_option autoImplicit false

/-! # Checks of the statements about pairs

Each statement about pairs is checked by going through all values of two finite carriers, which
may be any two carriers. A check computes both sides of its statement and refuses at the first
values where they differ.
-/

namespace PathAlgebra.PairTheory

open Enumerated (elements)

/-- Refuses two different values. -/
def same {α : Type} [DecidableEq α] [Display α] (x y : α) : Outcome Unit := do
  let _ ← Path.between x y

/-- All pairs of paths between the components of `z` and those of `z'`. -/
def componentPaths {α β : Type} [DecidableEq α] [Display α] [Enumerated α] [DecidableEq β]
    [Display β] [Enumerated β] (z z' : α × β) : List (Path α × Path β) :=
  elements.filter fun pq => (pq.1.check z.1 z'.1).isOk && (pq.2.check z.2 z'.2).isOk

variable (α β : Type)
variable [DecidableEq α] [Display α] [Enumerated α]
variable [DecidableEq β] [Display β] [Enumerated β]

/-! ## Pairs and their paths -/

/-- A value over the components of a pair is a value over the pair. -/
def unpackCheck : Outcome Unit :=
  (elements : List (α × β)).forM fun u => do
    let fiber ← Family.fiberElements (Fiber (α × β) Bool) (u.1, u.2)
    fiber.forM fun w => do same (← unpack u w) w

/-- A pair is the pair of its components. -/
def pairEtaCheck : Outcome Unit :=
  (elements : List (α × β)).forM fun z => do
    (Path.pairEta z).check (z.1, z.2) z

/-- Paths between the components give a path between the pairs. -/
def ofComponentsCheck : Outcome Unit :=
  (elements : List (α × β)).forM fun z => elements.forM fun z' =>
    (componentPaths z z').forM fun pq => do
      let r ← Path.ofComponents z z' pq.1 pq.2
      r.check z z'

/-- A pair of paths between the components gives the same path. -/
def ofComponentPairCheck : Outcome Unit :=
  (elements : List (α × β)).forM fun z => elements.forM fun z' =>
    (componentPaths z z').forM fun pq => do
      let r ← Path.ofComponentPair z z' pq
      r.check z z'
      same r (← Path.ofComponents z z' pq.1 pq.2)

/-- Two paths give a path between the pairs of their ends. -/
def pairCheck : Outcome Unit :=
  (elements : List (Path α × Path β)).forM fun pq => do
    let r ← pq.1.pair pq.2
    let z := (pq.1.source, pq.2.source)
    let z' := (pq.1.target, pq.2.target)
    same r (← Path.ofComponents z z' pq.1 pq.2)

/-- The first component of a pair of paths is the first path. -/
def fstPairCheck : Outcome Unit :=
  (elements : List (Path α × Path β)).forM fun pq => do
    let r ← pq.1.pair pq.2
    (Path.fstPair pq.1 pq.2).check (r.map Prod.fst) pq.1

/-- The second component of a pair of paths is the second path. -/
def sndPairCheck : Outcome Unit :=
  (elements : List (Path α × Path β)).forM fun pq => do
    let r ← pq.1.pair pq.2
    (Path.sndPair pq.1 pq.2).check (r.map Prod.snd) pq.2

/-- A path of pairs is the pair of its components. -/
def pairUnpairCheck : Outcome Unit :=
  (elements : List (Path (α × β))).forM fun r => do
    (Path.pairUnpair r).check (← r.unpair.1.pair r.unpair.2) r

/-- Pairs of paths are equivalent to paths of pairs, also between any two fixed ends. -/
def pathsCheck : Outcome Unit := do
  let e : AdjointEquiv (Path α × Path β) (Path (α × β)) := AdjointEquiv.paths
  e.checkAll
  (elements : List (α × β)).forM fun z => elements.forM fun z' =>
    Outcome.within (.fixedEnds (display z) (display z')) do
      e.check (componentPaths z z') (elements.filter fun r => (r.check z z').isOk)

/-- Transport in a product of families is componentwise. -/
def transportPairCheck : Outcome Unit :=
  (elements : List (Path α)).forM fun p => do
    let left ← Family.fiberElements (Fiber α β) p.source
    let right ← Family.fiberElements (Fiber α Bool) p.source
    left.forM fun u => right.forM fun v => do
      let r ← p.transportPair (u, v)
      let whole ← p.transport (u, v)
      r.check whole (← p.transport u, ← p.transport v)

/-! ## Functions on pairs -/

/-- Functions act on pairs componentwise. -/
def mapPairCheck : Outcome Unit :=
  (elements : List (α × β)).forM fun z => do
    let w ← mapPair (fun a => .ok (some a)) (fun b => .ok (b, b)) z
    same w (some z.1, (z.2, z.2))

/-- Identities act as the identity. -/
def mapPairIdCheck : Outcome Unit :=
  (elements : List (α × β)).forM fun z => do
    (Path.mapPairId z).check (← mapPair .ok .ok z) z

/-- Composites act as the composite. -/
def mapPairCompCheck : Outcome Unit :=
  (elements : List (α × β)).forM fun z => do
    let f : α → Asserted (Option α) := fun a => .ok (some a)
    let f' : Option α → Asserted Bool := fun a => .ok a.isSome
    let g : β → Asserted (β × Unit) := fun b => .ok (b, ())
    let g' : β × Unit → Asserted β := fun w => .ok w.1
    let r ← Path.mapPairComp f f' g g' z
    let whole ← mapPair (fun a => do f' (← f a)) (fun b => do g' (← g b)) z
    r.check whole (← mapPair f' g' (← mapPair f g z))

/-- The action commutes with pairing of paths. -/
def mapPairNaturalCheck : Outcome Unit :=
  (elements : List (Path α × Path β)).forM fun pq => do
    let f : α → Asserted (Option α) := fun a => .ok (some a)
    let g : β → Asserted (β × β) := fun b => .ok (b, b)
    let r ← Path.mapPairNatural f g pq.1 pq.2
    let whole ← (← pq.1.pair pq.2).mapM (mapPair f g)
    r.check whole (← (← pq.1.mapM f).pair (← pq.2.mapM g))

/-! ## Equivalences of pair types -/

/-- Equivalences act on pairs componentwise, and the action is an equivalence. -/
def prodCheck : Outcome Unit := do
  let e := (AdjointEquiv.identity α).inverse
  let e' : AdjointEquiv β (β × Unit) := AdjointEquiv.ofRoundTrips
    (fun b => .ok (b, ())) (fun w => .ok w.1) (fun w => .ok (.refl w)) (fun b => .ok (.refl b))
  let whole := e.prod e'
  whole.checkAll
  (elements : List (α × β)).forM fun z => do
    same (← whole.inv (← whole.toFun z)) z
  (elements : List (α × β × Unit)).forM fun w => do
    same (← whole.toFun (← whole.inv w)) w

/-- Exchanging the components is an equivalence, and doing it twice is the identity. -/
def swapCheck : Outcome Unit := do
  let e := AdjointEquiv.swap α β
  e.checkAll
  let twice := e.compose (AdjointEquiv.swap β α)
  twice.checkAll
  (elements : List (α × β)).forM fun z => do
    same (← twice.toFun z) z

/-- Uncurrying is an equivalence and keeps the values. -/
def uncurryCheck : Outcome Unit := do
  let grids ← Grid.elements α β (Fiber (α × β) Bool)
  let tables ← Table.elements (α × β) (Fiber (α × β) Bool)
  (AdjointEquiv.uncurry α β (Fiber (α × β) Bool)).check grids tables
  grids.forM fun g => do
    let h ← g.uncurry
    (elements : List (α × β)).forM fun z => do
      same (← h.apply z) (← g.apply z.1 z.2)

/-! ## Levels of pair types -/

/-- Contractions of two points give a contraction of their pair. -/
def contractionCheck : Outcome Unit :=
  (elements : List (α × β)).forM fun z => do
    let c ← (Contraction.singleton (.point z.1)).prod (Contraction.singleton (.point z.2))
    same c.center (.point z)
    c.verify [.point z]

/-- All points together are a set, and every single point is a proposition and contractible. -/
def levelCheck : Outcome Unit := do
  let w ← LevelWitness.setAt α 2
  let v ← LevelWitness.setAt β 2
  (← LevelWitness.prod 2 w v).verify 2 (Cell.space (α × β))
  (elements : List (α × β)).forM fun z => do
    let w ← LevelWitness.propositionAt α 1
    let v ← LevelWitness.propositionAt β 1
    (← LevelWitness.prod 1 w v).verify 1 [.point z]
    let w := LevelWitness.contractible (.point z.1)
    let v := LevelWitness.contractible (.point z.2)
    (← LevelWitness.prod 0 w v).verify 0 [.point z]

/-- All points are still a set after exchanging the components. -/
def levelTransferCheck : Outcome Unit := do
  let w ← LevelWitness.setAt α 2
  let v ← LevelWitness.setAt β 2
  let u ← LevelWitness.prod 2 w v
  (← LevelWitness.transfer 2 (AdjointEquiv.swap α β) u).verify 2 (Cell.space (β × α))

end PathAlgebra.PairTheory
