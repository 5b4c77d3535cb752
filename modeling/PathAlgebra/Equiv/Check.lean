import PathAlgebra.Carrier
import PathAlgebra.Equiv.Basic

set_option autoImplicit false

/-! # Checking the laws of an equivalence

The three laws are checked at listed points of the domain and of the codomain. A derived round
trip concatenates the round trip it was derived from with others, which breaks an assertion if
these do not fit together; so where there is a given round trip, it is checked first, at every
point at which the derived one uses it. The first law that fails is reported, with the point.
-/

namespace PathAlgebra.AdjointEquiv

variable {α β : Type}
variable [DecidableEq α] [Display α] [DecidableEq β] [Display β]

/-- Checks that `p` runs from `inv b'` to `a`. -/
def checkSection (e : AdjointEquiv α β) (p : Path α) (b : β) (a : α) : Outcome Unit :=
  Outcome.within (.sectionLaw (display a)) do
    p.check (← e.inv b) a

/-- Checks that `retr b` runs from `f (inv b)` to `b`. -/
def checkRoundTrip (e : AdjointEquiv α β) (retr : β → Asserted (Path β)) (b : β) :
    Outcome Unit := do
  let p ← retr b
  p.check (← e.toFun (← e.inv b)) b

/-- Checks the given round trip at `b` and at `f (inv b)`, and the round trip of the domain at
`inv b`: all that the derived round trip at `b` concatenates. -/
def checkGiven (e : AdjointEquiv α β) (given : β → Asserted (Path β)) (b : β) :
    Outcome Unit := do
  let a ← e.inv b
  let b' ← e.toFun a
  Outcome.within (.roundTripLaw (display b)) (e.checkRoundTrip given b)
  Outcome.within (.roundTripLaw (display b')) (e.checkRoundTrip given b')
  e.checkSection (← e.sect a) b' a

/-- Checks the laws at a point of the codomain. -/
def checkTarget (e : AdjointEquiv α β) (b : β) : Outcome Unit := do
  match e.given with
  | some given => e.checkGiven given b
  | none => pure ()
  Outcome.within (.retractionLaw (display b)) (e.checkRoundTrip e.retr b)

/-- Checks the laws at a point of the domain, and those at its image. -/
def checkSource (e : AdjointEquiv α β) (a : α) : Outcome Unit := do
  let b ← e.toFun a
  let p ← e.sect a
  e.checkSection p b a
  e.checkTarget b
  Outcome.within (.adjointnessLaw (display a)) do
    let triangle ← e.adj a
    let whole ← e.retr b
    triangle.check whole (← p.mapM e.toFun)

/-- Checks the laws at all listed points of the domain, then at those of the codomain. -/
def check (e : AdjointEquiv α β) (domain : List α) (codomain : List β) : Outcome Unit := do
  domain.forM e.checkSource
  codomain.forM e.checkTarget

/-- Checks the laws at all points of finite carriers. -/
def checkAll [Enumerated α] [Enumerated β] (e : AdjointEquiv α β) : Outcome Unit :=
  e.check Enumerated.elements Enumerated.elements

end PathAlgebra.AdjointEquiv
