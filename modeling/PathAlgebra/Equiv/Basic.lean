import PathAlgebra.Path.Laws

set_option autoImplicit false

/-! # Adjoint equivalences

An adjoint equivalence is a function with an inverse, a path for each of the two round trips, and
a triangle law that joins them: `adj a` runs from `retr (f a)` to the image of `sect a` under `f`.
All five are functions that may break assertions, and nothing is assumed of them; the laws are
what `PathAlgebra.Equiv.Check` checks.

`AdjointEquiv.ofRoundTrips` makes an adjoint equivalence from the two round trips alone. It
replaces the given round trip of the codomain by one for which the triangle law holds, and it
keeps the given one beside it. Inverses and composites are made in this way, from the given round
trips where there are some.
-/

namespace PathAlgebra

variable {α β γ : Type}

/-- The data that make a function an adjoint equivalence. -/
structure AdjointInverse (α β : Type) where
  /-- The inverse function. -/
  inv : β → Asserted α
  /-- The round trip of the domain: `sect a` runs from `inv (f a)` to `a`. -/
  sect : α → Asserted (Path α)
  /-- The round trip of the codomain: `retr b` runs from `f (inv b)` to `b`. -/
  retr : β → Asserted (Path β)
  /-- The triangle law: `adj a` runs from `retr (f a)` to the image of `sect a`. -/
  adj : α → Asserted (Path (Path β))
  /-- The round trip of the codomain from which `retr` was derived, if it was. -/
  given : Option (β → Asserted (Path β)) := none

/-- A function together with data that make it an adjoint equivalence. -/
structure AdjointEquiv (α β : Type) extends AdjointInverse α β where
  /-- The function itself. -/
  toFun : α → Asserted β

namespace AdjointInverse

/-- The round trip of the codomain for which the triangle law holds: the given round trip at
`f (inv b)` backwards, then the image of the round trip of the domain at `inv b`, then the given
round trip at `b`. -/
def coherentRetr [DecidableEq β] [Display β] (toFun : α → Asserted β) (inv : β → Asserted α)
    (retr : β → Asserted (Path β)) (sect : α → Asserted (Path α)) (b : β) :
    Asserted (Path β) := do
  let a ← inv b
  let back ← retr (← toFun a)
  let middle ← (← sect a).mapM toFun
  let start ← back.inverse.concat middle
  start.concat (← retr b)

/-- Completes a function, its inverse and the two round trips. Both sides of the triangle law are
then paths from `f (inv (f a))` to `f a`, so uniqueness of paths joins them. -/
def ofRoundTrips [DecidableEq β] [Display β] (toFun : α → Asserted β) (inv : β → Asserted α)
    (retr : β → Asserted (Path β)) (sect : α → Asserted (Path α)) : AdjointInverse α β where
  inv := inv
  sect := sect
  retr := coherentRetr toFun inv retr sect
  adj a := do
    let whole ← coherentRetr toFun inv retr sect (← toFun a)
    let image ← (← sect a).mapM toFun
    Path.unique whole image
  given := some retr

end AdjointInverse

namespace AdjointEquiv

/-- The function of the first part with the inverse data of the second. -/
def ofParts (toFun : α → Asserted β) (inverse : AdjointInverse α β) : AdjointEquiv α β :=
  { inverse with toFun := toFun }

/-- Completes a function, its inverse and the two round trips to an adjoint equivalence. -/
def ofRoundTrips [DecidableEq β] [Display β] (toFun : α → Asserted β) (inv : β → Asserted α)
    (retr : β → Asserted (Path β)) (sect : α → Asserted (Path α)) : AdjointEquiv α β :=
  ofParts toFun (AdjointInverse.ofRoundTrips toFun inv retr sect)

/-- The identity. -/
def identity (α : Type) : AdjointEquiv α α where
  toFun a := .ok a
  inv a := .ok a
  sect a := .ok (.refl a)
  retr a := .ok (.refl a)
  adj a := .ok (.refl (.refl a))

/-- The round trip of the codomain that was given, or the one in use if none was. -/
def givenRetr (e : AdjointEquiv α β) : β → Asserted (Path β) := e.given.getD e.retr

/-- The equivalence in the other direction, with the round trips exchanged. -/
def inverse [DecidableEq α] [Display α] (e : AdjointEquiv α β) : AdjointEquiv β α :=
  ofRoundTrips e.inv e.toFun e.sect e.givenRetr

/-- First `e`, then `e'`. Each round trip runs through the image of the inner one and then through
the outer one. -/
def compose [DecidableEq α] [Display α] [DecidableEq γ] [Display γ]
    (e : AdjointEquiv α β) (e' : AdjointEquiv β γ) : AdjointEquiv α γ :=
  ofRoundTrips
    (fun a => do e'.toFun (← e.toFun a))
    (fun c => do e.inv (← e'.inv c))
    (fun c => do
      let b ← e'.inv c
      let inner ← (← e.retr b).mapM e'.toFun
      inner.concat (← e'.retr c))
    (fun a => do
      let b ← e.toFun a
      let inner ← (← e'.sect b).mapM e.inv
      inner.concat (← e.sect a))

end AdjointEquiv

end PathAlgebra
