import PathAlgebra.Path.Basic

set_option autoImplicit false

/-! # The laws of paths

Paths form a groupoid, and functions act on them functorially. Each law is a path between paths,
given by its point; the sides that it joins stand in its description. `Path.unique` joins any two
paths with the same ends.
-/

namespace PathAlgebra.Path

variable {α β γ : Type}

/-- `p` followed by a path that stays is `p`. -/
def concatRefl : Path α → Path (Path α)
  | refl x => refl (refl x)

/-- A path that stays, followed by `p`, is `p`. -/
def reflConcat : Path α → Path (Path α)
  | refl x => refl (refl x)

/-- `p` followed by its inverse stays. -/
def concatInverse : Path α → Path (Path α)
  | refl x => refl (refl x)

/-- The inverse of `p` followed by `p` stays. -/
def inverseConcat : Path α → Path (Path α)
  | refl x => refl (refl x)

/-- The inverse of the inverse of `p` is `p`. -/
def inverseInverse : Path α → Path (Path α)
  | refl x => refl (refl x)

/-- The identity function maps `p` to `p`. -/
def mapId : Path α → Path (Path α)
  | refl x => refl (refl x)

/-- Mapping `p` by a composite is mapping it by `f` and then by `g`. -/
def mapComp (f : α → Asserted β) (g : β → Asserted γ) : Path α → Asserted (Path (Path γ))
  | refl x => do return refl (refl (← g (← f x)))

/-- Two paths with the same ends are equal. Asserts that the ends are the same. -/
def unique [DecidableEq α] [Display α] (p q : Path α) : Asserted (Path (Path α)) := do
  q.assertEnds p.source p.target
  return refl (refl p.source)

theorem unique_eq_ok [DecidableEq α] [Display α] {p q : Path α} {r : Path (Path α)} :
    unique p q = .ok r ↔ q = p ∧ r = refl p := by
  cases p with
  | refl x =>
    cases q with
    | refl y =>
      by_cases h : y = x
      · subst h
        simp [unique, assertEnds, source, target, bind, Except.bind, pure, Except.pure, eq_comm]
      · simp [unique, assertEnds, source, assertSame, h, bind, Except.bind]

end PathAlgebra.Path
