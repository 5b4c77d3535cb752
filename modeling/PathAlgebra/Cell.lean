import PathAlgebra.Carrier

set_option autoImplicit false

/-! # Cells

A cell is an element of an iterated path type: a point under a number of reflexivities. Cells of
every dimension over one type form one type, so a statement about a space of points, of paths, of
paths between paths, and so on is a statement about a list of cells.

The groupoid operations are partial: a point has no inverse, and two cells are concatenated only
where the first ends at the start of the second. Cells of pairs are pairs of cells of one
dimension.
-/

namespace PathAlgebra

variable {α β : Type}

/-- The cells over a type. -/
inductive Cell (α : Type) where
  /-- A cell of dimension 0. -/
  | point (x : α)
  /-- The cell that stays at a cell, one dimension up. -/
  | refl (c : Cell α)
  deriving DecidableEq

namespace Cell

/-- The text of a cell. -/
def displayCell [Display α] : Cell α → String
  | point x => "Point(" ++ display x ++ ")"
  | refl c => "Refl(" ++ displayCell c ++ ")"

instance [Display α] : Display (Cell α) := ⟨displayCell, "Cell<" ++ typeName α ++ ">"⟩

/-- The number of reflexivities over the point. -/
def dim : Cell α → Nat
  | point _ => 0
  | refl c => c.dim + 1

/-- The point under all reflexivities. -/
def base : Cell α → α
  | point x => x
  | refl c => c.base

/-- A path as a cell of dimension 1. -/
def ofPath : Path α → Cell α
  | .refl x => refl (point x)

/-- The start and the end of a cell of positive dimension. -/
def boundary : Cell α → Option (Cell α × Cell α)
  | point _ => none
  | refl c => some (c, c)

/-- All points of a finite carrier. -/
def space (α : Type) [Enumerated α] : List (Cell α) := Enumerated.elements.map point

/-- All cells from `x` to `y`. -/
def paths [DecidableEq α] (x y : Cell α) : List (Cell α) := if x = y then [refl x] else []

/-- The cell from `x` to `y`, which exists only if both are the same cell. -/
def between [DecidableEq α] [Display α] (x y : Cell α) : Fallible (Cell α) :=
  if x = y then .ok (refl x) else refuse (.noPath (display x) (display y))

/-- The cell run through backwards. -/
def inverse [Display α] : Cell α → Fallible (Cell α)
  | point x => refuse (.notAPath (display (point x)))
  | refl c => .ok (refl c)

/-- The cell that runs through `x` and then through `y`. -/
def concat [DecidableEq α] [Display α] (x y : Cell α) : Fallible (Cell α) :=
  match x.boundary, y.boundary with
  | some (start, middle), some (middle', finish) =>
      if middle = middle' then between start finish
      else refuse (.cannotConcat (display x) (display y))
  | _, _ => refuse (.cannotConcat (display x) (display y))

/-- Applies a function at every dimension. -/
def map (f : α → β) : Cell α → Cell β
  | point x => point (f x)
  | refl c => refl (c.map f)

/-- Applies a function that may break an assertion at every dimension. -/
def mapM (f : α → Asserted β) : Cell α → Asserted (Cell β)
  | point x => return point (← f x)
  | refl c => return refl (← c.mapM f)

/-! ## Cells of pairs -/

/-- The pair of two cells of one dimension. If the dimensions differ, the cells that are left
when one of the two has no more reflexivities are reported. -/
def pair [Display α] [Display β] : Cell α → Cell β → Fallible (Cell (α × β))
  | point x, point y => .ok (point (x, y))
  | refl c, refl d => return refl (← pair c d)
  | c, d => refuse (.dimensionMismatch (display c) (display d))

/-- The components of a cell of pairs. -/
def unpair (z : Cell (α × β)) : Cell α × Cell β := (z.map Prod.fst, z.map Prod.snd)

/-! ## The operations on cells that can be composed -/

theorem between_eq_ok [DecidableEq α] [Display α] {x y r : Cell α} :
    between x y = .ok r ↔ x = y ∧ r = refl x := by
  unfold between refuse
  split <;> simp_all [eq_comm]

theorem mem_paths [DecidableEq α] {x y p : Cell α} : p ∈ paths x y ↔ x = y ∧ p = refl x := by
  unfold paths
  split <;> simp_all

theorem concat_refl_refl [DecidableEq α] [Display α] (c d : Cell α) :
    concat (refl c) (refl d) =
      if c = d then .ok (refl c)
      else refuse (.cannotConcat (display (refl c)) (display (refl d))) := by
  by_cases h : c = d <;> simp [concat, boundary, between, h]

theorem mapM_eq_ok_map (f : α → β) (c : Cell α) :
    c.mapM (fun x => .ok (f x)) = .ok (c.map f) := by
  induction c with
  | point x => rfl
  | refl c ih => simp [mapM, map, ih, bind, Except.bind, pure, Except.pure]

end Cell

end PathAlgebra
