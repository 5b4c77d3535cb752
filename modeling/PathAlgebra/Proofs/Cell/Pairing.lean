import Mathlib.Data.List.ProdSigma
import Mathlib.Logic.Function.Iterate
import PathAlgebra.Cell
import PathAlgebra.Proofs.Enumeration
import PathAlgebra.Proofs.Sequencing

set_option autoImplicit false

/-! # Pairs of cells and product spaces

Pairing and taking apart are inverse to each other at every dimension: `pair x y` gives `z`
exactly when the components of `z` are `x` and `y` (`pair_eq_ok`), and it gives some cell exactly
when the two have the same dimension. So a space of cells of pairs is told by the components of
its cells. `IsProduct` says in this way that a space is the product of two others, which is what
the induction over levels carries from a space to its path spaces.
-/

namespace PathAlgebra.Cell

variable {α β : Type}

@[simp] theorem unpair_point (z : α × β) : (point z).unpair = (point z.1, point z.2) := rfl

@[simp] theorem unpair_refl (z : Cell (α × β)) :
    (refl z).unpair = (refl z.unpair.1, refl z.unpair.2) := rfl

theorem dim_map (f : α → β) (c : Cell α) : (c.map f).dim = c.dim := by
  induction c with
  | point x => rfl
  | refl c ih => simp [map, dim, ih]

/-- The space of a carrier has all its points. -/
theorem mem_space [Enumerated α] [LawfulEnumerated α] {x : Cell α} :
    x ∈ space α ↔ x.dim = 0 := by
  cases x with
  | point a => simp [space, dim, LawfulEnumerated.mem_elements]
  | refl c => simp [space, dim]

/-- `zs` has the cells whose components lie in `xs` and in `ys`, and these can be paired. -/
structure IsProduct (xs : List (Cell α)) (ys : List (Cell β)) (zs : List (Cell (α × β))) :
    Prop where
  /-- The cells of the product are those with components in the factors. -/
  mem_iff : ∀ z, z ∈ zs ↔ z.unpair.1 ∈ xs ∧ z.unpair.2 ∈ ys
  /-- All cells of the two factors have one dimension. -/
  dim_eq : ∀ x ∈ xs, ∀ y ∈ ys, x.dim = y.dim

/-- The space of all points of pairs is the product of the spaces of points. -/
theorem isProduct_space [Enumerated α] [LawfulEnumerated α] [Enumerated β] [LawfulEnumerated β]
    {zs : List (Cell (α × β))} (h : ∀ z, z ∈ zs ↔ z.dim = 0) :
    IsProduct (space α) (space β) zs := by
  constructor
  · intro z
    simp only [h, mem_space, unpair, dim_map, and_self]
  · intro x hx y hy
    rw [mem_space.mp hx, mem_space.mp hy]

variable [Display α] [Display β]

/-- **Pairing and taking apart are inverse.** -/
theorem pair_eq_ok {x : Cell α} {y : Cell β} {z : Cell (α × β)} :
    pair x y = .ok z ↔ z.unpair = (x, y) := by
  induction x generalizing y z with
  | point a =>
      cases y with
      | point b =>
          cases z with
          | point w => simp [pair, Prod.ext_iff, eq_comm]
          | refl w => simp [pair]
      | refl d => cases z <;> simp [pair, refuse]
  | refl c ih =>
      cases y with
      | point b => cases z <;> simp [pair, refuse]
      | refl d =>
          rw [pair, bind_eq_ok]
          cases z with
          | point w => simp [pure, Except.pure]
          | refl w =>
              simp only [ih, pure, Except.pure, Except.ok.injEq, refl.injEq, exists_eq_right,
                unpair_refl, Prod.ext_iff]

theorem pair_unpair (z : Cell (α × β)) : pair z.unpair.1 z.unpair.2 = .ok z :=
  pair_eq_ok.mpr rfl

/-- A cell of pairs is determined by its components. -/
theorem unpair_injective {z z' : Cell (α × β)} (h : z.unpair = z'.unpair) : z = z' := by
  have hz := pair_unpair z
  rw [h, pair_unpair z'] at hz
  exact (Except.ok.inj hz).symm

/-- A pair has the dimension of its components. -/
theorem dim_of_pair_eq_ok {x : Cell α} {y : Cell β} {z : Cell (α × β)} (h : pair x y = .ok z) :
    x.dim = z.dim ∧ y.dim = z.dim := by
  have hx : z.unpair.1.dim = z.dim := dim_map _ z
  have hy : z.unpair.2.dim = z.dim := dim_map _ z
  rw [pair_eq_ok.mp h] at hx hy
  exact ⟨hx, hy⟩

/-- Exactly the cells of one dimension have a pair. -/
theorem exists_pair_eq_ok {x : Cell α} {y : Cell β} :
    (∃ z, pair x y = .ok z) ↔ x.dim = y.dim := by
  constructor
  · rintro ⟨z, hz⟩
    obtain ⟨hx, hy⟩ := dim_of_pair_eq_ok hz
    exact hx.trans hy.symm
  · intro h
    induction x generalizing y with
    | point a =>
        cases y with
        | point b => exact ⟨_, rfl⟩
        | refl d => simp [dim] at h
    | refl c ih =>
        cases y with
        | point b => simp [dim] at h
        | refl d =>
            obtain ⟨z, hz⟩ := ih (y := d) (by simpa [dim] using h)
            exact ⟨refl z, pair_eq_ok.mpr (by rw [unpair_refl, pair_eq_ok.mp hz])⟩

/-- Cells of different dimensions have no pair. The report names what is left of the two when
each reflexivity of the one of lower dimension has been taken away from both. -/
theorem pair_eq_refuse {x : Cell α} {y : Cell β} (h : x.dim ≠ y.dim) :
    ∃ x' y', x = refl^[min x.dim y.dim] x' ∧ y = refl^[min x.dim y.dim] y' ∧
      pair x y = refuse (.dimensionMismatch (display x') (display y')) := by
  induction x generalizing y with
  | point a =>
      cases y with
      | point b => exact absurd rfl h
      | refl d =>
          -- a point has nothing to take away, so both cells are reported as they are
          have hmin : min (point a).dim (refl d).dim = 0 := Nat.zero_min _
          rw [hmin]
          exact ⟨point a, refl d, rfl, rfl, rfl⟩
  | refl c ih =>
      cases y with
      | point b =>
          have hmin : min (refl c).dim (point b).dim = 0 := Nat.min_zero _
          rw [hmin]
          exact ⟨refl c, point b, rfl, rfl, rfl⟩
      | refl d =>
          have hne : c.dim ≠ d.dim := fun hdim => h (congrArg (· + 1) hdim)
          have hmin : min (refl c).dim (refl d).dim = min c.dim d.dim + 1 :=
            Nat.add_min_add_right _ _ 1
          obtain ⟨x', y', hx, hy, hpair⟩ := ih hne
          refine ⟨x', y', ?_, ?_, ?_⟩
          · rw [hmin, Function.iterate_succ_apply', ← hx]
          · rw [hmin, Function.iterate_succ_apply', ← hy]
          · rw [pair, hpair]
            rfl

/-- **Cells of pairs are pairs of cells of one dimension.** Two cells have a pair exactly if their
dimensions agree. It has that dimension too, and its components are the two cells; and every cell
of pairs is the pair of its components. Two cells of different dimensions are refused, by what is
left of them at the first point. -/
theorem pairing_by_dimension (x : Cell α) (y : Cell β) :
    ((∃ z, pair x y = .ok z) ↔ x.dim = y.dim) ∧
    (∀ z, pair x y = .ok z → z.dim = x.dim ∧ z.dim = y.dim ∧ z.unpair = (x, y)) ∧
    (∀ z : Cell (α × β), pair z.unpair.1 z.unpair.2 = .ok z) ∧
    (x.dim ≠ y.dim → ∃ x' y', x = refl^[min x.dim y.dim] x' ∧ y = refl^[min x.dim y.dim] y' ∧
      pair x y = refuse (.dimensionMismatch (display x') (display y'))) := by
  refine ⟨exists_pair_eq_ok, fun z hz => ?_, pair_unpair, pair_eq_refuse⟩
  obtain ⟨hx, hy⟩ := dim_of_pair_eq_ok hz
  exact ⟨hx.symm, hy.symm, pair_eq_ok.mp hz⟩

/-! ## Product spaces -/

/-- All pairs of a cell of the first space with a cell of the second, row by row. -/
def pairs (xs : List (Cell α)) (ys : List (Cell β)) : Fallible (List (Cell (α × β))) :=
  (xs.product ys).mapM fun z => pair z.1 z.2

/-- The two components of a cell of the product can be chosen freely. -/
theorem IsProduct.exists_mem {xs : List (Cell α)} {ys : List (Cell β)}
    {zs : List (Cell (α × β))} (h : IsProduct xs ys zs) {x : Cell α} {y : Cell β}
    (hx : x ∈ xs) (hy : y ∈ ys) : ∃ z ∈ zs, z.unpair = (x, y) := by
  obtain ⟨z, hz⟩ := exists_pair_eq_ok.mpr (h.dim_eq x hx y hy)
  have hz := pair_eq_ok.mp hz
  exact ⟨z, (h.mem_iff z).mpr (by rw [hz]; exact ⟨hx, hy⟩), hz⟩

/-- Spaces of one dimension have a product, which `pairs` gives. -/
theorem exists_pairs_eq_ok {xs : List (Cell α)} {ys : List (Cell β)}
    (h : ∀ x ∈ xs, ∀ y ∈ ys, x.dim = y.dim) :
    ∃ zs, pairs xs ys = .ok zs ∧ IsProduct xs ys zs := by
  obtain ⟨zs, hzs⟩ : ∃ zs, pairs xs ys = .ok zs := by
    obtain ⟨zs, hzs⟩ := exists_forall₂ fun p (hp : p ∈ xs.product ys) =>
      have hp := List.pair_mem_product.mp hp
      exists_pair_eq_ok.mpr (h p.1 hp.1 p.2 hp.2)
    exact ⟨zs, mapM_eq_ok.mpr hzs⟩
  refine ⟨zs, hzs, ⟨fun z => ?_, h⟩⟩
  rw [mem_of_mapM_eq_ok hzs]
  constructor
  · rintro ⟨p, hp, hz⟩
    rw [pair_eq_ok.mp hz]
    exact List.pair_mem_product.mp hp
  · intro hz
    exact ⟨z.unpair, List.pair_mem_product.mpr hz, pair_unpair z⟩

/-- A single cell of pairs is the product of its components. -/
theorem isProduct_singleton (z : Cell (α × β)) :
    IsProduct [z.unpair.1] [z.unpair.2] [z] := by
  constructor
  · intro z'
    simp only [List.mem_singleton]
    constructor
    · rintro rfl
      exact ⟨rfl, rfl⟩
    · rintro ⟨hx, hy⟩
      exact unpair_injective (Prod.ext hx hy)
  · intro x hx y hy
    rw [List.mem_singleton.mp hx, List.mem_singleton.mp hy]
    exact (dim_map _ z).trans (dim_map _ z).symm

variable [DecidableEq α] [DecidableEq β]

/-- Path spaces of pairs are the products of the path spaces of the components. Off the diagonal
all of them may be empty, or only one of the factors. -/
theorem isProduct_paths (z z' : Cell (α × β)) :
    IsProduct (paths z.unpair.1 z'.unpair.1) (paths z.unpair.2 z'.unpair.2) (paths z z') := by
  constructor
  · intro p
    simp only [mem_paths]
    constructor
    · rintro ⟨rfl, rfl⟩
      exact ⟨⟨rfl, rfl⟩, ⟨rfl, rfl⟩⟩
    · rintro ⟨⟨hx, hpx⟩, ⟨hy, hpy⟩⟩
      exact ⟨unpair_injective (Prod.ext hx hy), unpair_injective (Prod.ext hpx hpy)⟩
  · intro x hx y hy
    rw [(mem_paths.mp hx).2, (mem_paths.mp hy).2]
    simp only [dim, unpair, dim_map]

end PathAlgebra.Cell
