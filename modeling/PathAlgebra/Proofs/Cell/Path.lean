import Mathlib.Data.Set.Function
import PathAlgebra.Cell
import PathAlgebra.Pair.Path
import PathAlgebra.Proofs.Cell.Pairing

set_option autoImplicit false

/-! # Paths as cells

The cells of dimension 1 are the paths: `ofPath` is a bijection from paths onto them
(`bijOn_ofPath`), and each operation on cells does on them what the operation on paths does
(`ofPath_operations`). The two differ in how they end without a value. Where ends have to meet, an
operation on paths breaks an assertion and the one on cells refuses; they do so at the same paths.
-/

namespace PathAlgebra.Cell

variable {α β : Type}

/-! ## The cells of dimension 1 -/

theorem ofPath_injective : Function.Injective (ofPath : Path α → Cell α) := by
  intro p q h
  cases p with
  | refl x =>
      cases q with
      | refl y =>
          rw [ofPath, ofPath, refl.injEq, point.injEq] at h
          rw [h]

theorem dim_eq_one_iff {c : Cell α} : c.dim = 1 ↔ ∃ p, ofPath p = c := by
  constructor
  · intro h
    match c with
    | refl (point x) => exact ⟨.refl x, rfl⟩
    | refl (refl c) => simp [dim] at h
  · rintro ⟨⟨x⟩, rfl⟩
    rfl

/-- Paths are the cells of dimension 1. -/
theorem bijOn_ofPath : Set.BijOn ofPath Set.univ {c : Cell α | c.dim = 1} := by
  refine ⟨fun p _ => ?_, ofPath_injective.injOn, fun c hc => ?_⟩
  · exact dim_eq_one_iff.mpr ⟨p, rfl⟩
  · obtain ⟨p, hp⟩ := dim_eq_one_iff.mp hc
    exact ⟨p, Set.mem_univ p, hp⟩

/-! ## Operations that need ends to meet -/

section

variable [DecidableEq α] [Display α]

theorem concat_eq_ok {c d r : Cell α} : concat c d = .ok r ↔ 0 < c.dim ∧ c = d ∧ r = c := by
  cases c with
  | point x => simp [concat, boundary, refuse, dim]
  | refl c =>
      cases d with
      | point y => simp [concat, boundary, refuse]
      | refl d =>
          rw [concat_refl_refl]
          by_cases h : c = d
          · simp [h, dim, eq_comm]
          · simp [h, refuse]

/-- Between two points there are a path and a cell, or neither. -/
theorem between_point_eq_ok {x y : α} {c : Cell α} :
    between (point x) (point y) = .ok c ↔ ∃ p, Path.between x y = .ok p ∧ c = ofPath p := by
  rw [between_eq_ok, point.injEq]
  constructor
  · rintro ⟨h, rfl⟩
    exact ⟨.refl x, Path.between_eq_ok.mpr ⟨h, rfl⟩, rfl⟩
  · rintro ⟨p, hp, rfl⟩
    obtain ⟨h, rfl⟩ := Path.between_eq_ok.mp hp
    exact ⟨h, rfl⟩

/-- Two paths that meet are concatenated to the path that their cells give, and if they do not
meet neither do their cells. -/
theorem concat_ofPath_eq_ok {p q : Path α} {c : Cell α} :
    concat (ofPath p) (ofPath q) = .ok c ↔ ∃ r, p.concat q = .ok r ∧ c = ofPath r := by
  have hdim : 0 < (ofPath p).dim := by
    rw [dim_eq_one_iff.mpr ⟨p, rfl⟩]
    exact Nat.one_pos
  rw [concat_eq_ok]
  constructor
  · rintro ⟨-, h, rfl⟩
    exact ⟨p, Path.concat_eq_ok.mpr ⟨ofPath_injective h, rfl⟩, rfl⟩
  · rintro ⟨r, hr, rfl⟩
    obtain ⟨rfl, rfl⟩ := Path.concat_eq_ok.mp hr
    exact ⟨hdim, rfl, rfl⟩

end

/-! ## Operations that go through on all paths -/

theorem inverse_ofPath [Display α] (p : Path α) :
    (ofPath p).inverse = .ok (ofPath p.inverse) := by
  cases p
  rfl

theorem boundary_ofPath (p : Path α) :
    (ofPath p).boundary = some (point p.source, point p.target) := by
  cases p
  rfl

theorem map_ofPath (f : α → β) (p : Path α) : (ofPath p).map f = ofPath (p.map f) := by
  cases p
  rfl

/-- Also a function that breaks an assertion does so at a path and at its cell alike. -/
theorem mapM_ofPath (f : α → Asserted β) (p : Path α) :
    (ofPath p).mapM f = (p.mapM f).map ofPath := by
  cases p with
  | refl x => cases h : f x <;> simp [ofPath, mapM, Path.mapM, h, bind, Except.bind, Except.map,
      pure, Except.pure]

theorem unpair_ofPath (r : Path (α × β)) :
    (ofPath r).unpair = (ofPath r.unpair.1, ofPath r.unpair.2) := by
  rw [unpair, map_ofPath, map_ofPath]
  rfl

theorem pair_ofPath [DecidableEq α] [Display α] [DecidableEq β] [Display β] (p : Path α)
    (q : Path β) : ∃ r, p.pair q = .ok r ∧ pair (ofPath p) (ofPath q) = .ok (ofPath r) := by
  refine ⟨_, Path.pair_eq_ok p q, pair_eq_ok.mpr ?_⟩
  rw [unpair_ofPath]
  cases p
  cases q
  rfl

/-! ## All operations -/

/-- **Cells of dimension 1 refine paths.** Every cell of dimension 1 is the cell of exactly one
path. Where an operation on paths ends with a value, the operation on their cells ends with the
cell of that value, and where the one on paths breaks an assertion or is refused, the one on cells
is refused. The ends of a path are the points at the boundary of its cell. -/
theorem ofPath_operations (α β : Type) [DecidableEq α] [Display α] [DecidableEq β] [Display β] :
    Set.BijOn ofPath (Set.univ : Set (Path α)) {c | c.dim = 1} ∧
    (∀ (x y : α) (c), between (point x) (point y) = .ok c ↔
      ∃ p, Path.between x y = .ok p ∧ c = ofPath p) ∧
    (∀ (p q : Path α) (c), (ofPath p).concat (ofPath q) = .ok c ↔
      ∃ r, p.concat q = .ok r ∧ c = ofPath r) ∧
    (∀ p : Path α, (ofPath p).inverse = .ok (ofPath p.inverse)) ∧
    (∀ p : Path α, (ofPath p).boundary = some (point p.source, point p.target)) ∧
    (∀ (f : α → β) (p), (ofPath p).map f = ofPath (p.map f)) ∧
    (∀ (f : α → Asserted β) (p), (ofPath p).mapM f = (p.mapM f).map ofPath) ∧
    (∀ (p : Path α) (q : Path β), ∃ r, p.pair q = .ok r ∧
      pair (ofPath p) (ofPath q) = .ok (ofPath r)) ∧
    (∀ r : Path (α × β), (ofPath r).unpair = (ofPath r.unpair.1, ofPath r.unpair.2)) :=
  ⟨bijOn_ofPath, fun _ _ _ => between_point_eq_ok, fun _ _ _ => concat_ofPath_eq_ok,
    inverse_ofPath, boundary_ofPath, map_ofPath, mapM_ofPath, pair_ofPath, unpair_ofPath⟩

end PathAlgebra.Cell
