import PathAlgebra.Pair.Map
import PathAlgebra.Proofs.Cell.Path

set_option autoImplicit false

/-! # Cells are functorial

A function acts on the cells of every dimension by its action on their points, so it keeps the
dimension and whatever is built from reflexivities alone. The partial operations go through on the
images of cells wherever they do on the cells, and give the image of the result; the converse holds
of `inverse`, which looks at the dimension only, and fails of `between` and `concat` where two
values have one image.

Functions that may break an assertion are applied once, to the point (`mapM_eq_map_base`). For
pairs of cells they are taken in the order in which `mapPair` takes them.
-/

namespace PathAlgebra.Cell

variable {α α' β β' γ : Type}

/-! ## Mapping -/

theorem map_id (c : Cell α) : c.map id = c := by
  induction c with
  | point x => rfl
  | refl c ih => exact congrArg refl ih

theorem map_map (f : α → β) (g : β → γ) (c : Cell α) : (c.map f).map g = c.map (g ∘ f) := by
  induction c with
  | point x => rfl
  | refl c ih => exact congrArg refl ih

/-- The ends of the image are the images of the ends. -/
theorem boundary_map (f : α → β) (c : Cell α) :
    (c.map f).boundary = c.boundary.map (Prod.map (map f) (map f)) := by
  cases c <;> rfl

/-- A function that may break an assertion is applied once, whatever the dimension. -/
theorem mapM_eq_map_base (f : α → Asserted β) (c : Cell α) :
    c.mapM f = (f c.base).map fun y => c.map fun _ => y := by
  induction c with
  | point x =>
      rw [mapM, base]
      cases f x <;> rfl
  | refl c ih =>
      rw [mapM, ih, base]
      cases f c.base <;> rfl

/-- A composite of functions that may break assertions breaks the same one as they do in turn. -/
theorem mapM_mapM (f : α → Asserted β) (g : β → Asserted γ) (c : Cell α) :
    (do (← c.mapM f).mapM g) = c.mapM (fun x => do g (← f x)) := by
  induction c with
  | point x => simp only [mapM, bind_assoc, pure_bind]
  | refl c ih => simp only [mapM, bind_assoc, pure_bind, ← ih]

theorem dim_of_mapM_eq_ok {f : α → Asserted β} {c : Cell α} {d : Cell β} (h : c.mapM f = .ok d) :
    d.dim = c.dim := by
  rw [mapM_eq_map_base] at h
  cases hy : f c.base with
  | error breach => rw [hy] at h; cases h
  | ok y =>
      rw [hy] at h
      cases h
      exact dim_map _ c

/-! ## Operations that need ends to meet -/

section

variable [Display α] [Display β]

theorem inverse_eq_ok {c r : Cell α} : c.inverse = .ok r ↔ 0 < c.dim ∧ r = c := by
  cases c with
  | point x => simp [inverse, refuse, dim]
  | refl c => simp [inverse, dim, eq_comm]

/-- An image can be inverted exactly if the cell can. -/
theorem inverse_map_eq_ok {f : α → β} {c : Cell α} {d : Cell β} :
    (c.map f).inverse = .ok d ↔ ∃ r, c.inverse = .ok r ∧ d = r.map f := by
  simp only [inverse_eq_ok, dim_map]
  constructor
  · rintro ⟨h, rfl⟩
    exact ⟨c, ⟨h, rfl⟩, rfl⟩
  · rintro ⟨_, ⟨h, rfl⟩, rfl⟩
    exact ⟨h, rfl⟩

variable [DecidableEq α] [DecidableEq β]

theorem between_map {x y r : Cell α} (h : between x y = .ok r) (f : α → β) :
    between (x.map f) (y.map f) = .ok (r.map f) := by
  obtain ⟨rfl, rfl⟩ := between_eq_ok.mp h
  exact between_eq_ok.mpr ⟨rfl, rfl⟩

theorem concat_map {x y r : Cell α} (h : concat x y = .ok r) (f : α → β) :
    concat (x.map f) (y.map f) = .ok (r.map f) := by
  obtain ⟨hdim, rfl, rfl⟩ := concat_eq_ok.mp h
  exact concat_eq_ok.mpr ⟨(dim_map f r).symm ▸ hdim, rfl, rfl⟩

/-- Three cells are concatenated from the left exactly if they are from the right, and to the same
cell. -/
theorem concat_assoc {x y z w : Cell α} :
    (do (← concat x y).concat z : Fallible (Cell α)) = .ok w ↔
      (do x.concat (← concat y z) : Fallible (Cell α)) = .ok w := by
  simp only [bind_eq_ok, concat_eq_ok]
  constructor
  · rintro ⟨_, ⟨hx, rfl, rfl⟩, -, rfl, rfl⟩
    exact ⟨_, ⟨hx, rfl, rfl⟩, hx, rfl, rfl⟩
  · rintro ⟨_, ⟨hy, rfl, rfl⟩, hx, rfl, rfl⟩
    exact ⟨_, ⟨hx, rfl, rfl⟩, hx, rfl, rfl⟩

end

/-! ## Path spaces -/

section

variable [DecidableEq α]

/-- The path space of `x` and `y` has the cells that run from `x` to `y`. -/
theorem mem_paths_iff_boundary {x y p : Cell α} : p ∈ paths x y ↔ p.boundary = some (x, y) := by
  rw [mem_paths]
  cases p with
  | point a => simp [boundary]
  | refl c =>
      simp only [boundary, refl.injEq, Option.some.injEq, Prod.mk.injEq]
      constructor
      · rintro ⟨rfl, rfl⟩
        exact ⟨rfl, rfl⟩
      · rintro ⟨rfl, rfl⟩
        exact ⟨rfl, rfl⟩

theorem length_paths_le_one (x y : Cell α) : (paths x y).length ≤ 1 := by
  unfold paths
  split
  · exact le_rfl
  · exact Nat.zero_le 1

end

/-! ## Cells of pairs -/

/-- The components of an image are the images of the components; the function on the first
components is applied first. -/
theorem unpair_mapM_mapPair (f : α → Asserted α') (g : β → Asserted β') (z : Cell (α × β)) :
    (do return (← z.mapM (mapPair f g)).unpair) =
      (do return (← z.unpair.1.mapM f, ← z.unpair.2.mapM g) : Asserted (Cell α' × Cell β')) := by
  induction z with
  | point w => simp only [mapM, mapPair, unpair_point, bind_assoc, pure_bind]
  | refl z ih =>
      -- both sides put one more reflexivity on the components
      have hrefl := congrArg (fun x : Asserted (Cell α' × Cell β') => do
        let w ← x
        return (refl w.1, refl w.2)) ih
      simpa only [mapM, unpair_refl, bind_assoc, pure_bind] using hrefl

section

variable [Display α'] [Display β']

theorem mapM_mapPair_eq_ok {f : α → Asserted α'} {g : β → Asserted β'} {z : Cell (α × β)}
    {w : Cell (α' × β')} :
    z.mapM (mapPair f g) = .ok w ↔
      z.unpair.1.mapM f = .ok w.unpair.1 ∧ z.unpair.2.mapM g = .ok w.unpair.2 := by
  have h := unpair_mapM_mapPair f g z
  constructor
  · intro hw
    rw [hw, ok_bind] at h
    obtain ⟨x, hx, h⟩ := bind_eq_ok.mp h.symm
    obtain ⟨y, hy, h⟩ := bind_eq_ok.mp h
    obtain ⟨rfl, rfl⟩ := Prod.ext_iff.mp (Except.ok.inj h)
    exact ⟨hx, hy⟩
  · rintro ⟨hx, hy⟩
    rw [hx, hy, ok_bind, ok_bind] at h
    obtain ⟨w', hw', h⟩ := bind_eq_ok.mp h
    rw [hw', unpair_injective (Except.ok.inj h)]

variable [Display α] [Display β]

/-- Functions that break no assertion do not change which cells have a pair. -/
theorem exists_pair_map_eq_ok {f : α → α'} {g : β → β'} {x : Cell α} {y : Cell β} :
    (∃ w, pair (x.map f) (y.map g) = .ok w) ↔ ∃ z, pair x y = .ok z := by
  rw [exists_pair_eq_ok, exists_pair_eq_ok, dim_map, dim_map]

/-- Two images have a pair exactly if the cells have one whose image exists, and it is this
image. -/
theorem pair_mapM_eq_ok {f : α → Asserted α'} {g : β → Asserted β'} {x : Cell α} {y : Cell β}
    {w : Cell (α' × β')} :
    (∃ x' y', x.mapM f = .ok x' ∧ y.mapM g = .ok y' ∧ pair x' y' = .ok w) ↔
      ∃ z, pair x y = .ok z ∧ z.mapM (mapPair f g) = .ok w := by
  constructor
  · rintro ⟨x', y', hx, hy, hw⟩
    have hdim : x.dim = y.dim := by
      rw [← dim_of_mapM_eq_ok hx, ← dim_of_mapM_eq_ok hy]
      exact exists_pair_eq_ok.mp ⟨w, hw⟩
    obtain ⟨z, hz⟩ := exists_pair_eq_ok.mpr hdim
    refine ⟨z, hz, mapM_mapPair_eq_ok.mpr ?_⟩
    rw [pair_eq_ok.mp hz, pair_eq_ok.mp hw]
    exact ⟨hx, hy⟩
  · rintro ⟨z, hz, hw⟩
    obtain ⟨hx, hy⟩ := mapM_mapPair_eq_ok.mp hw
    rw [pair_eq_ok.mp hz] at hx hy
    exact ⟨_, _, hx, hy, pair_unpair w⟩

end

/-! ## All operations -/

/-- **Functions act on cells of every dimension.** Mapping keeps the dimension and maps the
boundary, and it respects identities, composition and reflexivities. An image has an inverse
exactly if the cell has one, and where two cells have a cell between them or can be concatenated
so can their images; all these results are the images of the results. The components of the image
of a cell of pairs are the images of its components, and two images have a pair exactly if the
cells have one with an image, which is this pair; there the functions may break assertions.
Concatenation is associative, both in when it goes through and in what it gives. The path space of
two cells has the cells that they bound, at most one. -/
theorem functoriality (α α' α'' β β' : Type) [DecidableEq α] [Display α] [DecidableEq α']
    [Display α'] [Display β] [Display β'] :
    (∀ (f : α → α') (c : Cell α), (c.map f).dim = c.dim ∧
      (c.map f).boundary = c.boundary.map (Prod.map (map f) (map f)) ∧
      (refl c).map f = refl (c.map f) ∧ c.mapM (fun a => .ok (f a)) = .ok (c.map f)) ∧
    (∀ c : Cell α, c.map id = c) ∧
    (∀ (f : α → α') (g : α' → α'') (c : Cell α), c.map (g ∘ f) = (c.map f).map g) ∧
    (∀ (f : α → Asserted α') (g : α' → Asserted α'') (c : Cell α),
      (c.mapM fun x => do g (← f x)) = do (← c.mapM f).mapM g) ∧
    (∀ (f : α → α') (c : Cell α) (d), (c.map f).inverse = .ok d ↔
      ∃ r, c.inverse = .ok r ∧ d = r.map f) ∧
    (∀ (f : α → α') (x y r : Cell α), between x y = .ok r →
      between (x.map f) (y.map f) = .ok (r.map f)) ∧
    (∀ (f : α → α') (x y r : Cell α), concat x y = .ok r →
      concat (x.map f) (y.map f) = .ok (r.map f)) ∧
    (∀ (f : α → Asserted α') (g : β → Asserted β') (z : Cell (α × β)),
      (do return (← z.mapM (mapPair f g)).unpair) =
        (do return (← z.unpair.1.mapM f, ← z.unpair.2.mapM g) :
          Asserted (Cell α' × Cell β'))) ∧
    (∀ (f : α → Asserted α') (g : β → Asserted β') (x : Cell α) (y : Cell β) (w),
      (∃ x' y', x.mapM f = .ok x' ∧ y.mapM g = .ok y' ∧ pair x' y' = .ok w) ↔
        ∃ z, pair x y = .ok z ∧ z.mapM (mapPair f g) = .ok w) ∧
    (∀ (f : α → α') (g : β → β') (x : Cell α) (y : Cell β),
      (∃ w, pair (x.map f) (y.map g) = .ok w) ↔ ∃ z, pair x y = .ok z) ∧
    (∀ x y z w : Cell α, (do (← concat x y).concat z : Fallible (Cell α)) = .ok w ↔
      (do x.concat (← concat y z) : Fallible (Cell α)) = .ok w) ∧
    (∀ x y p : Cell α, p ∈ paths x y ↔ p.boundary = some (x, y)) ∧
    (∀ x y : Cell α, (paths x y).length ≤ 1) :=
  ⟨fun f c => ⟨dim_map f c, boundary_map f c, rfl, mapM_eq_ok_map f c⟩, map_id,
    fun f g c => (map_map f g c).symm, fun f g c => (mapM_mapM f g c).symm,
    fun _ _ _ => inverse_map_eq_ok, fun f _ _ _ h => between_map h f,
    fun f _ _ _ h => concat_map h f, unpair_mapM_mapPair, fun _ _ _ _ _ => pair_mapM_eq_ok,
    fun _ _ _ _ => exists_pair_map_eq_ok, fun _ _ _ _ => concat_assoc,
    fun _ _ _ => mem_paths_iff_boundary, length_paths_le_one⟩

/-- Negation acts on the cells between truth values. -/
theorem functoriality_not :
    between (point true) (point true) = .ok (refl (point true)) ∧
    between (point false) (point false) = .ok ((refl (point true)).map not) ∧
    concat (refl (point true)) (refl (point true)) = .ok (refl (point true)) ∧
    concat (refl (point false)) (refl (point false)) = .ok ((refl (point true)).map not) := by
  obtain ⟨-, -, -, -, -, hbetween, hconcat, -⟩ := functoriality Bool Bool Bool Bool Bool
  exact ⟨rfl, hbetween not (point true) (point true) _ rfl, rfl,
    hconcat not (refl (point true)) (refl (point true)) _ rfl⟩

end PathAlgebra.Cell
