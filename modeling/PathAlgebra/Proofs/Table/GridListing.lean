import PathAlgebra.Proofs.Table.Currying
import PathAlgebra.Proofs.Table.Listing

set_option autoImplicit false

/-! # The listing of all grids

Grids are listed as the tables that they become, one for one and in the same order. So on
lawfully enumerated domains the listing of the grids inherits what is known of the listing of
the tables: it has every well-formed grid of listed values once, each at its number.

A grid is stored by rows and a table as one list, and their entries are found by different
formulas, but both are determined by the values that they apply. Everything here goes through
these values; in particular the entries of a grid are listed exactly if those of its table are
(`Table.WellFormed.listed_curry`). The two domains may be empty: if the first one is, a grid has
no rows, and if only the second one is, all its rows are empty.
-/

namespace PathAlgebra

variable {α β F : Type}

/-! ## Listed values -/

/-- The entries of a well-formed table are the values that it applies. -/
theorem Table.WellFormed.listed_iff [Enumerated α] [LawfulEnumerated α] [Family α F]
    [Enumerated F] {t : Table α F} (ht : t.WellFormed) :
    t.Listed ↔ ∀ a u, t.apply a = .ok u → u ∈ (Enumerated.elements : List F) := by
  have hvalues {u : F} : u ∈ t.values ↔ ∃ a ∈ (Enumerated.elements : List α), t.apply a = .ok u :=
    mem_of_mapM_eq_ok ht.mapM_apply
  constructor
  · intro h a u hu
    exact h u (hvalues.mpr ⟨a, LawfulEnumerated.mem_elements a, hu⟩)
  · intro h u hu
    obtain ⟨a, -, ha⟩ := hvalues.mp hu
    exact h a u ha

namespace Grid

/-- All values of a grid are listed. -/
def Listed [Enumerated F] (g : Grid α β F) : Prop :=
  ∀ row ∈ g.rows, ∀ u ∈ row, u ∈ (Enumerated.elements : List F)

variable [Enumerated α] [LawfulEnumerated α] [Enumerated β] [LawfulEnumerated β]

/-- The entries of a well-formed grid are the values that it applies. -/
theorem WellFormed.listed_iff [Family (α × β) F] [Enumerated F] {g : Grid α β F}
    (hg : g.WellFormed) :
    g.Listed ↔ ∀ a b u, g.apply a b = .ok u → u ∈ (Enumerated.elements : List F) := by
  have hrows {row : List F} : row ∈ g.rows ↔ ∃ a ∈ (Enumerated.elements : List α),
      (Enumerated.elements : List β).mapM (g.apply a) = .ok row :=
    mem_of_mapM_eq_ok hg.mapM_apply
  constructor
  · intro h a b u hu
    -- the row of `a` holds the values at `a`
    obtain ⟨row, hrow⟩ := exists_forall₂ fun b (_ : b ∈ (Enumerated.elements : List β)) => by
      obtain ⟨v, hv, -⟩ := hg.exists_apply_eq_ok a b
      exact ⟨v, hv⟩
    have hrow := mapM_eq_ok.mpr hrow
    have hmem := (mem_of_mapM_eq_ok hrow).mpr ⟨b, LawfulEnumerated.mem_elements b, hu⟩
    exact h row (hrows.mpr ⟨a, LawfulEnumerated.mem_elements a, hrow⟩) u hmem
  · intro h row hrow u hu
    obtain ⟨a, -, ha⟩ := hrows.mp hrow
    obtain ⟨b, -, hb⟩ := (mem_of_mapM_eq_ok ha).mp hu
    exact h a b u hb

end Grid

section

variable [Enumerated α] [LawfulEnumerated α] [DecidableEq α] [Display α]
variable [Enumerated β] [LawfulEnumerated β] [DecidableEq β] [Display β] [Family (α × β) F]

/-- The grid of a well-formed table is well-formed, and uncurrying it gives the table back. -/
theorem Table.WellFormed.of_curry_eq_ok {t : Table (α × β) F} (ht : t.WellFormed)
    {g : Grid α β F} (hg : t.curry = .ok g) : g.WellFormed ∧ g.uncurry = .ok t := by
  obtain ⟨g', hwf, hcurry, huncurry⟩ := ht.uncurry_curry
  cases hg.symm.trans hcurry
  exact ⟨hwf, huncurry⟩

/-- A well-formed table and its grid have the same values, so one is listed if the other is. -/
theorem Table.WellFormed.listed_curry [Enumerated F] {t : Table (α × β) F} (ht : t.WellFormed)
    {g : Grid α β F} (hg : t.curry = .ok g) : g.Listed ↔ t.Listed := by
  obtain ⟨g', hcurry, hwf, happly⟩ := ht.exists_curry_eq_ok
  cases hg.symm.trans hcurry
  rw [hwf.listed_iff, ht.listed_iff]
  simp only [happly, Prod.forall]

end

/-! ## The listing -/

namespace Grid

section

variable [Enumerated α] [DecidableEq α] [Display α] [Enumerated β] [DecidableEq β] [Display β]
variable [Family (α × β) F] [Enumerated F] [DecidableEq F]

/-- A list of grids has every well-formed grid of listed values once, and every grid at its
number. -/
structure IsListing (grids : List (Grid α β F)) : Prop where
  /-- The grids are the well-formed grids of listed values. -/
  mem_iff : ∀ g : Grid α β F, g ∈ grids ↔ g.WellFormed ∧ g.Listed
  /-- No grid is listed twice. -/
  nodup : grids.Nodup
  /-- The number of a listed grid is its position. -/
  position_of_getElem? : ∀ {i : Nat} {g : Grid α β F}, grids[i]? = some g → g.position = .ok i
  /-- Every well-formed grid of listed values has a number, and is listed there. -/
  getElem?_position : ∀ g : Grid α β F, g.WellFormed → g.Listed →
    ∃ i, g.position = .ok i ∧ grids[i]? = some g

/-- A grid has the number of the table that it becomes. -/
theorem position_eq_of_uncurry_eq_ok {g : Grid α β F} {t : Table (α × β) F}
    (h : g.uncurry = .ok t) : g.position = t.position := by
  rw [position, h]
  rfl

end

variable [Enumerated α] [LawfulEnumerated α] [DecidableEq α] [Display α]
variable [Enumerated β] [LawfulEnumerated β] [DecidableEq β] [Display β]
variable [Family (α × β) F] [Enumerated F] [DecidableEq F]

/-- Currying carries the listing of the tables to the listing of the grids. -/
theorem isListing_curry {tables : List (Table (α × β) F)} (htables : Table.IsListing tables)
    {grids : List (Grid α β F)} (hcurry : List.Forall₂ (fun t g => t.curry = .ok g) tables grids) :
    IsListing grids := by
  have hnumber : ∀ {i : Nat} {g : Grid α β F}, grids[i]? = some g → g.position = .ok i := by
    intro i g hg
    obtain ⟨t, ht, htg⟩ := getElem?_of_forall₂ hcurry.flip hg
    have hwf := ((htables.mem_iff t).mp (List.mem_of_getElem? ht)).1
    rw [position_eq_of_uncurry_eq_ok (hwf.of_curry_eq_ok htg).2]
    exact htables.position_of_getElem? ht
  constructor
  case mem_iff =>
    intro g
    rw [mem_of_mapM_eq_ok (mapM_eq_ok.mpr hcurry)]
    constructor
    · rintro ⟨t, ht, htg⟩
      obtain ⟨hwf, hl⟩ := (htables.mem_iff t).mp ht
      exact ⟨(hwf.of_curry_eq_ok htg).1, (hwf.listed_curry htg).mpr hl⟩
    · rintro ⟨hg, hl⟩
      obtain ⟨t, ht, -, htg⟩ := hg.curry_uncurry
      exact ⟨t, (htables.mem_iff t).mpr ⟨ht, (ht.listed_curry htg).mp hl⟩, htg⟩
  case nodup => exact nodup_of_number_eq (fun h => Except.ok.inj h) hnumber
  case position_of_getElem? => exact hnumber
  case getElem?_position =>
    intro g hg hl
    obtain ⟨t, ht, huncurry, htg⟩ := hg.curry_uncurry
    obtain ⟨i, hi, hti⟩ := htables.getElem?_position t ht ((ht.listed_curry htg).mp hl)
    obtain ⟨g', hg', htg'⟩ := getElem?_of_forall₂ hcurry hti
    cases htg.symm.trans htg'
    exact ⟨i, (position_eq_of_uncurry_eq_ok huncurry).trans hi, hg'⟩

/-- Where no value is listed twice and every listed value has an index, all grids are listed
without a breach. -/
theorem exists_elements_eq_ok (hnodup : (Enumerated.elements : List F).Nodup)
    (hindex : Family.Indexed F) :
    ∃ (tables : List (Table (α × β) F)) (grids : List (Grid α β F)),
      Table.elements (α × β) F = .ok tables ∧ Grid.elements α β F = .ok grids ∧
      Table.IsListing tables ∧ List.Forall₂ (fun t g => t.curry = .ok g) tables grids ∧
      IsListing grids := by
  have htables := Table.isListing_all (α := α × β) hnodup hindex
  obtain ⟨grids, hcurry⟩ := exists_forall₂ fun t ht => by
    obtain ⟨g, -, hg, -⟩ := ((htables.mem_iff t).mp ht).1.uncurry_curry
    exact ⟨g, hg⟩
  refine ⟨_, grids, Table.elements_eq_ok hindex, ?_, htables, hcurry,
    isListing_curry htables hcurry⟩
  exact bind_eq_ok.mpr ⟨_, Table.elements_eq_ok hindex, mapM_eq_ok.mpr hcurry⟩

end Grid

/-! ## The universal property of pairs -/

/-- **Dependent functions on pairs are dependent functions of two arguments.** On lawfully
enumerated domains every well-formed grid becomes a well-formed table and back, and every
well-formed table a well-formed grid and back; the two have the same values. If moreover no
value of the family is listed twice and every listed value has an index, then the grids are
listed as the tables that they become, the listing is complete and numbered, and the check of
uncurrying as an equivalence goes through on all of them. -/
theorem Grid.uncurry_universal (α β F : Type)
    [Enumerated α] [LawfulEnumerated α] [DecidableEq α] [Display α]
    [Enumerated β] [LawfulEnumerated β] [DecidableEq β] [Display β]
    [DecidableEq F] [Display F] [Family (α × β) F] :
    (∀ g : Grid α β F, g.WellFormed →
      ∃ t : Table (α × β) F, g.uncurry = .ok t ∧ t.WellFormed ∧ t.curry = .ok g ∧
        ∀ a b, ∃ u, t.apply (a, b) = .ok u ∧ g.apply a b = .ok u) ∧
    (∀ t : Table (α × β) F, t.WellFormed →
      ∃ g : Grid α β F, t.curry = .ok g ∧ g.WellFormed ∧ g.uncurry = .ok t) ∧
    (∀ [Enumerated F], (Enumerated.elements : List F).Nodup → Family.Indexed F →
      ∃ (tables : List (Table (α × β) F)) (grids : List (Grid α β F)),
        Table.elements (α × β) F = .ok tables ∧ Grid.elements α β F = .ok grids ∧
        List.Forall₂ (fun t g => t.curry = .ok g) tables grids ∧ Grid.IsListing grids ∧
        (AdjointEquiv.uncurry α β F).check grids tables = .ok ()) := by
  refine ⟨fun g hg => ?_, fun t ht => ?_, fun hnodup hindex => ?_⟩
  · obtain ⟨t, huncurry, ht, happly⟩ := hg.exists_uncurry_eq_ok
    obtain ⟨t', -, huncurry', hcurry⟩ := hg.curry_uncurry
    cases huncurry.symm.trans huncurry'
    refine ⟨t, huncurry, ht, hcurry, fun a b => ?_⟩
    obtain ⟨u, hu, -⟩ := hg.exists_apply_eq_ok a b
    exact ⟨u, (happly a b).trans hu, hu⟩
  · obtain ⟨g, hg, hcurry, huncurry⟩ := ht.uncurry_curry
    exact ⟨g, hcurry, hg, huncurry⟩
  · obtain ⟨tables, grids, htables, hgrids, htl, hcurry, hgl⟩ :=
      Grid.exists_elements_eq_ok (α := α) (β := β) hnodup hindex
    refine ⟨tables, grids, htables, hgrids, hcurry, hgl, ?_⟩
    exact AdjointEquiv.LawfulOn.uncurry.check_eq_ok (fun g hg => ((hgl.mem_iff g).mp hg).1)
      fun t ht => ((htl.mem_iff t).mp ht).1

/-- The two fibers over 0 have one number and the two over 1 have two, so there are four
grids. -/
theorem Grid.uncurry_universal_bounded :
    (Enumerated.elements : List (Bounded 2)).Nodup ∧ Family.Indexed (Bounded 2) ∧
      ∃ (tables : List (Table (Fin 2 × Bool) (Bounded 2)))
        (grids : List (Grid (Fin 2) Bool (Bounded 2))),
        Table.elements (Fin 2 × Bool) (Bounded 2) = .ok tables ∧
        Grid.elements (Fin 2) Bool (Bounded 2) = .ok grids ∧
        Grid.IsListing grids ∧ grids.length = 4 ∧
        (AdjointEquiv.uncurry (Fin 2) Bool (Bounded 2)).check grids tables = .ok () := by
  have hnodup : (Enumerated.elements : List (Bounded 2)).Nodup := by decide
  have hindex : Family.Indexed (Bounded 2) := fun u _ => ⟨u.index, rfl⟩
  obtain ⟨tables, grids, htables, hgrids, hcurry, hlisting, hcheck⟩ :=
    (Grid.uncurry_universal (Fin 2) Bool (Bounded 2)).2.2 hnodup hindex
  have hlength : (Table.elements (Fin 2 × Bool) (Bounded 2)).map List.length = .ok 4 := rfl
  rw [htables] at hlength
  exact ⟨hnodup, hindex, tables, grids, htables, hgrids, hlisting,
    hcurry.length_eq.symm.trans (Except.ok.inj hlength), hcheck⟩

/-- There is one table on no arguments; as a grid it has a row for each first argument. -/
example : (⟨[]⟩ : Table (Bool × Empty) (Fiber (Bool × Empty) Bool)).curry = .ok ⟨[[], []]⟩ := rfl

end PathAlgebra
