import PathAlgebra.Proofs.Equiv.Lawful
import PathAlgebra.Proofs.Table.WellFormed
import PathAlgebra.Table.Extensionality

set_option autoImplicit false

/-! # Currying is lawful

On lawfully enumerated domains uncurrying a well-formed grid gives a well-formed table with the
same values, and currying goes back. A well-formed table or grid is determined by its values, so
both round trips end where they start, and the paths given pointwise by reflexivity exist. Hence
the equivalence `AdjointEquiv.uncurry` is lawful between the well-formed grids and the
well-formed tables.
-/

namespace PathAlgebra

variable {α β F : Type}
variable [Enumerated α] [LawfulEnumerated α] [DecidableEq α] [Display α]
variable [Enumerated β] [LawfulEnumerated β] [DecidableEq β] [Display β]

/-! ## Uncurrying and currying keep the values -/

section

variable [Family (α × β) F]

theorem Grid.WellFormed.exists_uncurry_eq_ok {g : Grid α β F} (hg : g.WellFormed) :
    ∃ t, g.uncurry = .ok t ∧ t.WellFormed ∧ ∀ a b, t.apply (a, b) = g.apply a b := by
  obtain ⟨t, ht, hwf, happly⟩ := Table.exists_build_eq_ok fun z : α × β =>
    hg.exists_apply_eq_ok z.1 z.2
  exact ⟨t, ht, hwf, fun a b => happly (a, b)⟩

theorem Table.WellFormed.exists_curry_eq_ok {t : Table (α × β) F} (ht : t.WellFormed) :
    ∃ g, t.curry = .ok g ∧ g.WellFormed ∧ ∀ a b, g.apply a b = t.apply (a, b) :=
  Grid.exists_build_eq_ok fun a b => ht.exists_apply_eq_ok (a, b)

/-- Uncurrying a well-formed grid and currying the table gives the grid back. -/
theorem Grid.WellFormed.curry_uncurry {g : Grid α β F} (hg : g.WellFormed) :
    ∃ t, t.WellFormed ∧ g.uncurry = .ok t ∧ t.curry = .ok g := by
  obtain ⟨t, huncurry, ht, happly⟩ := hg.exists_uncurry_eq_ok
  obtain ⟨g', hcurry, hg', happly'⟩ := ht.exists_curry_eq_ok
  -- two well-formed grids with the same values
  have hback : g' = g := hg'.ext hg fun a b => (happly' a b).trans (happly a b)
  exact ⟨t, ht, huncurry, hback ▸ hcurry⟩

/-- A well-formed grid can be recovered from its table. -/
theorem Grid.WellFormed.eq_of_uncurry_eq_ok {f g : Grid α β F} (hf : f.WellFormed)
    (hg : g.WellFormed) {t : Table (α × β) F} (hft : f.uncurry = .ok t) (hgt : g.uncurry = .ok t) :
    f = g := by
  obtain ⟨t', -, hft', hback⟩ := hf.curry_uncurry
  obtain ⟨t'', -, hgt'', hback'⟩ := hg.curry_uncurry
  cases hft.symm.trans hft'
  cases hgt.symm.trans hgt''
  exact Except.ok.inj (hback.symm.trans hback')

/-- Currying a well-formed table and uncurrying the grid gives the table back. -/
theorem Table.WellFormed.uncurry_curry {t : Table (α × β) F} (ht : t.WellFormed) :
    ∃ g : Grid α β F, g.WellFormed ∧ t.curry = .ok g ∧ g.uncurry = .ok t := by
  obtain ⟨g, hcurry, hg, happly⟩ := ht.exists_curry_eq_ok
  obtain ⟨t', huncurry, ht', happly'⟩ := hg.exists_uncurry_eq_ok
  have hback : t' = t := ht'.ext ht fun z => (happly' z.1 z.2).trans (happly z.1 z.2)
  exact ⟨g, hg, hcurry, hback ▸ huncurry⟩

end

/-! ## Paths given pointwise by reflexivity -/

section

variable [DecidableEq F] [Display F]

theorem Path.assertEnds_refl_self (u : F) : (refl u).assertEnds u u = .ok () := by
  simp only [assertEnds, source, target, assertSame_self, ok_bind]

theorem Table.WellFormed.ofPointwise_refl [Family α F] {f : Table α F} (hf : f.WellFormed) :
    Path.ofPointwise f f (fun a => do return .refl (← f.apply a)) = .ok (.refl f) := by
  refine bind_eq_ok.mpr ⟨(), forM_eq_ok.mpr fun a _ => ?_, ?_⟩
  · obtain ⟨u, hu, -⟩ := hf.exists_apply_eq_ok a
    simp only [hu, ok_bind, pure_bind]
    exact Path.assertEnds_refl_self u
  · exact bind_eq_ok.mpr ⟨(), assertSame_self f, rfl⟩

theorem Grid.WellFormed.ofPointwise₂_refl [Family (α × β) F] {g : Grid α β F}
    (hg : g.WellFormed) :
    Path.ofPointwise₂ g g (fun a b => do return .refl (← g.apply a b)) = .ok (.refl g) := by
  refine bind_eq_ok.mpr ⟨(), forM_eq_ok.mpr fun a _ => forM_eq_ok.mpr fun b _ => ?_, ?_⟩
  · obtain ⟨u, hu, -⟩ := hg.exists_apply_eq_ok a b
    simp only [hu, ok_bind, pure_bind]
    exact Path.assertEnds_refl_self u
  · exact bind_eq_ok.mpr ⟨(), assertSame_self g, rfl⟩

end

/-! ## The equivalence -/

/-- Uncurrying is a lawful equivalence of the well-formed grids and the well-formed tables. -/
theorem AdjointEquiv.LawfulOn.uncurry [DecidableEq F] [Display F] [Family (α × β) F] :
    (AdjointEquiv.uncurry α β F).LawfulOn Grid.WellFormed Table.WellFormed := by
  refine LawfulRoundTrips.lawfulOn ⟨fun g hg => ?_, fun t ht => ?_⟩
  · obtain ⟨t, ht, huncurry, hcurry⟩ := hg.curry_uncurry
    refine ⟨t, ht, huncurry, hcurry, ?_⟩
    simp only [huncurry, hcurry, ok_bind]
    exact hg.ofPointwise₂_refl
  · obtain ⟨g, hg, hcurry, huncurry⟩ := ht.uncurry_curry
    refine ⟨g, hg, hcurry, huncurry, ?_⟩
    simp only [hcurry, huncurry, ok_bind]
    exact ht.ofPointwise_refl

end PathAlgebra
