import PathAlgebra.Proofs.Enumeration
import PathAlgebra.Proofs.Sequencing
import PathAlgebra.Table.Grid

set_option autoImplicit false

/-! # Well-formed tables and grids

A table is well-formed if it has one value over each element of its domain, in the order of the
elements; a grid, if it has one row for each element of the first domain and this holds of every
row. These are the tables and grids that tabulating and building give.

On lawfully enumerated domains a well-formed table is the same as the function that it applies:
every argument has a value (`exists_apply_eq_ok`), and the values at all arguments are the table
(`mapM_apply`), so two tables with the same values are equal.
-/

namespace PathAlgebra

open Enumerated (elements position)

variable {α β F : Type}

/-! ## Entries of a list in the order of an enumeration -/

theorem Table.entry_eq_ok {values : List F} {i : Nat} {u : F} :
    Table.entry values i = .ok u ↔ values[i]? = some u := by
  unfold Table.entry
  split <;> simp_all

/-- In a list along the elements of a domain, the entry of each element stands at its number. -/
theorem forall₂_entry [Enumerated α] [LawfulEnumerated α] {R : α → F → Prop} {values : List F}
    (h : List.Forall₂ R elements values) :
    List.Forall₂ (fun a u => Table.entry values (position a) = .ok u ∧ R a u) elements values := by
  refine List.forall₂_iff_get.mpr ⟨h.length_eq, fun i hi hi' => ?_⟩
  have ha : (elements : List α)[i]? = some (elements.get ⟨i, hi⟩) := List.getElem?_eq_getElem hi
  rw [LawfulEnumerated.position_eq ha]
  exact ⟨Table.entry_eq_ok.mpr (List.getElem?_eq_getElem hi'), h.get hi hi'⟩

theorem exists_entry_eq_ok [Enumerated α] [LawfulEnumerated α] {R : α → F → Prop}
    {values : List F} (h : List.Forall₂ R elements values) (a : α) :
    ∃ u, Table.entry values (position a) = .ok u ∧ R a u := by
  obtain ⟨u, hu, hr⟩ := getElem?_of_forall₂ h (LawfulEnumerated.getElem?_position a)
  exact ⟨u, Table.entry_eq_ok.mpr hu, hr⟩

/-- A value is tabulated where it lies in the fiber that is asked for. -/
theorem placed_eq_ok {ι : Type} [DecidableEq ι] [Family ι F] {x : Asserted F} {i : ι}
    {cause : F → Cause} {v : F} :
    (do
      let u ← x
      if (← Family.index u) = i then pure u else refuse (cause u) : Outcome F) = .ok v ↔
      x = .ok v ∧ Family.index v = .ok i := by
  simp only [bind_eq_ok, liftM_asserted_eq_ok]
  constructor
  · rintro ⟨u, hx, j, hj, h⟩
    split at h
    · next hji =>
        cases h
        exact ⟨hx, hji ▸ hj⟩
    · cases h
  · rintro ⟨hx, hi⟩
    exact ⟨v, hx, i, hi, if_pos rfl⟩

/-! ## Tables -/

namespace Table

section

variable [Enumerated α] [Family α F]

/-- There is one value over each element of the domain, in order. -/
def WellFormed (f : Table α F) : Prop :=
  List.Forall₂ (fun a u => Family.index u = .ok a) Enumerated.elements f.values

theorem WellFormed.length_values {f : Table α F} (hf : f.WellFormed) :
    f.values.length = Enumerated.cardinality α :=
  hf.length_eq.symm

/-- Applying goes through if the number of the argument is in range, whatever is listed there. -/
theorem WellFormed.exists_apply_of_lt {f : Table α F} (hf : f.WellFormed) {a : α}
    (ha : Enumerated.position a < Enumerated.cardinality α) : ∃ u, f.apply a = .ok u := by
  rw [← hf.length_values] at ha
  exact ⟨_, entry_eq_ok.mpr (List.getElem?_eq_getElem ha)⟩

variable [LawfulEnumerated α]

/-- A well-formed table has a value at every argument, which lies over the argument. -/
theorem WellFormed.exists_apply_eq_ok {f : Table α F} (hf : f.WellFormed) (a : α) :
    ∃ u, f.apply a = .ok u ∧ Family.index u = .ok a :=
  exists_entry_eq_ok hf a

/-- The values at all arguments are the table. -/
theorem WellFormed.mapM_apply {f : Table α F} (hf : f.WellFormed) :
    (Enumerated.elements : List α).mapM f.apply = .ok f.values :=
  mapM_eq_ok.mpr ((forall₂_entry hf).imp fun _ _ h => h.1)

/-- Well-formed tables with the same values are equal. -/
theorem WellFormed.ext {f g : Table α F} (hf : f.WellFormed) (hg : g.WellFormed)
    (h : ∀ a, f.apply a = g.apply a) : f = g := by
  have hvalues := hf.mapM_apply
  rw [funext h, hg.mapM_apply] at hvalues
  cases f
  cases g
  exact congrArg Table.mk (Except.ok.inj hvalues).symm

end

section

variable [Enumerated α] [DecidableEq α] [Display α] [Family α F]

/-- Tabulating goes through exactly where the function respects the fibers. -/
theorem tabulate_eq_ok [Display F] {f : α → Asserted F} {t : Table α F} :
    tabulate f = .ok t ↔
      List.Forall₂ (fun a u => f a = .ok u ∧ Family.index u = .ok a)
        Enumerated.elements t.values := by
  cases t with
  | mk values =>
      rw [tabulate, bind_eq_ok]
      constructor
      · rintro ⟨_, h, ⟨⟩⟩
        exact (mapM_eq_ok.mp h).imp fun _ _ => placed_eq_ok.mp
      · intro h
        exact ⟨values, mapM_eq_ok.mpr (h.imp fun _ _ => placed_eq_ok.mpr), rfl⟩

theorem wellFormed_of_tabulate_eq_ok [Display F] {f : α → Asserted F} {t : Table α F}
    (h : tabulate f = .ok t) : t.WellFormed :=
  (tabulate_eq_ok.mp h).imp fun _ _ hu => hu.2

/-- The function that a well-formed table applies has this table. -/
theorem WellFormed.tabulate_apply [LawfulEnumerated α] [Display F] {f : Table α F}
    (hf : f.WellFormed) : tabulate f.apply = .ok f :=
  tabulate_eq_ok.mpr (forall₂_entry hf)

/-- Building goes through exactly where the function respects the fibers. -/
theorem build_eq_ok {f : α → Asserted F} {t : Table α F} :
    build f = .ok t ↔
      List.Forall₂ (fun a u => f a = .ok u ∧ Family.index u = .ok a)
        Enumerated.elements t.values := by
  cases t with
  | mk values =>
      simp [build, bind_eq_ok, mapM_eq_ok, assertSame_eq_ok, pure, Except.pure]

theorem wellFormed_of_build_eq_ok {f : α → Asserted F} {t : Table α F}
    (h : build f = .ok t) : t.WellFormed :=
  (build_eq_ok.mp h).imp fun _ _ hu => hu.2

/-- The table of a function that respects the fibers is well-formed and applies the function. -/
theorem exists_build_eq_ok [LawfulEnumerated α] {f : α → Asserted F}
    (h : ∀ a, ∃ u, f a = .ok u ∧ Family.index u = .ok a) :
    ∃ t, build f = .ok t ∧ t.WellFormed ∧ ∀ a, t.apply a = f a := by
  obtain ⟨values, hall⟩ := exists_forall₂ fun a (_ : a ∈ (Enumerated.elements : List α)) => h a
  have hbuild : build f = .ok ⟨values⟩ := build_eq_ok.mpr hall
  refine ⟨⟨values⟩, hbuild, wellFormed_of_build_eq_ok hbuild, fun a => ?_⟩
  -- the entry at the number of `a` is the one that was built for `a`
  obtain ⟨u, hu, hfu, -⟩ := exists_entry_eq_ok hall a
  exact Eq.trans hu hfu.symm

end

end Table

/-! ## Grids -/

namespace Grid

section

variable [Enumerated α] [Enumerated β] [Family (α × β) F]

/-- There is one row for each element of the first domain, with one value for each element of the
second, in order. -/
def WellFormed (g : Grid α β F) : Prop :=
  List.Forall₂ (fun a row =>
    List.Forall₂ (fun b u => Family.index u = .ok (a, b)) Enumerated.elements row)
    Enumerated.elements g.rows

theorem WellFormed.length_rows {g : Grid α β F} (hg : g.WellFormed) :
    g.rows.length = Enumerated.cardinality α :=
  hg.length_eq.symm

theorem WellFormed.length_row {g : Grid α β F} (hg : g.WellFormed) {row : List F}
    (hrow : row ∈ g.rows) : row.length = Enumerated.cardinality β := by
  obtain ⟨i, hi⟩ := List.mem_iff_getElem?.mp hrow
  obtain ⟨a, -, h⟩ := getElem?_of_forall₂ hg.flip hi
  exact h.length_eq.symm

variable [LawfulEnumerated α] [LawfulEnumerated β]

/-- A well-formed grid has a value at every two arguments, which lies over these. -/
theorem WellFormed.exists_apply_eq_ok {g : Grid α β F} (hg : g.WellFormed) (a : α) (b : β) :
    ∃ u, g.apply a b = .ok u ∧ Family.index u = .ok (a, b) := by
  obtain ⟨row, hrow, hu⟩ := exists_entry_eq_ok hg a
  obtain ⟨u, hu, hi⟩ := exists_entry_eq_ok hu b
  exact ⟨u, bind_eq_ok.mpr ⟨row, hrow, hu⟩, hi⟩

/-- The entries of a well-formed grid are the values that it applies, row by row. -/
theorem WellFormed.forall₂_apply {g : Grid α β F} (hg : g.WellFormed) :
    List.Forall₂ (fun a row =>
      List.Forall₂ (fun b u => g.apply a b = .ok u ∧ Family.index u = .ok (a, b))
        Enumerated.elements row)
      Enumerated.elements g.rows := by
  refine (forall₂_entry hg).imp fun a row h => (forall₂_entry h.2).imp fun b u hu => ?_
  exact ⟨bind_eq_ok.mpr ⟨row, h.1, hu.1⟩, hu.2⟩

/-- The values at all arguments, row by row, are the grid. -/
theorem WellFormed.mapM_apply {g : Grid α β F} (hg : g.WellFormed) :
    ((Enumerated.elements : List α).mapM fun a => (Enumerated.elements : List β).mapM (g.apply a))
      = .ok g.rows :=
  mapM_eq_ok.mpr (hg.forall₂_apply.imp fun _ _ hrow =>
    mapM_eq_ok.mpr (hrow.imp fun _ _ hu => hu.1))

/-- Well-formed grids with the same values are equal. -/
theorem WellFormed.ext {f g : Grid α β F} (hf : f.WellFormed) (hg : g.WellFormed)
    (h : ∀ a b, f.apply a b = g.apply a b) : f = g := by
  have hrows := hf.mapM_apply
  rw [funext fun a => funext (h a), hg.mapM_apply] at hrows
  cases f
  cases g
  exact congrArg Grid.mk (Except.ok.inj hrows).symm

end

section

variable [Enumerated α] [DecidableEq α] [Display α]
variable [Enumerated β] [DecidableEq β] [Display β] [Family (α × β) F]

/-- Tabulating goes through exactly where the function respects the fibers. -/
theorem tabulate_eq_ok [Display F] {f : α → β → Asserted F} {g : Grid α β F} :
    tabulate f = .ok g ↔
      List.Forall₂ (fun a row =>
        List.Forall₂ (fun b u => f a b = .ok u ∧ Family.index u = .ok (a, b))
          Enumerated.elements row)
        Enumerated.elements g.rows := by
  cases g with
  | mk rows =>
      rw [tabulate, bind_eq_ok]
      constructor
      · rintro ⟨_, h, ⟨⟩⟩
        exact (mapM_eq_ok.mp h).imp fun _ _ hrow =>
          (mapM_eq_ok.mp hrow).imp fun _ _ => placed_eq_ok.mp
      · intro h
        exact ⟨rows, mapM_eq_ok.mpr (h.imp fun _ _ hrow =>
          mapM_eq_ok.mpr (hrow.imp fun _ _ => placed_eq_ok.mpr)), rfl⟩

theorem wellFormed_of_tabulate_eq_ok [Display F] {f : α → β → Asserted F} {g : Grid α β F}
    (h : tabulate f = .ok g) : g.WellFormed :=
  (tabulate_eq_ok.mp h).imp fun _ _ hrow => hrow.imp fun _ _ hu => hu.2

/-- The function that a well-formed grid applies has this grid. -/
theorem WellFormed.tabulate_apply [LawfulEnumerated α] [LawfulEnumerated β] [Display F]
    {g : Grid α β F} (hg : g.WellFormed) : tabulate g.apply = .ok g :=
  tabulate_eq_ok.mpr hg.forall₂_apply

/-- Building goes through exactly where the function respects the fibers. -/
theorem build_eq_ok {f : α → β → Asserted F} {g : Grid α β F} :
    build f = .ok g ↔
      List.Forall₂ (fun a row =>
        List.Forall₂ (fun b u => f a b = .ok u ∧ Family.index u = .ok (a, b))
          Enumerated.elements row)
        Enumerated.elements g.rows := by
  cases g with
  | mk rows =>
      simp [build, bind_eq_ok, mapM_eq_ok, assertSame_eq_ok, pure, Except.pure]

theorem wellFormed_of_build_eq_ok {f : α → β → Asserted F} {g : Grid α β F}
    (h : build f = .ok g) : g.WellFormed :=
  (build_eq_ok.mp h).imp fun _ _ hrow => hrow.imp fun _ _ hu => hu.2

/-- The grid of a function that respects the fibers is well-formed and applies the function. -/
theorem exists_build_eq_ok [LawfulEnumerated α] [LawfulEnumerated β] {f : α → β → Asserted F}
    (h : ∀ a b, ∃ u, f a b = .ok u ∧ Family.index u = .ok (a, b)) :
    ∃ g, build f = .ok g ∧ g.WellFormed ∧ ∀ a b, g.apply a b = f a b := by
  have hrow : ∀ a, ∃ row, List.Forall₂ (fun b u => f a b = .ok u ∧ Family.index u = .ok (a, b))
      Enumerated.elements row := fun a => exists_forall₂ fun b _ => h a b
  obtain ⟨rows, hall⟩ := exists_forall₂ fun a (_ : a ∈ (Enumerated.elements : List α)) => hrow a
  have hbuild : build f = .ok ⟨rows⟩ := build_eq_ok.mpr hall
  refine ⟨⟨rows⟩, hbuild, wellFormed_of_build_eq_ok hbuild, fun a b => ?_⟩
  obtain ⟨row, hrow, hr⟩ := exists_entry_eq_ok hall a
  obtain ⟨u, hu, hfu, -⟩ := exists_entry_eq_ok hr b
  rw [hfu]
  exact bind_eq_ok.mpr ⟨row, hrow, hu⟩

end

end Grid

end PathAlgebra
