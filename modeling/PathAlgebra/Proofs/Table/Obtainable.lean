import PathAlgebra.Proofs.Table.WellFormed

set_option autoImplicit false

/-! # The tables and grids that operations give

The entries of a table are not open to its users: a table is tabulated from a function, taken
from the listing of all tables, or made from a grid, and a grid in the same ways or from a table.
`Obtainable` collects what any sequence of these operations gives, over all carriers and families.

All that is obtained in this way is well-formed. Tabulating looks at the fiber of every value and
both conversions assert it, whatever they are given; the listing selects its values by the fiber
(`forall₂_of_mem_choices`), of a family which need not list all its values or have an index for
each. So an obtainable table is the function that it applies (`Obtainable.representation`).
-/

namespace PathAlgebra

open Enumerated (position cardinality)

section

variable {α β ι F : Type}

/-! ## Listed tables and grids -/

/-- The values that are selected lie over the index. -/
theorem Family.index_of_mem_select [DecidableEq ι] [Family ι F] {i : ι} {us vs : List F}
    (h : select i us = .ok vs) {v : F} (hv : v ∈ vs) : index v = .ok i := by
  induction us generalizing vs with
  | nil =>
      cases h
      cases hv
  | cons u us ih =>
      obtain ⟨j, hj, h⟩ := bind_eq_ok.mp h
      obtain ⟨rest, hrest, h⟩ := bind_eq_ok.mp h
      cases h
      split at hv
      · next hji =>
          rcases List.mem_cons.mp hv with rfl | hv
          · exact hji ▸ hj
          · exact ih hrest hv
      · exact ih hrest hv

namespace Table

/-- The lists that are chosen have one value over each index, in order. -/
theorem forall₂_of_mem_choices [DecidableEq α] [Family α F] [Enumerated F] {as : List α}
    {lists : List (List F)} (h : choices F as = .ok lists) {us : List F} (hus : us ∈ lists) :
    List.Forall₂ (fun a u => Family.index u = .ok a) as us := by
  induction as generalizing lists us with
  | nil =>
      cases h
      rw [List.mem_singleton.mp hus]
      exact .nil
  | cons a as ih =>
      obtain ⟨fiber, hfiber, h⟩ := bind_eq_ok.mp h
      obtain ⟨rest, hrest, h⟩ := bind_eq_ok.mp h
      cases h
      obtain ⟨u, hu, hus⟩ := List.mem_flatMap.mp hus
      obtain ⟨us, hmem, rfl⟩ := List.mem_map.mp hus
      exact .cons (Family.index_of_mem_select hfiber hu) (ih hrest hmem)

theorem wellFormed_of_mem_elements [Enumerated α] [DecidableEq α] [Family α F] [Enumerated F]
    {tables : List (Table α F)} (h : Table.elements α F = .ok tables) {t : Table α F}
    (ht : t ∈ tables) : t.WellFormed := by
  obtain ⟨lists, hlists, h⟩ := bind_eq_ok.mp h
  cases h
  obtain ⟨values, hvalues, rfl⟩ := List.mem_map.mp ht
  exact forall₂_of_mem_choices hlists hvalues

end Table

/-- Every grid that is listed has been built from a table. -/
theorem Grid.wellFormed_of_mem_elements [Enumerated α] [DecidableEq α] [Display α] [Enumerated β]
    [DecidableEq β] [Display β] [Family (α × β) F] [Enumerated F] {grids : List (Grid α β F)}
    (h : Grid.elements α β F = .ok grids) {g : Grid α β F} (hg : g ∈ grids) : g.WellFormed := by
  obtain ⟨tables, -, h⟩ := bind_eq_ok.mp h
  obtain ⟨t, -, ht⟩ := (mem_of_mapM_eq_ok h).mp hg
  exact Grid.wellFormed_of_build_eq_ok ht

end

/-! ## Sequences of operations -/

/-- The types of dependent functions on lawfully enumerated carriers. -/
inductive FunctionType : Type 1 where
  /-- Functions of one argument, stored as tables. -/
  | table (α F : Type) [Enumerated α] [LawfulEnumerated α] [DecidableEq α] [Display α]
      [Family α F] [Display F]
  /-- Functions of two arguments, stored as grids. -/
  | grid (α β F : Type) [Enumerated α] [LawfulEnumerated α] [DecidableEq α] [Display α]
      [Enumerated β] [LawfulEnumerated β] [DecidableEq β] [Display β] [Family (α × β) F]
      [Display F]

namespace FunctionType

/-- The representations of the functions of a type. -/
def Value : FunctionType → Type
  | table α F => Table α F
  | grid α β F => Grid α β F

/-- The representation invariant of a type. -/
def WellFormed : (s : FunctionType) → s.Value → Prop
  | table _ _ => Table.WellFormed
  | grid _ _ _ => Grid.WellFormed

end FunctionType

/-- A function is the result of some sequence of operations. -/
inductive Obtainable : (s : FunctionType) → s.Value → Prop where
  /-- A function is tabulated. -/
  | tabulated {α F : Type} [Enumerated α] [LawfulEnumerated α] [DecidableEq α] [Display α]
      [Family α F] [Display F] {f : α → Asserted F} {t : Table α F}
      (h : Table.tabulate f = .ok t) : Obtainable (.table α F) t
  /-- A table is listed. -/
  | listed {α F : Type} [Enumerated α] [LawfulEnumerated α] [DecidableEq α] [Display α]
      [Family α F] [Display F] [Enumerated F] {tables : List (Table α F)}
      (h : Table.elements α F = .ok tables) {t : Table α F} (ht : t ∈ tables) :
      Obtainable (.table α F) t
  /-- A grid is uncurried. -/
  | uncurried {α β F : Type} [Enumerated α] [LawfulEnumerated α] [DecidableEq α] [Display α]
      [Enumerated β] [LawfulEnumerated β] [DecidableEq β] [Display β] [Family (α × β) F]
      [Display F] {g : Grid α β F} (hg : Obtainable (.grid α β F) g) {t : Table (α × β) F}
      (h : g.uncurry = .ok t) : Obtainable (.table (α × β) F) t
  /-- A function of two arguments is tabulated. -/
  | tabulatedGrid {α β F : Type} [Enumerated α] [LawfulEnumerated α] [DecidableEq α] [Display α]
      [Enumerated β] [LawfulEnumerated β] [DecidableEq β] [Display β] [Family (α × β) F]
      [Display F] {f : α → β → Asserted F} {g : Grid α β F} (h : Grid.tabulate f = .ok g) :
      Obtainable (.grid α β F) g
  /-- A grid is listed. -/
  | listedGrid {α β F : Type} [Enumerated α] [LawfulEnumerated α] [DecidableEq α] [Display α]
      [Enumerated β] [LawfulEnumerated β] [DecidableEq β] [Display β] [Family (α × β) F]
      [Display F] [Enumerated F] {grids : List (Grid α β F)}
      (h : Grid.elements α β F = .ok grids) {g : Grid α β F} (hg : g ∈ grids) :
      Obtainable (.grid α β F) g
  /-- A table on pairs is curried. -/
  | curried {α β F : Type} [Enumerated α] [LawfulEnumerated α] [DecidableEq α] [Display α]
      [Enumerated β] [LawfulEnumerated β] [DecidableEq β] [Display β] [Family (α × β) F]
      [Display F] {t : Table (α × β) F} (ht : Obtainable (.table (α × β) F) t) {g : Grid α β F}
      (h : t.curry = .ok g) : Obtainable (.grid α β F) g

/-- Every operation gives a well-formed result, by the fibers that it looks at. -/
theorem Obtainable.wellFormed {s : FunctionType} {x : s.Value} (h : Obtainable s x) :
    s.WellFormed x := by
  -- no induction: what an operation was given does not matter, only that it went through
  cases h with
  | tabulated h => exact Table.wellFormed_of_tabulate_eq_ok h
  | listed h ht => exact Table.wellFormed_of_mem_elements h ht
  | uncurried _ h => exact Table.wellFormed_of_build_eq_ok h
  | tabulatedGrid h => exact Grid.wellFormed_of_tabulate_eq_ok h
  | listedGrid h hg => exact Grid.wellFormed_of_mem_elements h hg
  | curried _ h => exact Grid.wellFormed_of_build_eq_ok h

/-- **Representation of dependent functions.** A table that is obtained by operations has one
value for each element of the domain, at its number and over it, and a grid has rows and columns
for the elements of both domains. So applying finds a value at every argument, which lies over
it; two functions are equal exactly if they agree at all arguments; and tabulating what a
function applies gives the function back. -/
theorem Obtainable.representation :
    (∀ {α F : Type} [Enumerated α] [LawfulEnumerated α] [DecidableEq α] [Display α] [Family α F]
      [Display F] {t : Table α F}, Obtainable (.table α F) t →
      t.values.length = cardinality α ∧
      (∀ a, ∃ u, t.values[position a]? = some u ∧ t.apply a = .ok u ∧ Family.index u = .ok a) ∧
      (∀ t' : Table α F, Obtainable (.table α F) t' → (t = t' ↔ ∀ a, t.apply a = t'.apply a)) ∧
      Table.tabulate t.apply = .ok t) ∧
    (∀ {α β F : Type} [Enumerated α] [LawfulEnumerated α] [DecidableEq α] [Display α]
      [Enumerated β] [LawfulEnumerated β] [DecidableEq β] [Display β] [Family (α × β) F]
      [Display F] {g : Grid α β F}, Obtainable (.grid α β F) g →
      (g.rows.length = cardinality α ∧ ∀ row ∈ g.rows, row.length = cardinality β) ∧
      (∀ a b, ∃ row u, g.rows[position a]? = some row ∧ row[position b]? = some u ∧
        g.apply a b = .ok u ∧ Family.index u = .ok (a, b)) ∧
      (∀ g' : Grid α β F, Obtainable (.grid α β F) g' →
        (g = g' ↔ ∀ a b, g.apply a b = g'.apply a b)) ∧
      Grid.tabulate g.apply = .ok g) := by
  constructor
  · intro α F _ _ _ _ _ _ t h
    have ht : t.WellFormed := h.wellFormed
    refine ⟨ht.length_values, fun a => ?_, fun t' h' => ?_, ht.tabulate_apply⟩
    · obtain ⟨u, hu, hi⟩ := ht.exists_apply_eq_ok a
      exact ⟨u, Table.entry_eq_ok.mp hu, hu, hi⟩
    · have ht' : t'.WellFormed := h'.wellFormed
      exact ⟨fun heq a => by rw [heq], ht.ext ht'⟩
  · intro α β F _ _ _ _ _ _ _ _ _ _ g h
    have hg : g.WellFormed := h.wellFormed
    refine ⟨⟨hg.length_rows, fun row => hg.length_row⟩, fun a b => ?_, fun g' h' => ?_,
      hg.tabulate_apply⟩
    · obtain ⟨u, hu, hi⟩ := hg.exists_apply_eq_ok a b
      obtain ⟨row, hrow, hu'⟩ := bind_eq_ok.mp hu
      exact ⟨row, u, Table.entry_eq_ok.mp hrow, Table.entry_eq_ok.mp hu', hu, hi⟩
    · have hg' : g'.WellFormed := h'.wellFormed
      exact ⟨fun heq a b => by rw [heq], hg.ext hg'⟩

/-- The conjunction of two truth values is tabulated on pairs, curried and uncurried. -/
theorem Obtainable.representation_conjunction :
    ∃ (g : Grid Bool Bool (Fiber (Bool × Bool) Bool))
      (t : Table (Bool × Bool) (Fiber (Bool × Bool) Bool)),
      Obtainable (.grid Bool Bool (Fiber (Bool × Bool) Bool)) g ∧
      Obtainable (.table (Bool × Bool) (Fiber (Bool × Bool) Bool)) t ∧
      g.uncurry = .ok t ∧ g.rows.length = 2 ∧ t.values.length = 4 ∧
      Grid.tabulate g.apply = .ok g ∧ Table.tabulate t.apply = .ok t := by
  have htable : Table.tabulate (α := Bool × Bool) (fun z => .ok (Fiber.mk z (z.1 && z.2))) =
      .ok ⟨[⟨(false, false), false⟩, ⟨(false, true), false⟩, ⟨(true, false), false⟩,
        ⟨(true, true), true⟩]⟩ := rfl
  have hgrid := Obtainable.curried (α := Bool) (β := Bool) (.tabulated htable) rfl
  have hback := Obtainable.uncurried hgrid rfl
  obtain ⟨⟨hrows, -⟩, -, -, htabulate⟩ := Obtainable.representation.2 hgrid
  obtain ⟨hvalues, -, -, htabulate'⟩ := Obtainable.representation.1 hback
  exact ⟨_, _, hgrid, hback, rfl, hrows, hvalues, htabulate, htabulate'⟩

end PathAlgebra
