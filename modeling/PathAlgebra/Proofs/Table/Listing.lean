import Mathlib.Algebra.BigOperators.Ring.List
import PathAlgebra.Family.Segments
import PathAlgebra.Proofs.Table.Selection
import PathAlgebra.Proofs.Table.WellFormed

set_option autoImplicit false

/-! # The listing of all tables

The tables are the selections from the fibers over the elements of the domain, and the number of
a table is the number of its selection. So what holds of selections holds of tables: where every
listed value has an index and none is listed twice, the listing has every well-formed table of
listed values once, in lexicographic order, each at its number.

Nothing is asked of the domain but its list of elements. The values of the family need not all
be listed; those that are not occur in no listed table.

Selecting a fiber takes the index of every listed value. If one has none, then listing and numbering
break the assertion of the first such value, unless there is no fiber to select.
-/

namespace PathAlgebra

variable {α ι F : Type}

/-! ## Fibers -/

namespace Family

/-- The listed values over `i`, in order. -/
def fiber (F : Type) [DecidableEq ι] [Family ι F] [Enumerated F] (i : ι) : List F :=
  (Enumerated.elements : List F).filter fun u => Family.index u = .ok i

variable [DecidableEq ι] [Family ι F]

/-- Selecting goes through where every value has an index. -/
theorem select_eq_ok {us : List F} (h : ∀ u ∈ us, ∃ i : ι, Family.index u = .ok i) (i : ι) :
    select i us = .ok (us.filter fun u => Family.index u = .ok i) := by
  induction us with
  | nil => rfl
  | cons u us ih =>
      obtain ⟨j, hj⟩ := h u List.mem_cons_self
      rw [select, hj, ih fun u' hu' => h u' (List.mem_cons_of_mem u hu')]
      by_cases hji : j = i
      · simp [hj, hji, bind, Except.bind, pure, Except.pure]
      · simp [hj, hji, bind, Except.bind, pure, Except.pure]

variable [Enumerated F]

/-- Every listed value has an index. -/
def Indexed (F : Type) {ι : Type} [Family ι F] [Enumerated F] : Prop :=
  ∀ u ∈ (Enumerated.elements : List F), ∃ i : ι, Family.index u = .ok i

theorem fiberElements_eq_ok (h : Indexed F) (i : ι) : fiberElements F i = .ok (fiber F i) :=
  select_eq_ok h i

theorem mem_fiber {i : ι} {u : F} :
    u ∈ fiber F i ↔ u ∈ (Enumerated.elements : List F) ∧ Family.index u = .ok i := by
  simp [fiber]

theorem nodup_fiber (h : (Enumerated.elements : List F).Nodup) (i : ι) : (fiber F i).Nodup :=
  h.filter _

end Family

/-! ## Breaches -/

namespace Family

variable [DecidableEq ι] [Family ι F]

theorem select_eq_error {i : ι} {us : List F} {breach : Breach} :
    select i us = .error breach ↔ FirstFailure index us breach := by
  induction us with
  | nil => simp [select, pure, Except.pure, firstFailure_nil]
  | cons u us ih =>
      simp only [select, bind_eq_error, ih, firstFailure_cons, pure, Except.pure, reduceCtorEq,
        and_false, exists_false, or_false]

theorem fiberElements_eq_error [Enumerated F] {i : ι} {breach : Breach} :
    fiberElements F i = .error breach ↔
      FirstFailure index (Enumerated.elements : List F) breach :=
  select_eq_error

end Family

namespace Table

variable [DecidableEq α] [Family α F] [Enumerated F]

theorem choices_eq_error {as : List α} {breach : Breach} :
    choices F as = .error breach ↔
      as ≠ [] ∧ FirstFailure Family.index (Enumerated.elements : List F) breach := by
  induction as with
  | nil => simp [choices, pure, Except.pure]
  | cons a as ih =>
      simp only [choices, bind_eq_error, Family.fiberElements_eq_error, ih, pure, Except.pure,
        reduceCtorEq, and_false, exists_false, or_false]
      constructor
      · rintro (h | ⟨_, -, -, h⟩) <;> exact ⟨List.cons_ne_nil a as, h⟩
      · rintro ⟨-, h⟩
        exact Or.inl h

theorem shift_eq_error [DecidableEq F] {n : Nat} {a : α} {u : F} {breach : Breach} :
    shift n a u = .error breach ↔
      FirstFailure Family.index (Enumerated.elements : List F) breach := by
  simp only [shift, bind_eq_error, Family.fiberElements_eq_error, pure, Except.pure, reduceCtorEq,
    and_false, exists_false, or_false]

theorem foldlM_shift_eq_error [DecidableEq F] {n : Nat} {zs : List (α × F)} {breach : Breach} :
    zs.foldlM (fun n z => shift n z.1 z.2) n = .error breach ↔
      zs ≠ [] ∧ FirstFailure Family.index (Enumerated.elements : List F) breach := by
  induction zs generalizing n with
  | nil => simp [pure, Except.pure]
  | cons z zs ih =>
      simp only [List.foldlM_cons, bind_eq_error (f := fun n => zs.foldlM _ n), ih, shift_eq_error]
      constructor
      · rintro (h | ⟨_, -, -, h⟩) <;> exact ⟨List.cons_ne_nil z zs, h⟩
      · rintro ⟨-, h⟩
        exact Or.inl h

variable [Enumerated α]

/-- Listing all tables selects a fiber for each element of the domain. -/
theorem elements_eq_error {breach : Breach} :
    Table.elements α F = .error breach ↔ (Enumerated.elements : List α) ≠ [] ∧
      FirstFailure Family.index (Enumerated.elements : List F) breach := by
  simp only [Table.elements, bind_eq_error, choices_eq_error, pure, Except.pure, reduceCtorEq,
    and_false, exists_false, or_false]

/-- Where the tables are listed, either there was no fiber to select or nothing is in its way. -/
theorem eq_nil_or_indexed_of_elements_eq_ok {tables : List (Table α F)}
    (h : Table.elements α F = .ok tables) :
    (Enumerated.elements : List α) = [] ∨ Family.Indexed F := by
  refine or_iff_not_imp_left.mpr fun hne u hu => ?_
  cases hindex : Family.index u with
  | ok a => exact ⟨a, rfl⟩
  | error breach =>
      obtain ⟨_, hfirst⟩ := exists_firstFailure_iff.mpr ⟨u, hu, breach, hindex⟩
      cases h.symm.trans (elements_eq_error.mpr ⟨hne, hfirst⟩)

/-- Numbering a table selects a fiber for each of its values. -/
theorem WellFormed.position_eq_error [DecidableEq F] {f : Table α F} (hf : f.WellFormed)
    {breach : Breach} :
    f.position = .error breach ↔ (Enumerated.elements : List α) ≠ [] ∧
      FirstFailure Family.index (Enumerated.elements : List F) breach := by
  rw [position, foldlM_shift_eq_error]
  have hlength : ((Enumerated.elements : List α).zip f.values).length =
      (Enumerated.elements : List α).length := by
    rw [List.length_zip, hf.length_values]
    exact Nat.min_self _
  rw [← List.length_pos_iff, hlength, List.length_pos_iff]

end Table

/-! ## Tables as selections -/

namespace Table

open Family (fiber Indexed)

/-- The table with a number is made of the selection with that number. -/
theorem getElem?_map_mk {l : List (List F)} {i : Nat} {f : Table α F} :
    (l.map fun values => (⟨values⟩ : Table α F))[i]? = some f ↔ l[i]? = some f.values := by
  rw [List.getElem?_map, Option.map_eq_some_iff]
  constructor
  · rintro ⟨values, hvalues, rfl⟩
    exact hvalues
  · intro h
    exact ⟨f.values, h, rfl⟩

variable [DecidableEq α] [Family α F] [Enumerated F]

/-- The lists of values over some indices are the selections from their fibers. -/
theorem choices_eq_ok (h : Indexed F) (as : List α) :
    choices F as = .ok (Selection.all (as.map (fiber F))) := by
  induction as with
  | nil => rfl
  | cons a as ih =>
      rw [choices, Family.fiberElements_eq_ok h, ih]
      rfl

/-- The digits of a list of values over some indices are the positions in the fibers. -/
theorem foldlM_shift_eq_ok [DecidableEq F] (h : Indexed F) (n : Nat) (as : List α)
    (us : List F) :
    (as.zip us).foldlM (fun n z => shift n z.1 z.2) n
      = .ok (Selection.number n (as.map (fiber F)) us) := by
  induction as generalizing n us with
  | nil => rfl
  | cons a as ih =>
      cases us with
      | nil => rfl
      | cons u us =>
          rw [List.zip_cons_cons, List.foldlM_cons, shift, Family.fiberElements_eq_ok h]
          exact ih _ us

variable [Enumerated α]

/-- All values of a table are listed. -/
def Listed (f : Table α F) : Prop := ∀ u ∈ f.values, u ∈ (Enumerated.elements : List F)

/-- The fibers over all elements of the domain, in order. -/
def fibers (α F : Type) [Enumerated α] [DecidableEq α] [Family α F] [Enumerated F] :
    List (List F) :=
  (Enumerated.elements : List α).map (fiber F)

/-- The well-formed tables of listed values are the selections from the fibers. -/
theorem mem_all_fibers {f : Table α F} :
    f.values ∈ Selection.all (fibers α F) ↔ f.WellFormed ∧ f.Listed := by
  rw [Selection.mem_all, fibers, List.forall₂_map_left_iff]
  simp only [Family.mem_fiber]
  constructor
  · intro h
    have hflip := h.flip
    exact ⟨h.imp fun _ _ hu => hu.2, ((List.forall₂_and_left _ _).mp hflip).1⟩
  · rintro ⟨hf, hl⟩
    exact ((List.forall₂_and_left _ _).mpr ⟨hl, hf.flip⟩).flip

theorem elements_eq_ok (h : Indexed F) :
    Table.elements α F = .ok ((Selection.all (fibers α F)).map fun values => ⟨values⟩) := by
  rw [Table.elements, choices_eq_ok h]
  rfl

theorem position_eq_ok [DecidableEq F] (h : Indexed F) (f : Table α F) :
    f.position = .ok (Selection.number 0 (fibers α F) f.values) :=
  foldlM_shift_eq_ok h 0 _ _

/-! ## The main statement -/

variable [DecidableEq F]

/-- A list of tables has every well-formed table of listed values once, in lexicographic order
with respect to the order of each fiber, and every table at its number. -/
structure IsListing (tables : List (Table α F)) : Prop where
  /-- The tables are the well-formed tables of listed values. -/
  mem_iff : ∀ f : Table α F, f ∈ tables ↔ f.WellFormed ∧ f.Listed
  /-- No table is listed twice. -/
  nodup : tables.Nodup
  /-- The tables are in lexicographic order. -/
  ordered : tables.Pairwise fun f g => Selection.Precedes (fibers α F) f.values g.values
  /-- There are as many tables as ways to choose from the fibers. -/
  length_eq : tables.length = ((Enumerated.elements : List α).map fun a => (fiber F a).length).prod
  /-- The number of a listed table is its position. -/
  position_of_getElem? : ∀ {i : Nat} {f : Table α F}, tables[i]? = some f → f.position = .ok i
  /-- Every well-formed table of listed values has a number, and is listed there. -/
  getElem?_position : ∀ f : Table α F, f.WellFormed → f.Listed →
    ∃ i, f.position = .ok i ∧ tables[i]? = some f

/-- The number of a table is the position of its selection. -/
theorem position_eq_ok_idxOf (h : Indexed F) {f : Table α F}
    (hf : f.values ∈ Selection.all (fibers α F)) :
    f.position = .ok ((Selection.all (fibers α F)).idxOf f.values) := by
  rw [position_eq_ok h, Selection.number_eq_idxOf 0 hf, Nat.zero_mul, Nat.zero_add]

theorem isListing_all (hnodup : (Enumerated.elements : List F).Nodup) (hindex : Indexed F) :
    IsListing ((Selection.all (fibers α F)).map fun values => (⟨values⟩ : Table α F)) := by
  have hfibers : ∀ l ∈ fibers α F, l.Nodup := by
    intro l hl
    obtain ⟨a, -, rfl⟩ := List.mem_map.mp hl
    exact Family.nodup_fiber hnodup a
  have hordered := Selection.pairwise_all hfibers
  constructor
  case mem_iff =>
    intro f
    rw [← mem_all_fibers, List.mem_iff_getElem?, List.mem_iff_getElem?]
    exact exists_congr fun i => getElem?_map_mk
  case nodup =>
    exact List.pairwise_map.mpr (hordered.imp fun h hfg => h.ne (congrArg Table.values hfg))
  case ordered =>
    exact List.pairwise_map.mpr hordered
  case length_eq =>
    rw [List.length_map, Selection.length_all, fibers, List.map_map]
    rfl
  case position_of_getElem? =>
    intro i f hf
    obtain ⟨hi, hvalues⟩ := List.getElem?_eq_some_iff.mp (getElem?_map_mk.mp hf)
    have hnumber := position_eq_ok_idxOf hindex (List.mem_of_getElem? (getElem?_map_mk.mp hf))
    rw [hnumber, ← hvalues, (Selection.nodup_all hfibers).idxOf_getElem i hi]
  case getElem?_position =>
    intro f hf hl
    have hmem := mem_all_fibers.mpr ⟨hf, hl⟩
    exact ⟨_, position_eq_ok_idxOf hindex hmem, getElem?_map_mk.mpr (List.getElem?_idxOf hmem)⟩

/-- **The listing of all tables.** If no value of the family is listed twice and every listed
value has an index, then the fibers, the listing of all tables and the numbers of these are
computed without a breach, and the listing is complete, ordered and numbered. In particular
there is one table on an empty domain, and none if a fiber is empty. -/
theorem elements_isListing (hnodup : (Enumerated.elements : List F).Nodup) (hindex : Indexed F) :
    (∀ a, Family.fiberElements F a = .ok (fiber F a)) ∧
    ∃ tables : List (Table α F), Table.elements α F = .ok tables ∧ IsListing tables ∧
      ((Enumerated.elements : List α) = [] → tables.length = 1) ∧
      (∀ a ∈ (Enumerated.elements : List α), fiber F a = [] → tables.length = 0) := by
  have hlisting := isListing_all (α := α) hnodup hindex
  refine ⟨Family.fiberElements_eq_ok hindex, _, elements_eq_ok hindex, hlisting, ?_, ?_⟩
  · intro hempty
    rw [hlisting.length_eq, hempty]
    rfl
  · intro a ha hfiber
    rw [hlisting.length_eq]
    exact List.prod_eq_zero (List.mem_map.mpr ⟨a, ha, by rw [hfiber]; rfl⟩)

/-- In the family of initial segments below 3 the fibers have one, two and three values. -/
theorem elements_upto_isListing :
    (Enumerated.elements : List (Upto 3)).Nodup ∧ Indexed (Upto 3) ∧
      ∃ tables : List (Table (Fin 3) (Upto 3)), Table.elements (Fin 3) (Upto 3) = .ok tables ∧
        IsListing tables ∧ tables.length = 6 := by
  have hnodup : (Enumerated.elements : List (Upto 3)).Nodup := by decide
  have hindex : Indexed (Upto 3) := fun u _ => ⟨u.index, rfl⟩
  obtain ⟨-, tables, htables, hlisting, -⟩ := elements_isListing (α := Fin 3) hnodup hindex
  exact ⟨hnodup, hindex, tables, htables, hlisting, hlisting.length_eq⟩

end Table

end PathAlgebra
