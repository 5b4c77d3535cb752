import PathAlgebra.Proofs.Family.Transport
import PathAlgebra.Proofs.Table.Tabulation
import PathAlgebra.Proofs.Table.Listing

set_option autoImplicit false

/-! # Enumeration over products of families

The pairs of values of two families are listed whatever their indices are, but only the pairs whose
components have the same index are values of the product. Selecting a fiber takes the index of every
listed value, so over a product it breaks an assertion as soon as two listed components lie over
different indices (`FirstApart`), and which fiber is selected makes no difference.

Listing the tables of a family and numbering one of them select a fiber for each element of the
domain, so they break the same assertion unless the domain is empty. Tabulating and applying look at
the values that they are given alone.
-/

namespace PathAlgebra

open Enumerated (elements position cardinality)

variable {ι P Q : Type}

/-! ## Values that lie apart -/

namespace Family

section

variable [Family ι P] [Family ι Q]

/-- The two values lie in fibers over different indices. -/
def Apart (u : P) (v : Q) : Prop := ∃ i j, index u = .ok i ∧ index v = .ok j ∧ i ≠ j

variable (P Q) in
/-- The first two listed values, row by row, that lie in fibers over different indices lie over `i`
and `j`. -/
def FirstApart [Enumerated P] [Enumerated Q] (i j : ι) : Prop :=
  ∃ us u us' vs v vs', (elements : List P) = us ++ u :: us' ∧ (elements : List Q) = vs ++ v :: vs' ∧
    (∀ u' ∈ us, ∀ v' ∈ (elements : List Q), ¬ Apart u' v') ∧ (∀ v' ∈ vs, ¬ Apart u v') ∧
    index u = .ok i ∧ index v = .ok j ∧ i ≠ j

end

variable [DecidableEq ι] [Display ι] [Family ι P] [Family ι Q]

/-- Where both components have an index, that of the pair is missing if they differ. -/
theorem index_prod_eq_error {z : P × Q} {i j : ι} (hu : index z.1 = .ok i)
    (hv : index z.2 = .ok j) {breach : Breach} :
    index z = .error breach ↔ i ≠ j ∧ breach = .mismatch (display i) (display j) := by
  show (do
    let left ← index z.1
    let right ← index z.2
    assertSame left right
    return left : Asserted ι) = .error breach ↔ _
  simp only [hu, hv, ok_bind, bind_eq_error, assertSame_eq_error, pure, Except.pure, reduceCtorEq,
    and_false, exists_false, or_false]

theorem exists_index_prod_iff {z : P × Q} (hu : ∃ i : ι, index z.1 = .ok i)
    (hv : ∃ j : ι, index z.2 = .ok j) : (∃ k, index z = .ok k) ↔ ¬ Apart z.1 z.2 := by
  obtain ⟨i, hi⟩ := hu
  obtain ⟨j, hj⟩ := hv
  simp only [index_prod_eq_ok, Apart, hi, hj, Except.ok.injEq]
  constructor
  · rintro ⟨k, rfl, rfl⟩ ⟨i', j', rfl, rfl, hne⟩
    exact hne rfl
  · intro h
    by_cases hij : j = i
    · exact ⟨i, rfl, hij⟩
    · exact absurd ⟨i, j, rfl, rfl, Ne.symm hij⟩ h

variable [Enumerated P] [Enumerated Q]

theorem mem_elements_prod {z : P × Q} :
    z ∈ (elements : List (P × Q)) ↔ z.1 ∈ (elements : List P) ∧ z.2 ∈ (elements : List Q) := by
  show z ∈ (elements.flatMap fun u => elements.map fun v => (u, v)) ↔ _
  simp only [List.mem_flatMap, List.mem_map]
  constructor
  · rintro ⟨u, hu, v, hv, rfl⟩
    exact ⟨hu, hv⟩
  · rintro ⟨hu, hv⟩
    exact ⟨z.1, hu, z.2, hv, rfl⟩

/-- The first listed pair without an index is the first one whose components lie apart. -/
theorem firstFailure_index_prod (hP : Indexed P) (hQ : Indexed Q) {breach : Breach} :
    FirstFailure index (elements : List (P × Q)) breach ↔
      ∃ i j, FirstApart P Q i j ∧ breach = .mismatch (display i) (display j) := by
  have hpair (u : P) (hu : u ∈ (elements : List P)) (v : Q) (hv : v ∈ (elements : List Q)) :
      (∃ k : ι, index (u, v) = .ok k) ↔ ¬ Apart u v :=
    exists_index_prod_iff (hP u hu) (hQ v hv)
  -- the pairs before the one that is split off are all listed
  have hbefore {us us' : List P} {u : P} {vs vs' : List Q} {v : Q}
      (hus : (elements : List P) = us ++ u :: us') (hvs : (elements : List Q) = vs ++ v :: vs') :
      ((∀ u' ∈ us, ∀ v' ∈ (elements : List Q), ∃ k : ι, index (u', v') = .ok k) ∧
        ∀ v' ∈ vs, ∃ k : ι, index (u, v') = .ok k) ↔
      (∀ u' ∈ us, ∀ v' ∈ (elements : List Q), ¬ Apart u' v') ∧ ∀ v' ∈ vs, ¬ Apart u v' :=
    and_congr
      (forall₂_congr fun u' hu' => forall₂_congr fun v' hv' =>
        hpair u' (hus ▸ List.mem_append_left _ hu') v' hv')
      (forall₂_congr fun v' hv' =>
        hpair u (hus ▸ List.mem_append_right us List.mem_cons_self) v'
          (hvs ▸ List.mem_append_left _ hv'))
  refine firstFailure_pairs.trans ?_
  constructor
  · rintro ⟨us, u, us', vs, v, vs', hus, hvs, hrows, hrow, h⟩
    obtain ⟨hrows, hrow⟩ := (hbefore hus hvs).mp ⟨hrows, hrow⟩
    obtain ⟨i, hi⟩ := hP u (hus ▸ List.mem_append_right us List.mem_cons_self)
    obtain ⟨j, hj⟩ := hQ v (hvs ▸ List.mem_append_right vs List.mem_cons_self)
    obtain ⟨hne, rfl⟩ := (index_prod_eq_error hi hj).mp h
    exact ⟨i, j, ⟨us, u, us', vs, v, vs', hus, hvs, hrows, hrow, hi, hj, hne⟩, rfl⟩
  · rintro ⟨i, j, ⟨us, u, us', vs, v, vs', hus, hvs, hrows, hrow, hi, hj, hne⟩, rfl⟩
    obtain ⟨hrows, hrow⟩ := (hbefore hus hvs).mpr ⟨hrows, hrow⟩
    exact ⟨us, u, us', vs, v, vs', hus, hvs, hrows, hrow,
      (index_prod_eq_error hi hj).mpr ⟨hne, rfl⟩⟩

/-- If any two listed values lie apart, there are first ones. -/
theorem exists_firstApart_iff (hP : Indexed P) (hQ : Indexed Q) :
    (∃ i j : ι, FirstApart P Q i j) ↔
      ∃ u ∈ (elements : List P), ∃ v ∈ (elements : List Q), Apart u v := by
  constructor
  · rintro ⟨i, j, us, u, us', vs, v, vs', hus, hvs, -, -, h⟩
    exact ⟨u, hus ▸ List.mem_append_right us List.mem_cons_self, v,
      hvs ▸ List.mem_append_right vs List.mem_cons_self, i, j, h⟩
  · rintro ⟨u, hu, v, hv, i, j, hi, hj, hne⟩
    have herror : index (u, v) = .error (.mismatch (display i) (display j)) :=
      (index_prod_eq_error hi hj).mpr ⟨hne, rfl⟩
    obtain ⟨breach, hfirst⟩ := exists_firstFailure_iff.mpr
      ⟨(u, v), mem_elements_prod.mpr ⟨hu, hv⟩, _, herror⟩
    obtain ⟨i', j', hfirst, -⟩ := (firstFailure_index_prod hP hQ).mp hfirst
    exact ⟨i', j', hfirst⟩

/-- If no two listed values lie apart, a fiber has the listed pairs whose components both lie over
the index. -/
theorem fiberElements_prod_eq_ok (hP : Indexed P) (hQ : Indexed Q)
    (h : ¬ ∃ u ∈ (elements : List P), ∃ v ∈ (elements : List Q), Apart u v) (k : ι) :
    fiberElements (P × Q) k = .ok ((elements : List (P × Q)).filter fun z =>
      index z.1 = .ok k ∧ index z.2 = .ok k) := by
  have hindexed : Indexed (P × Q) := by
    intro z hz
    obtain ⟨hu, hv⟩ := mem_elements_prod.mp hz
    exact (exists_index_prod_iff (hP z.1 hu) (hQ z.2 hv)).mpr fun hapart =>
      h ⟨z.1, hu, z.2, hv, hapart⟩
  rw [fiberElements_eq_ok hindexed, fiber]
  simp only [index_prod_eq_ok]

/-! ## Enumeration over a product -/

/-- **Enumeration over a product of two families.** Let every listed value of the families have an
index. Selecting a fiber of the product breaks an assertion exactly if two listed values lie over
different indices, and the assertion is that the indices of the first two, row by row, coincide.
Otherwise the fiber has the listed pairs whose components both lie over the index, in their order.

Over a domain with at least one element, listing all tables and numbering a well-formed one break
the same assertion, and on the empty domain none. Tabulating a function whose values have components
over the same index breaks no assertion, whatever is listed, and neither does applying a
well-formed table to a value with a number in range. -/
theorem enumeration_prod [Enumerated ι] [DecidableEq P] [Display P] [DecidableEq Q] [Display Q]
    (hP : Indexed P) (hQ : Indexed Q) :
    ((∃ i j : ι, FirstApart P Q i j) ↔
      ∃ u ∈ (elements : List P), ∃ v ∈ (elements : List Q), Apart u v) ∧
    (∀ (k : ι) (breach : Breach), fiberElements (P × Q) k = .error breach ↔
      ∃ i j, FirstApart P Q i j ∧ breach = .mismatch (display i) (display j)) ∧
    ((¬ ∃ u ∈ (elements : List P), ∃ v ∈ (elements : List Q), Apart u v) → ∀ k : ι,
      fiberElements (P × Q) k = .ok ((elements : List (P × Q)).filter fun z =>
        index z.1 = .ok k ∧ index z.2 = .ok k)) ∧
    (∀ breach : Breach, Table.elements ι (P × Q) = .error breach ↔
      (elements : List ι) ≠ [] ∧
        ∃ i j, FirstApart P Q i j ∧ breach = .mismatch (display i) (display j)) ∧
    (∀ f : Table ι (P × Q), f.WellFormed → ∀ breach : Breach, f.position = .error breach ↔
      (elements : List ι) ≠ [] ∧
        ∃ i j, FirstApart P Q i j ∧ breach = .mismatch (display i) (display j)) ∧
    (∀ f : ι → Asserted (P × Q),
      (∀ a, ∃ z i, f a = .ok z ∧ index z.1 = .ok i ∧ index z.2 = .ok i) →
      ∀ breach, Table.tabulate f ≠ .error (.broken breach)) ∧
    ∀ f : Table ι (P × Q), f.WellFormed → ∀ a, position a < cardinality ι →
      ∃ z, f.apply a = .ok z := by
  refine ⟨exists_firstApart_iff hP hQ, fun k breach => ?_, fiberElements_prod_eq_ok hP hQ,
    fun breach => ?_, fun f hf breach => ?_, fun f hf => ?_,
    fun f hf a ha => hf.exists_apply_of_lt ha⟩
  · rw [fiberElements_eq_error, firstFailure_index_prod hP hQ]
  · rw [Table.elements_eq_error, firstFailure_index_prod hP hQ]
  · rw [hf.position_eq_error, firstFailure_index_prod hP hQ]
  · apply Table.tabulate_ne_broken
    intro a
    obtain ⟨z, i, hz, hi⟩ := hf a
    exact ⟨z, i, hz, index_prod_eq_ok.mpr hi⟩

/-- The first value of the one family and the second value of the other lie apart. Which fiber is
selected makes no difference, and a table that has been tabulated has no number. -/
theorem enumeration_prod_bool :
    let F := Fiber Bool Unit × Fiber Bool Unit
    let breach := Breach.mismatch "false" "true"
    Indexed (Fiber Bool Unit) ∧ (∀ k, fiberElements F k = .error breach) ∧
    Table.elements Bool F = .error breach ∧
    ∃ t : Table Bool F, Table.tabulate (fun a => .ok (⟨a, ()⟩, ⟨a, ()⟩)) = .ok t ∧
      t.position = .error breach ∧ t.apply true = .ok (⟨true, ()⟩, ⟨true, ()⟩) := by
  intro F breach
  have hindexed : Indexed (Fiber Bool Unit) := fun u _ => ⟨u.index, rfl⟩
  have hfirst : ∃ i j, FirstApart (Fiber Bool Unit) (Fiber Bool Unit) i j ∧
      breach = .mismatch (display i) (display j) := by
    refine ⟨false, true, ⟨[], ⟨false, ()⟩, [⟨true, ()⟩], [⟨false, ()⟩], ⟨true, ()⟩, [], rfl, rfl,
      nofun, fun v hv => ?_, rfl, rfl, by decide⟩, rfl⟩
    rintro ⟨i, j, hi, hj, hne⟩
    cases List.mem_singleton.mp hv
    exact hne (Except.ok.inj (hi.symm.trans hj))
  obtain ⟨-, hfiber, -, htables, hposition, -, -⟩ := enumeration_prod hindexed hindexed
  have htabulate : Table.tabulate (fun a => .ok ((⟨a, ()⟩, ⟨a, ()⟩) : F)) =
      .ok ⟨[(⟨false, ()⟩, ⟨false, ()⟩), (⟨true, ()⟩, ⟨true, ()⟩)]⟩ := rfl
  have hwf := Table.wellFormed_of_tabulate_eq_ok htabulate
  have hne : (elements : List Bool) ≠ [] := List.cons_ne_nil false [true]
  exact ⟨hindexed, fun k => (hfiber k breach).mpr hfirst, (htables breach).mpr ⟨hne, hfirst⟩, _,
    htabulate, (hposition _ hwf breach).mpr ⟨hne, hfirst⟩, rfl⟩

end Family

end PathAlgebra
