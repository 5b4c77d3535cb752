import PathAlgebra.Proofs.Table.Currying

set_option autoImplicit false

/-! # Tabulating a function of two arguments

A function of two arguments can be tabulated as a grid or, as a function on pairs, as a table.
Both go through exactly where the function respects the fibers (`Grid.exists_tabulate_eq_ok`,
`Table.exists_tabulate_eq_ok`), and they are then the same function, up to currying.

Otherwise both stop at the same arguments. A failing tabulation fails as the first step that fails
does, and arguments are listed row by row. A value that lies in another fiber (`FirstStray`) has
both refused, each in its own wording, and nothing is computed after it.
-/

namespace PathAlgebra

open Enumerated (elements position)

variable {ι α β F : Type}

/-! ## One step -/

section

variable [DecidableEq ι] [Family ι F]

/-- The value of a computation, if it lies in the fiber over `i`. -/
def place (i : ι) (cause : F → Cause) (x : Asserted F) : Outcome F := do
  let u ← x
  if (← Family.index u) = i then pure u else refuse (cause u)

/-- The computation ends with a value in the fiber over `i`. -/
def Placed (i : ι) (x : Asserted F) : Prop := ∃ u, x = .ok u ∧ Family.index u = .ok i

variable {i : ι} {cause : F → Cause} {x : Asserted F}

theorem exists_place_eq_ok : (∃ v, place i cause x = .ok v) ↔ Placed i x :=
  exists_congr fun _ => placed_eq_ok

theorem place_eq_error {failure : Failure} :
    place i cause x = .error failure ↔
      (∃ breach, (x = .error breach ∨ ∃ u, x = .ok u ∧ Family.index u = .error breach) ∧
        failure = .broken breach) ∨
      ∃ u, (x = .ok u ∧ ∃ j, Family.index u = .ok j ∧ j ≠ i) ∧
        failure = .refused (.ofCause (cause u)) := by
  simp only [place, bind_eq_error, liftM_asserted_eq_error, liftM_asserted_eq_ok]
  constructor
  · rintro (⟨breach, hx, rfl⟩ | ⟨u, hx, ⟨breach, hu, rfl⟩ | ⟨j, hu, h⟩⟩)
    · exact Or.inl ⟨breach, Or.inl hx, rfl⟩
    · exact Or.inl ⟨breach, Or.inr ⟨u, hx, hu⟩, rfl⟩
    · split at h
      · cases h
      · next hji =>
          cases h
          exact Or.inr ⟨u, ⟨hx, j, hu, hji⟩, rfl⟩
  · rintro (⟨breach, hx | ⟨u, hx, hu⟩, rfl⟩ | ⟨u, ⟨hx, j, hu, hji⟩, rfl⟩)
    · exact Or.inl ⟨breach, hx, rfl⟩
    · exact Or.inr ⟨u, hx, Or.inl ⟨breach, hu, rfl⟩⟩
    · exact Or.inr ⟨u, hx, Or.inr ⟨j, hu, if_neg hji⟩⟩

theorem place_eq_refused {report : Report} :
    place i cause x = .error (.refused report) ↔
      ∃ u, (x = .ok u ∧ ∃ j, Family.index u = .ok j ∧ j ≠ i) ∧ report = .ofCause (cause u) := by
  simp only [place_eq_error, reduceCtorEq, and_false, exists_false, false_or,
    Failure.refused.injEq]

/-- Which assertion breaks does not depend on how a value in another fiber is reported. -/
theorem place_eq_broken {breach : Breach} :
    place i cause x = .error (.broken breach) ↔
      x = .error breach ∨ ∃ u, x = .ok u ∧ Family.index u = .error breach := by
  simp only [place_eq_error, reduceCtorEq, and_false, exists_false, or_false,
    Failure.broken.injEq, exists_eq_right']

end

/-! ## The first step that fails -/

section

variable {ε δ : Type} [Enumerated α] [LawfulEnumerated α] {f : α → Except ε δ}

theorem exists_mapM_elements_eq_ok :
    (∃ values, (elements : List α).mapM f = .ok values) ↔ ∀ a, ∃ v, f a = .ok v := by
  constructor
  · rintro ⟨values, h⟩ a
    obtain ⟨v, -, hv⟩ :=
      getElem?_of_forall₂ (mapM_eq_ok.mp h) (LawfulEnumerated.getElem?_position a)
    exact ⟨v, hv⟩
  · intro h
    obtain ⟨values, hvalues⟩ := exists_forall₂ fun a (_ : a ∈ (elements : List α)) => h a
    exact ⟨values, mapM_eq_ok.mpr hvalues⟩

/-- A loop over all elements fails as the step does whose number is the smallest among those that
fail. -/
theorem mapM_elements_eq_error {e : ε} :
    (elements : List α).mapM f = .error e ↔
      ∃ a, (∀ b, position b < position a → ∃ v, f b = .ok v) ∧ f a = .error e := by
  rw [mapM_eq_error]
  constructor
  · rintro ⟨before, a, after, h, hbefore, ha⟩
    exact ⟨a, fun b hb => hbefore b ((LawfulEnumerated.mem_before_iff h).mpr hb), ha⟩
  · rintro ⟨a, hbefore, ha⟩
    obtain ⟨before, after, h⟩ := List.append_of_mem (LawfulEnumerated.mem_elements a)
    exact ⟨before, a, after, h,
      fun b hb => hbefore b ((LawfulEnumerated.mem_before_iff h).mp hb), ha⟩

end

/-! ## Where tabulating goes through and where it fails -/

section

variable [Enumerated α] [LawfulEnumerated α] [DecidableEq α] [Display α] [Family α F] [Display F]
variable {f : α → Asserted F}

theorem Table.exists_tabulate_eq_ok :
    (∃ t : Table α F, tabulate f = .ok t) ↔ ∀ a, Placed a (f a) := by
  constructor
  · rintro ⟨t, ht⟩ a
    obtain ⟨u, -, hu⟩ :=
      getElem?_of_forall₂ (tabulate_eq_ok.mp ht) (LawfulEnumerated.getElem?_position a)
    exact ⟨u, hu⟩
  · intro h
    obtain ⟨t, ht, -⟩ := exists_build_eq_ok h
    exact ⟨t, tabulate_eq_ok.mpr (build_eq_ok.mp ht)⟩

theorem Table.apply_of_tabulate_eq_ok {t : Table α F} (h : tabulate f = .ok t) (a : α) :
    t.apply a = f a := by
  obtain ⟨t', ht', -, happly⟩ := exists_build_eq_ok (exists_tabulate_eq_ok.mp ⟨t, h⟩)
  -- tabulating and building give the same table
  cases (build_eq_ok.mpr (tabulate_eq_ok.mp h)).symm.trans ht'
  exact happly a

theorem Table.tabulate_eq_error {failure : Failure} :
    tabulate f = .error failure ↔
      ∃ a, (∀ a', Enumerated.position a' < Enumerated.position a → Placed a' (f a')) ∧
        place a (fun u => .wrongFiber (display u) (display a)) (f a) = .error failure := by
  show ((Enumerated.elements.mapM fun a =>
    place a (fun u => .wrongFiber (display u) (display a)) (f a)) >>=
    fun values => .ok (mk values : Table α F)) = .error failure ↔ _
  simp only [bind_eq_error, mapM_elements_eq_error, exists_place_eq_ok, reduceCtorEq, and_false,
    exists_false, or_false]

end

/-- Tabulating breaks no assertion if taking the values and their indices does not. -/
theorem Table.tabulate_ne_broken [Enumerated α] [DecidableEq α] [Display α] [Family α F]
    [Display F] {f : α → Asserted F} (h : ∀ a, ∃ u i, f a = .ok u ∧ Family.index u = .ok i)
    (breach : Breach) : tabulate f ≠ .error (.broken breach) := by
  intro hbroken
  change ((Enumerated.elements.mapM fun a =>
    place a (fun u => .wrongFiber (display u) (display a)) (f a)) >>=
    fun values => .ok (mk values : Table α F)) = .error (.broken breach) at hbroken
  simp only [bind_eq_error, mapM_eq_error, reduceCtorEq, and_false, exists_false,
    or_false] at hbroken
  obtain ⟨-, a, -, -, -, ha⟩ := hbroken
  obtain ⟨u, i, hu, hi⟩ := h a
  rcases place_eq_broken.mp ha with ha | ⟨u', hu', hi'⟩
  · rw [hu] at ha
    cases ha
  · cases hu.symm.trans hu'
    rw [hi] at hi'
    cases hi'

namespace Grid

variable [Enumerated α] [LawfulEnumerated α] [DecidableEq α] [Display α]
variable [Enumerated β] [LawfulEnumerated β] [DecidableEq β] [Display β]
variable [Family (α × β) F] [Display F]

/-- The values at all arguments that come before `a` and `b`, row by row, are there and lie in their
fibers. -/
def PlacedBefore (f : α → β → Asserted F) (a : α) (b : β) : Prop :=
  ∀ a' b', Enumerated.position a' < Enumerated.position a ∨
    a' = a ∧ Enumerated.position b' < Enumerated.position b → Placed (a', b') (f a' b')

/-- The arguments `a` and `b` are the first ones, row by row, whose value `u` lies in another
fiber. -/
def FirstStray (f : α → β → Asserted F) (a : α) (b : β) (u : F) : Prop :=
  PlacedBefore f a b ∧ f a b = .ok u ∧ ∃ z, Family.index u = .ok z ∧ z ≠ (a, b)

variable {f : α → β → Asserted F}

theorem tabulate_eq_error {failure : Failure} :
    tabulate f = .error failure ↔
      ∃ a b, PlacedBefore f a b ∧
        place (a, b) (fun u => .wrongFiberPair (display u) (display a) (display b)) (f a b) =
          .error failure := by
  show ((Enumerated.elements.mapM fun a => Enumerated.elements.mapM fun b =>
    place (a, b) (fun u => .wrongFiberPair (display u) (display a) (display b)) (f a b)) >>=
    fun rows => .ok (mk rows : Grid α β F)) = .error failure ↔ _
  simp only [bind_eq_error, mapM_elements_eq_error, exists_mapM_elements_eq_ok,
    exists_place_eq_ok, reduceCtorEq, and_false, exists_false, or_false]
  constructor
  · rintro ⟨a, hrows, b, hrow, h⟩
    refine ⟨a, b, fun a' b' => ?_, h⟩
    rintro (ha' | ⟨rfl, hb'⟩)
    · exact hrows a' ha' b'
    · exact hrow b' hb'
  · rintro ⟨a, b, hbefore, h⟩
    exact ⟨a, fun a' ha' b' => hbefore a' b' (Or.inl ha'), b,
      fun b' hb' => hbefore a b' (Or.inr ⟨rfl, hb'⟩), h⟩

theorem tabulate_uncurried_eq_error {failure : Failure} :
    Table.tabulate (fun z : α × β => f z.1 z.2) = .error failure ↔
      ∃ a b, PlacedBefore f a b ∧
        place (a, b) (fun u => .wrongFiber (display u) (display (a, b))) (f a b) =
          .error failure := by
  simp only [Table.tabulate_eq_error, Prod.exists, Prod.forall, LawfulEnumerated.position_pair_lt]
  rfl

theorem exists_tabulate_eq_ok :
    (∃ g : Grid α β F, tabulate f = .ok g) ↔ ∀ a b, Placed (a, b) (f a b) := by
  constructor
  · rintro ⟨g, hg⟩ a b
    obtain ⟨row, -, hrow⟩ :=
      getElem?_of_forall₂ (tabulate_eq_ok.mp hg) (LawfulEnumerated.getElem?_position a)
    obtain ⟨u, -, hu⟩ := getElem?_of_forall₂ hrow (LawfulEnumerated.getElem?_position b)
    exact ⟨u, hu⟩
  · intro h
    obtain ⟨g, hg, -⟩ := exists_build_eq_ok h
    exact ⟨g, tabulate_eq_ok.mpr (build_eq_ok.mp hg)⟩

theorem apply_of_tabulate_eq_ok {g : Grid α β F} (h : tabulate f = .ok g) (a : α) (b : β) :
    g.apply a b = f a b := by
  obtain ⟨g', hg', -, happly⟩ := exists_build_eq_ok (exists_tabulate_eq_ok.mp ⟨g, h⟩)
  cases (build_eq_ok.mpr (tabulate_eq_ok.mp h)).symm.trans hg'
  exact happly a b

/-- The grid and the table that are tabulated from one function become each other. -/
theorem uncurry_of_tabulate_eq_ok {g : Grid α β F} {t : Table (α × β) F}
    (hg : tabulate f = .ok g) (ht : Table.tabulate (fun z : α × β => f z.1 z.2) = .ok t) :
    g.uncurry = .ok t ∧ t.curry = .ok g := by
  have hwf := wellFormed_of_tabulate_eq_ok hg
  obtain ⟨t', ht', huncurry, hcurry⟩ := hwf.curry_uncurry
  obtain ⟨t'', huncurry', -, happly⟩ := hwf.exists_uncurry_eq_ok
  cases huncurry.symm.trans huncurry'
  -- two well-formed tables with the same values
  have hsame : t' = t := ht'.ext (Table.wellFormed_of_tabulate_eq_ok ht) fun z => calc
    t'.apply z = g.apply z.1 z.2 := happly z.1 z.2
    _ = f z.1 z.2 := apply_of_tabulate_eq_ok hg z.1 z.2
    _ = t.apply z := (Table.apply_of_tabulate_eq_ok ht z).symm
  subst hsame
  exact ⟨huncurry, hcurry⟩

/-- **The two ways of tabulating agree.** Let `f` be any function of two arguments. Tabulating it
and tabulating it as a function on pairs both go through exactly if all its values are there and
lie in their fibers. The grid and the table then become each other and apply `f`. Otherwise both
are refused for the same arguments, the first ones, row by row, whose value lies in another fiber;
of what comes later nothing is assumed. If it comes to an assertion that breaks first, it is the
same for both. -/
theorem tabulate_eq_tabulate_uncurried (f : α → β → Asserted F) :
    ((∃ g, tabulate f = .ok g) ↔ ∀ a b, Placed (a, b) (f a b)) ∧
    ((∃ t, Table.tabulate (fun z : α × β => f z.1 z.2) = .ok t) ↔ ∀ a b, Placed (a, b) (f a b)) ∧
    (∀ g t, tabulate f = .ok g → Table.tabulate (fun z : α × β => f z.1 z.2) = .ok t →
      g.uncurry = .ok t ∧ t.curry = .ok g ∧
        ∀ a b, g.apply a b = f a b ∧ t.apply (a, b) = f a b) ∧
    (∀ a b u, FirstStray f a b u →
      tabulate f = .error (.refused (.ofCause
        (.wrongFiberPair (display u) (display a) (display b)))) ∧
      Table.tabulate (fun z : α × β => f z.1 z.2) = .error (.refused (.ofCause
        (.wrongFiber (display u) (display (a, b)))))) ∧
    (∀ report, tabulate f = .error (.refused report) ∨
        Table.tabulate (fun z : α × β => f z.1 z.2) = .error (.refused report) →
      ∃ a b u, FirstStray f a b u) ∧
    ∀ breach, tabulate f = .error (.broken breach) ↔
      Table.tabulate (fun z : α × β => f z.1 z.2) = .error (.broken breach) := by
  refine ⟨exists_tabulate_eq_ok, ?_, fun g t hg ht => ?_, ?_, ?_, ?_⟩
  · rw [Table.exists_tabulate_eq_ok, Prod.forall]
  · obtain ⟨huncurry, hcurry⟩ := uncurry_of_tabulate_eq_ok hg ht
    exact ⟨huncurry, hcurry, fun a b =>
      ⟨apply_of_tabulate_eq_ok hg a b, Table.apply_of_tabulate_eq_ok ht (a, b)⟩⟩
  · rintro a b u ⟨hbefore, hstray⟩
    exact ⟨tabulate_eq_error.mpr ⟨a, b, hbefore, place_eq_refused.mpr ⟨u, hstray, rfl⟩⟩,
      tabulate_uncurried_eq_error.mpr ⟨a, b, hbefore, place_eq_refused.mpr ⟨u, hstray, rfl⟩⟩⟩
  · rintro report (h | h)
    · obtain ⟨a, b, hbefore, h⟩ := tabulate_eq_error.mp h
      obtain ⟨u, hstray, -⟩ := place_eq_refused.mp h
      exact ⟨a, b, u, hbefore, hstray⟩
    · obtain ⟨a, b, hbefore, h⟩ := tabulate_uncurried_eq_error.mp h
      obtain ⟨u, hstray, -⟩ := place_eq_refused.mp h
      exact ⟨a, b, u, hbefore, hstray⟩
  · intro breach
    simp only [tabulate_eq_error, tabulate_uncurried_eq_error, place_eq_broken]

/-- Two components of which both lie over the arguments. -/
def straight (a b : Bool) : Fiber (Bool × Bool) Unit × Fiber (Bool × Bool) Unit :=
  (⟨(a, b), ()⟩, ⟨(a, b), ()⟩)

/-- Two components that do not look at the second argument, and of which one does not even look at
the first. -/
def bent (a _ : Bool) : Fiber (Bool × Bool) Unit × Fiber (Bool × Bool) Unit :=
  (⟨(a, false), ()⟩, ⟨(false, false), ()⟩)

/-- Nothing is asserted after the first value in another fiber: the indices of the two components
differ in the next row. -/
theorem tabulate_bent :
    (∃ g t, tabulate (fun a b => .ok (straight a b)) = .ok g ∧
      Table.tabulate (fun z : Bool × Bool => .ok (straight z.1 z.2)) = .ok t ∧
      g.uncurry = .ok t ∧ t.curry = .ok g) ∧
    (∃ breach, Family.index (bent true false) = .error breach) ∧
    tabulate (fun a b => .ok (bent a b)) = .error (.refused (.ofCause
      (.wrongFiberPair (display (bent false true)) "false" "true"))) ∧
    Table.tabulate (fun z : Bool × Bool => .ok (bent z.1 z.2)) = .error (.refused (.ofCause
      (.wrongFiber (display (bent false true)) "(false, true)"))) := by
  obtain ⟨hgrid, htable, hsame, -⟩ := tabulate_eq_tabulate_uncurried fun a b => .ok (straight a b)
  obtain ⟨-, -, -, hstray, -⟩ := tabulate_eq_tabulate_uncurried fun a b => .ok (bent a b)
  refine ⟨?_, ⟨_, rfl⟩, ?_⟩
  · have hplaced : ∀ a b, Placed (a, b) (.ok (straight a b)) := by
      rintro (_ | _) (_ | _) <;> exact ⟨_, rfl, rfl⟩
    obtain ⟨g, hg⟩ := hgrid.mpr hplaced
    obtain ⟨t, ht⟩ := htable.mpr hplaced
    obtain ⟨huncurry, hcurry, -⟩ := hsame g t hg ht
    exact ⟨g, t, hg, ht, huncurry, hcurry⟩
  · refine hstray false true _ ⟨fun a b hbefore => ?_, rfl, _, rfl, by decide⟩
    match a, b with
    | false, false => exact ⟨_, rfl, rfl⟩
    | false, true | true, false | true, true => exact absurd hbefore (by decide)

end Grid

end PathAlgebra
