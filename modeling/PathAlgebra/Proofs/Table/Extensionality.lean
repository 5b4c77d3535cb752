import PathAlgebra.Proofs.Table.Currying

set_option autoImplicit false

/-! # Function extensionality is sound

A path between two functions is made from paths between their values in two steps: a loop over
all arguments asserts the ends of each of these paths, and then the two functions are asserted to
be the same. The second assertion cannot fail. What the loop has seen is that the functions agree
at all arguments, and a well-formed table or grid is determined by its values
(`Table.WellFormed.ofPointwise_eq_ok`).

Functions of two arguments are compared row by row, which is the order in which pairs are listed.
So uncurrying two grids changes neither what their comparison asserts nor in which order, and the
first assertion that breaks is the same (`Path.assertPointwise_uncurry`).
-/

namespace PathAlgebra

/-! ## Assertions that cannot fail -/

namespace Path

section

variable {α : Type} [DecidableEq α] [Display α] {loop : Asserted Unit} {x y : α}

/-- If a loop goes through only where two values are the same, asserting this after it changes
nothing. -/
theorem assertSame_after_eq_ok (hsame : loop = .ok () → x = y) {p : Path α} :
    (do
      loop
      assertSame x y
      return refl x : Asserted (Path α)) = .ok p ↔ loop = .ok () ∧ p = refl x := by
  constructor
  · intro hp
    obtain ⟨_, hloop, hp⟩ := bind_eq_ok.mp hp
    obtain ⟨_, -, ⟨⟩⟩ := bind_eq_ok.mp hp
    exact ⟨hloop, rfl⟩
  · rintro ⟨hloop, rfl⟩
    rw [hloop, ok_bind, hsame hloop, assertSame_self]
    rfl

theorem assertSame_after_eq_error (hsame : loop = .ok () → x = y) {breach : Breach} :
    (do
      loop
      assertSame x y
      return refl x : Asserted (Path α)) = .error breach ↔ loop = .error breach := by
  cases hloop : loop with
  | error breach' =>
      show (Except.error breach' : Asserted (Path α)) = .error breach ↔ _
      rw [Except.error.injEq, Except.error.injEq]
  | ok u =>
      rw [ok_bind, hsame hloop, assertSame_self, ok_bind]
      simp only [pure, Except.pure, reduceCtorEq]

end

end Path

variable {α β F : Type} [DecidableEq F] [Display F]

namespace Path

/-! ## What a comparison asserts -/

/-- Asserts that a path runs between two values; the path is computed first. -/
def assertBetween (p : Asserted (Path F)) (left right : Asserted F) : Asserted Unit := do
  let p ← p
  p.assertEnds (← left) (← right)

theorem assertBetween_eq_ok {p : Asserted (Path F)} {left right : Asserted F} {u : Unit} :
    assertBetween p left right = .ok u ↔
      ∃ x, left = .ok x ∧ right = .ok x ∧ p = .ok (.refl x) := by
  simp only [assertBetween, assertEnds, bind_eq_ok, assertSame_eq_ok]
  constructor
  · rintro ⟨⟨x⟩, hp, y, hleft, z, hright, _, hxy, hxz⟩
    cases hxy
    cases hxz
    exact ⟨x, hleft, hright, hp⟩
  · rintro ⟨x, hleft, hright, hp⟩
    exact ⟨.refl x, hp, x, hleft, x, hright, (), rfl, rfl⟩

variable [Enumerated α] [Enumerated β]

/-- Asserts the ends of the paths between the values of two functions, at one argument after the
other. -/
def assertPointwise (f g : Table α F) (h : α → Asserted (Path F)) : Asserted Unit :=
  Enumerated.elements.forM fun a => assertBetween (h a) (f.apply a) (g.apply a)

/-- Asserts the ends of the paths between the values of two functions of two arguments, row by
row. -/
def assertPointwise₂ (f g : Grid α β F) (h : α → β → Asserted (Path F)) : Asserted Unit :=
  Enumerated.elements.forM fun a => Enumerated.elements.forM fun b =>
    assertBetween (h a b) (f.apply a b) (g.apply a b)

/-- Uncurried functions are compared by the same assertions in the same order. -/
theorem assertPointwise_uncurry {f g : Grid α β F} {f' g' : Table (α × β) F}
    (hf : ∀ a b, f'.apply (a, b) = f.apply a b) (hg : ∀ a b, g'.apply (a, b) = g.apply a b)
    (h : α → β → Asserted (Path F)) :
    assertPointwise f' g' (fun z => h z.1 z.2) = assertPointwise₂ f g h := by
  rw [assertPointwise, assertPointwise₂]
  refine (forM_pairs _ _ _).trans ?_
  simp only [hf, hg]

variable [LawfulEnumerated α]

/-- The loop goes through exactly if the functions agree and all paths are reflexivities. -/
theorem assertPointwise_eq_ok {f g : Table α F} {h : α → Asserted (Path F)} {u : Unit} :
    assertPointwise f g h = .ok u ↔
      ∀ a, ∃ x, f.apply a = .ok x ∧ g.apply a = .ok x ∧ h a = .ok (.refl x) := by
  simp only [assertPointwise, forM_eq_ok, assertBetween_eq_ok]
  constructor
  · intro hall a
    exact hall a (LawfulEnumerated.mem_elements a)
  · intro hall a _
    exact hall a

variable [LawfulEnumerated β]

theorem assertPointwise₂_eq_ok {f g : Grid α β F} {h : α → β → Asserted (Path F)} {u : Unit} :
    assertPointwise₂ f g h = .ok u ↔
      ∀ a b, ∃ x, f.apply a b = .ok x ∧ g.apply a b = .ok x ∧ h a b = .ok (.refl x) := by
  simp only [assertPointwise₂, forM_eq_ok, assertBetween_eq_ok]
  constructor
  · intro hall a b
    exact hall a (LawfulEnumerated.mem_elements a) b (LawfulEnumerated.mem_elements b)
  · intro hall a _ b _
    exact hall a b

end Path

/-! ## The functions are the same -/

variable [Enumerated α] [LawfulEnumerated α] [Enumerated β] [LawfulEnumerated β]

/-- Functions whose comparison goes through are equal. -/
theorem Table.WellFormed.eq_of_assertPointwise [Family α F] {f g : Table α F}
    (hf : f.WellFormed) (hg : g.WellFormed) {h : α → Asserted (Path F)}
    (hloop : Path.assertPointwise f g h = .ok ()) : f = g := by
  refine hf.ext hg fun a => ?_
  obtain ⟨x, hfx, hgx, -⟩ := Path.assertPointwise_eq_ok.mp hloop a
  rw [hfx, hgx]

theorem Grid.WellFormed.eq_of_assertPointwise₂ [Family (α × β) F] {f g : Grid α β F}
    (hf : f.WellFormed) (hg : g.WellFormed) {h : α → β → Asserted (Path F)}
    (hloop : Path.assertPointwise₂ f g h = .ok ()) : f = g := by
  refine hf.ext hg fun a b => ?_
  obtain ⟨x, hfx, hgx, -⟩ := Path.assertPointwise₂_eq_ok.mp hloop a b
  rw [hfx, hgx]

variable [DecidableEq α] [DecidableEq β] [Display α] [Display β]

section

variable [Family α F] {f g : Table α F} {h : α → Asserted (Path F)}

theorem Table.WellFormed.ofPointwise_eq_ok (hf : f.WellFormed) (hg : g.WellFormed)
    {p : Path (Table α F)} :
    Path.ofPointwise f g h = .ok p ↔ Path.assertPointwise f g h = .ok () ∧ p = .refl f :=
  Path.assertSame_after_eq_ok (hf.eq_of_assertPointwise hg)

/-- All breaches are breaches of the loop. -/
theorem Table.WellFormed.ofPointwise_eq_error (hf : f.WellFormed) (hg : g.WellFormed)
    {breach : Breach} :
    Path.ofPointwise f g h = .error breach ↔ Path.assertPointwise f g h = .error breach :=
  Path.assertSame_after_eq_error (hf.eq_of_assertPointwise hg)

end

section

variable [Family (α × β) F] {f g : Grid α β F} {h : α → β → Asserted (Path F)}

theorem Grid.WellFormed.ofPointwise₂_eq_ok (hf : f.WellFormed) (hg : g.WellFormed)
    {p : Path (Grid α β F)} :
    Path.ofPointwise₂ f g h = .ok p ↔ Path.assertPointwise₂ f g h = .ok () ∧ p = .refl f :=
  Path.assertSame_after_eq_ok (hf.eq_of_assertPointwise₂ hg)

theorem Grid.WellFormed.ofPointwise₂_eq_error (hf : f.WellFormed) (hg : g.WellFormed)
    {breach : Breach} :
    Path.ofPointwise₂ f g h = .error breach ↔ Path.assertPointwise₂ f g h = .error breach :=
  Path.assertSame_after_eq_error (hf.eq_of_assertPointwise₂ hg)

end

/-- **Function extensionality is sound.** A path between two well-formed functions is made from
paths between their values exactly if the functions agree at all arguments and the given paths
are the reflexivities there. It then runs from the one function to the other; once the loop over
the arguments has gone through, the assertion that the functions are the same cannot fail. For
functions of two arguments the same path is made, up to uncurrying, as for the functions on
pairs, and otherwise the same assertion breaks. -/
theorem Path.ofPointwise_sound :
    (∀ [Family α F] {f g : Table α F}, f.WellFormed → g.WellFormed →
      ∀ h : α → Asserted (Path F),
        ((∃ p, ofPointwise f g h = .ok p) ↔
          ∀ a, ∃ x, f.apply a = .ok x ∧ g.apply a = .ok x ∧ h a = .ok (.refl x)) ∧
        (∀ p, ofPointwise f g h = .ok p → p.check f g = .ok ()) ∧
        ofPointwise f g h = (do
          assertPointwise f g h
          assertSame f g
          return refl f) ∧
        (assertPointwise f g h = .ok () → assertSame f g = .ok ())) ∧
    (∀ [Family (α × β) F] {f g : Grid α β F}, f.WellFormed → g.WellFormed →
      ∀ h : α → β → Asserted (Path F), ∃ f' g' : Table (α × β) F,
        f.uncurry = .ok f' ∧ g.uncurry = .ok g' ∧
        (∀ r : Grid α β F, r.WellFormed → ∃ r', r.uncurry = .ok r' ∧
          (ofPointwise₂ f g h = .ok (.refl r) ↔
            ofPointwise f' g' (fun z => h z.1 z.2) = .ok (.refl r'))) ∧
        ∀ breach, ofPointwise₂ f g h = .error breach ↔
          ofPointwise f' g' (fun z => h z.1 z.2) = .error breach) := by
  constructor
  · intro _ f g hf hg h
    refine ⟨?_, fun p hp => ?_, rfl, fun hloop => ?_⟩
    · simp only [hf.ofPointwise_eq_ok hg, exists_and_left, exists_eq, and_true,
        assertPointwise_eq_ok]
    · obtain ⟨hloop, rfl⟩ := (hf.ofPointwise_eq_ok hg).mp hp
      exact check_eq_ok.mpr ⟨rfl, hf.eq_of_assertPointwise hg hloop⟩
    · exact assertSame_eq_ok.mpr (hf.eq_of_assertPointwise hg hloop)
  · intro _ f g hf hg h
    obtain ⟨f', hff', hf', happly⟩ := hf.exists_uncurry_eq_ok
    obtain ⟨g', hgg', hg', happly'⟩ := hg.exists_uncurry_eq_ok
    -- one loop, so the same breach or none; then both paths are at the first function
    have hloops := assertPointwise_uncurry happly happly' h
    refine ⟨f', g', hff', hgg', fun r hr => ?_, fun breach => ?_⟩
    · obtain ⟨r', hrr', -⟩ := hr.exists_uncurry_eq_ok
      have hends : r = f ↔ r' = f' := by
        constructor
        · rintro rfl
          exact Except.ok.inj (hrr'.symm.trans hff')
        · rintro rfl
          exact hr.eq_of_uncurry_eq_ok hf hrr' hff'
      refine ⟨r', hrr', ?_⟩
      rw [hf.ofPointwise₂_eq_ok hg, hf'.ofPointwise_eq_ok hg', hloops, refl.injEq, refl.injEq,
        hends]
    · rw [hf.ofPointwise₂_eq_error hg, hf'.ofPointwise_eq_error hg', hloops]

/-- The grid of a constant function. -/
def Grid.constant (v : Bool) : Grid Unit Bool (Fiber (Unit × Bool) Bool) :=
  ⟨[[⟨((), false), v⟩, ⟨((), true), v⟩]]⟩

/-- The reflexivities of a constant function give a path to itself, and comparing it with another
one breaks the same assertion before and after uncurrying. -/
theorem Path.ofPointwise_sound_constant :
    (∀ v, (Grid.constant v).WellFormed) ∧
    ∃ (f' g' : Table (Unit × Bool) (Fiber (Unit × Bool) Bool)) (breach : Breach),
      (Grid.constant true).uncurry = .ok f' ∧ (Grid.constant false).uncurry = .ok g' ∧
      (∃ p, ofPointwise f' f' (fun z => .ok (.refl ⟨z, true⟩)) = .ok p) ∧
      ofPointwise₂ (Grid.constant true) (Grid.constant false)
        (fun a b => .ok (.refl ⟨(a, b), true⟩)) = .error breach ∧
      ofPointwise f' g' (fun z => .ok (.refl ⟨z, true⟩)) = .error breach := by
  have hwf (v : Bool) : (Grid.constant v).WellFormed := .cons (.cons rfl (.cons rfl .nil)) .nil
  obtain ⟨f', g', hff', hgg', -, hbreach⟩ := ofPointwise_sound.2 (hwf true) (hwf false)
    fun a b => .ok (.refl ⟨(a, b), true⟩)
  obtain ⟨t, huncurry, ht, happly⟩ := (hwf true).exists_uncurry_eq_ok
  cases hff'.symm.trans huncurry
  refine ⟨hwf, f', g', _, hff', hgg', ?_, rfl, (hbreach _).mp rfl⟩
  refine ((ofPointwise_sound (β := Unit)).1 ht ht _).1.mpr ?_
  rintro ⟨a, b⟩
  have hvalue : (Grid.constant true).apply a b = .ok ⟨(a, b), true⟩ := by
    cases b <;> rfl
  exact ⟨⟨(a, b), true⟩, (happly a b).trans hvalue, (happly a b).trans hvalue, rfl⟩

end PathAlgebra
