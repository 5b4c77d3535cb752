import PathAlgebra.Proofs.Equiv.Lawful

set_option autoImplicit false

/-! # Paths between two pairs

Fix two pairs `z` and `z'`. The paths from `z` to `z'` and the pairs of paths between their
components are in bijection (`Path.ofComponents_bijection`): `ofComponents` goes one way and breaks
an assertion exactly where a component has other ends, and `unpair` goes back. All of this rests on
one statement about `ofComponents`, which says when it gives a path and which one
(`Path.ofComponents_eq_ok`), and on the ends of a path being those of its components.
-/

namespace PathAlgebra.Path

variable {α β : Type}

/-! ## Components -/

theorem unpair_injective {r r' : Path (α × β)} (h : r.unpair = r'.unpair) : r = r' := by
  cases r with
  | refl z =>
      cases r' with
      | refl z' =>
          obtain ⟨hx, hy⟩ := Prod.ext_iff.mp h
          exact congrArg refl (Prod.ext (refl.inj hx) (refl.inj hy))

theorem unpair_refl (z : α × β) : (refl z).unpair = (refl z.1, refl z.2) := rfl

/-- The path that pairing gives has the two paths as its components. -/
theorem unpair_sources (p : Path α) (q : Path β) :
    (refl (p.source, q.source)).unpair = (p, q) := by
  rw [unpair_refl, refl_source, refl_source]

section

variable [DecidableEq α] [Display α]

/-- Asserting the ends of a path goes through exactly where checking them does. -/
theorem assertEnds_eq_ok {p : Path α} {left right : α} :
    p.assertEnds left right = .ok () ↔ p.check left right = .ok () := by
  rw [assertEnds, bind_eq_ok, check_eq_ok]
  constructor
  · rintro ⟨_, hleft, hright⟩
    exact ⟨assertSame_eq_ok.mp hleft, assertSame_eq_ok.mp hright⟩
  · rintro ⟨hleft, hright⟩
    exact ⟨(), assertSame_eq_ok.mpr hleft, assertSame_eq_ok.mpr hright⟩

/-- Two values are joined by a path exactly if the reflexivity at the first runs between them. -/
theorem exists_between_eq_ok {x y : α} : (∃ p, between x y = .ok p) ↔ x = y := by
  constructor
  · rintro ⟨p, hp⟩
    exact (between_eq_ok.mp hp).1
  · intro h
    exact ⟨refl x, between_eq_ok.mpr ⟨h, rfl⟩⟩

end

variable [DecidableEq α] [Display α] [DecidableEq β] [Display β]

/-! ## Paths with given ends -/

/-- The components of a path between two pairs run between the components of these. -/
theorem check_unpair {r : Path (α × β)} {z z' : α × β} :
    r.check z z' = .ok () ↔
      r.unpair.1.check z.1 z'.1 = .ok () ∧ r.unpair.2.check z.2 z'.2 = .ok () := by
  cases r with
  | refl w =>
      simp only [unpair_refl, check_eq_ok, source, target, Prod.ext_iff]
      exact and_and_and_comm

/-- A path between two pairs is built exactly from components that run between theirs, and it is
the path with these components. -/
theorem ofComponents_eq_ok {z z' : α × β} {p : Path α} {q : Path β} {r : Path (α × β)} :
    ofComponents z z' p q = .ok r ↔
      p.check z.1 z'.1 = .ok () ∧ q.check z.2 z'.2 = .ok () ∧ r.unpair = (p, q) := by
  rw [ofComponents, bind_eq_ok]
  constructor
  · rintro ⟨_, hp, h⟩
    obtain ⟨_, hq, hr⟩ := bind_eq_ok.mp h
    cases hr
    exact ⟨assertEnds_eq_ok.mp hp, assertEnds_eq_ok.mp hq, unpair_sources p q⟩
  · rintro ⟨hp, hq, hr⟩
    obtain rfl : r = refl (p.source, q.source) :=
      unpair_injective (hr.trans (unpair_sources p q).symm)
    exact ⟨(), assertEnds_eq_ok.mpr hp, bind_eq_ok.mpr ⟨(), assertEnds_eq_ok.mpr hq, rfl⟩⟩

/-- Components that run between those of `z` and `z'` are paired at their sources. -/
theorem ofComponents_of_check {z z' : α × β} {p : Path α} {q : Path β}
    (hp : p.check z.1 z'.1 = .ok ()) (hq : q.check z.2 z'.2 = .ok ()) :
    ofComponents z z' p q = .ok (refl (p.source, q.source)) :=
  ofComponents_eq_ok.mpr ⟨hp, hq, unpair_sources p q⟩

/-- A path is built exactly where both components have the ends that it needs. -/
theorem exists_ofComponents_eq_ok {z z' : α × β} {p : Path α} {q : Path β} :
    (∃ r, ofComponents z z' p q = .ok r) ↔
      p.check z.1 z'.1 = .ok () ∧ q.check z.2 z'.2 = .ok () := by
  constructor
  · rintro ⟨r, hr⟩
    obtain ⟨hp, hq, -⟩ := ofComponents_eq_ok.mp hr
    exact ⟨hp, hq⟩
  · rintro ⟨hp, hq⟩
    exact ⟨_, ofComponents_of_check hp hq⟩

/-- What is built from components has the ends that were asked for. -/
theorem check_of_ofComponents_eq_ok {z z' : α × β} {p : Path α} {q : Path β} {r : Path (α × β)}
    (h : ofComponents z z' p q = .ok r) : r.check z z' = .ok () := by
  obtain ⟨hp, hq, hr⟩ := ofComponents_eq_ok.mp h
  rw [check_unpair, hr]
  exact ⟨hp, hq⟩

/-- A path is built again from its components. -/
theorem ofComponents_unpair {z z' : α × β} {r : Path (α × β)} (h : r.check z z' = .ok ()) :
    ofComponents z z' r.unpair.1 r.unpair.2 = .ok r := by
  obtain ⟨hp, hq⟩ := check_unpair.mp h
  exact ofComponents_eq_ok.mpr ⟨hp, hq, rfl⟩

theorem ofComponents_refl_refl (z : α × β) :
    ofComponents z z (refl z.1) (refl z.2) = .ok (refl z) :=
  ofComponents_unpair (check_refl_self z)

/-- Components that run between those of `z` and `z'` are paired as they are between `z` and
`z'`. -/
theorem pair_eq_ofComponents {z z' : α × β} {p : Path α} {q : Path β}
    (hp : p.check z.1 z'.1 = .ok ()) (hq : q.check z.2 z'.2 = .ok ()) :
    p.pair q = ofComponents z z' p q := by
  rw [pair_eq_ok, ofComponents_of_check hp hq]

/-! ## The bijection -/

/-- Two pairs are joined by a path exactly if their components are. -/
theorem exists_between_pair {z z' : α × β} :
    (∃ r, between z z' = .ok r) ↔
      (∃ p, between z.1 z'.1 = .ok p) ∧ ∃ q, between z.2 z'.2 = .ok q := by
  rw [exists_between_eq_ok, exists_between_eq_ok, exists_between_eq_ok, Prod.ext_iff]

/-- Two paths run from the components of `z` to those of `z'`. -/
def RunsBetween (z z' : α × β) (pq : Path α × Path β) : Prop :=
  pq.1.check z.1 z'.1 = .ok () ∧ pq.2.check z.2 z'.2 = .ok ()

/-- **Paths between two pairs are pairs of paths between their components.** Building a path from
components goes through exactly if these run between the components of the two pairs, and then the
path runs between the pairs. Building and taking apart are inverse to each other between these
component paths and the paths from `z` to `z'`. The equivalence of pairs of paths and paths of
pairs does the same, and checking it goes through on all lists. So two pairs are joined by a path
exactly if their components are. -/
theorem ofComponents_bijection (z z' : α × β) :
    (∀ p q, (∃ r, ofComponents z z' p q = .ok r) ↔
      p.check z.1 z'.1 = .ok () ∧ q.check z.2 z'.2 = .ok ()) ∧
    (∀ p q r, ofComponents z z' p q = .ok r → r.check z z' = .ok ()) ∧
    (∀ pq, RunsBetween z z' pq →
      ∃ r, ofComponentPair z z' pq = .ok r ∧ r.check z z' = .ok () ∧ r.unpair = pq) ∧
    (∀ r : Path (α × β), r.check z z' = .ok () →
      RunsBetween z z' r.unpair ∧ ofComponentPair z z' r.unpair = .ok r) ∧
    (∀ pq, RunsBetween z z' pq → AdjointEquiv.paths.toFun pq = ofComponentPair z z' pq) ∧
    (∀ r : Path (α × β), AdjointEquiv.paths.inv r = .ok r.unpair) ∧
    (∀ (pqs : List (Path α × Path β)) (rs : List (Path (α × β))),
      AdjointEquiv.paths.check pqs rs = .ok ()) ∧
    ((∃ r, between z z' = .ok r) ↔
      (∃ p, between z.1 z'.1 = .ok p) ∧ ∃ q, between z.2 z'.2 = .ok q) := by
  refine ⟨fun p q => exists_ofComponents_eq_ok, fun p q r => check_of_ofComponents_eq_ok, ?_, ?_,
    ?_, fun r => rfl, fun pqs rs => ?_, exists_between_pair⟩
  · rintro ⟨p, q⟩ ⟨hp, hq⟩
    have hr := ofComponents_of_check hp hq
    exact ⟨_, hr, check_of_ofComponents_eq_ok hr, unpair_sources p q⟩
  · intro r hr
    exact ⟨check_unpair.mp hr, ofComponents_unpair hr⟩
  · rintro ⟨p, q⟩ ⟨hp, hq⟩
    exact pair_eq_ofComponents hp hq
  · have hlawful := AdjointEquiv.LawfulOn.paths (fun _ : α => True) (fun _ : β => True)
    exact hlawful.check_eq_ok (fun _ _ => ⟨trivial, trivial⟩) fun _ _ => ⟨trivial, trivial⟩

end PathAlgebra.Path
