import PathAlgebra.Proofs.Path.Laws
import PathAlgebra.Proofs.Sequencing

set_option autoImplicit false

/-! # Transport in products of families

A value of a product of families is a pair, and it has an index if both components have one and
these are the same (`Family.index_prod_eq_ok`). Transport in the product asserts this first and then
compares the index with the start of the path; transporting the components compares each of them
with the start of the path. So different assertions may break, but they break on the same values
(`Path.transport_componentwise`).

Nothing is assumed of the two families: their values may have no index, which is a breach of its
own, and they may be products again.
-/

namespace PathAlgebra

variable {ι P Q : Type} [DecidableEq ι] [Display ι] [Family ι P] [Family ι Q]

/-- A pair lies over an index exactly if both components do. -/
theorem Family.index_prod_eq_ok {z : P × Q} {i : ι} :
    index z = .ok i ↔ index z.1 = .ok i ∧ index z.2 = .ok i := by
  show (do
    let left ← index z.1
    let right ← index z.2
    assertSame left right
    return left : Asserted ι) = .ok i ↔ _
  simp only [bind_eq_ok, assertSame_eq_ok, pure, Except.pure, Except.ok.injEq]
  constructor
  · rintro ⟨_, hleft, _, hright, _, rfl, rfl⟩
    exact ⟨hleft, hright⟩
  · rintro ⟨hleft, hright⟩
    exact ⟨i, hleft, i, hright, (), rfl, rfl⟩

namespace Path

/-! ## Where transport goes through -/

/-- Transport goes through exactly where the value lies over the start of the path, and it does not
change the value. -/
theorem transport_eq_ok {p : Path ι} {u u' : P} :
    p.transport u = .ok u' ↔ Family.index u = .ok p.source ∧ u' = u := by
  simp only [transport, bind_eq_ok, assertSame_eq_ok, pure, Except.pure, Except.ok.injEq]
  constructor
  · rintro ⟨_, hu, _, rfl, rfl⟩
    exact ⟨hu, rfl⟩
  · rintro ⟨hu, rfl⟩
    exact ⟨p.source, hu, (), rfl, rfl⟩

theorem exists_transport_eq_ok {p : Path ι} {u : P} :
    (∃ u', p.transport u = .ok u') ↔ Family.index u = .ok p.source := by
  simp only [transport_eq_ok, exists_eq_right]

theorem exists_transport_prod_eq_ok {p : Path ι} {z : P × Q} :
    (∃ w, p.transport z = .ok w) ↔
      (∃ u, p.transport z.1 = .ok u) ∧ ∃ v, p.transport z.2 = .ok v := by
  simp only [exists_transport_eq_ok, Family.index_prod_eq_ok]

/-! ## Transport of the components -/

/-- Carries the components of a pair along a path, one after the other. -/
def transportComponents (p : Path ι) (z : P × Q) : Asserted (P × Q) := do
  let u ← p.transport z.1
  let v ← p.transport z.2
  return (u, v)

theorem transportComponents_eq_ok {p : Path ι} {z w : P × Q} :
    p.transportComponents z = .ok w ↔ p.transport z = .ok w := by
  simp only [transportComponents, bind_eq_ok, transport_eq_ok, Family.index_prod_eq_ok, pure,
    Except.pure, Except.ok.injEq]
  constructor
  · rintro ⟨_, ⟨hu, rfl⟩, _, ⟨hv, rfl⟩, rfl⟩
    exact ⟨⟨hu, hv⟩, rfl⟩
  · rintro ⟨⟨hu, hv⟩, rfl⟩
    exact ⟨w.1, ⟨hu, rfl⟩, w.2, ⟨hv, rfl⟩, rfl⟩

/-- The law of transport carries the components along the path and stays at their pair, so an
assertion that breaks on the way breaks in the law as well. -/
theorem transportPair_eq (p : Path ι) (z : P × Q) :
    p.transportPair z = refl <$> p.transportComponents z := by
  simp only [transportPair, transportComponents, transport, map_eq_pure_bind, bind_assoc, pure_bind]

theorem transportPair_eq_ok {p : Path ι} {z : P × Q} {r : Path (P × Q)} :
    p.transportPair z = .ok r ↔ ∃ w, p.transport z = .ok w ∧ r = refl w := by
  simp only [transportPair_eq, map_eq_pure_bind, bind_eq_ok, transportComponents_eq_ok, pure,
    Except.pure, Except.ok.injEq, @eq_comm _ r]

theorem transportPair_eq_error {p : Path ι} {z : P × Q} {breach : Breach} :
    p.transportPair z = .error breach ↔ p.transportComponents z = .error breach := by
  simp only [transportPair_eq, map_eq_pure_bind, bind_eq_error, pure, Except.pure, reduceCtorEq,
    and_false, exists_false, or_false]

/-! ## Transport is componentwise -/

/-- **Transport in a product is componentwise, also in where it is defined.** It goes through
exactly if both components can be transported, and exactly if the law of transport does. All of
them then give the pair itself, and the law is a path from the transported pair to the pair of
the transported components. Otherwise each of them breaks an assertion; the law breaks the one
that breaks in transporting the components. -/
theorem transport_componentwise [DecidableEq P] [Display P] [DecidableEq Q] [Display Q]
    (p : Path ι) (u : P) (v : Q) :
    ((∃ w, p.transport (u, v) = .ok w) ↔
      (∃ u', p.transport u = .ok u') ∧ ∃ v', p.transport v = .ok v') ∧
    ((∃ w, p.transport (u, v) = .ok w) ↔ ∃ r, p.transportPair (u, v) = .ok r) ∧
    ((∃ w, p.transport (u, v) = .ok w) →
      p.transport (u, v) = .ok (u, v) ∧ p.transportComponents (u, v) = .ok (u, v) ∧
        Joins (p.transportPair (u, v)) (p.transport (u, v)) (p.transportComponents (u, v))) ∧
    ((¬ ∃ w, p.transport (u, v) = .ok w) →
      ∃ whole parts, p.transport (u, v) = .error whole ∧
        p.transportComponents (u, v) = .error parts ∧ p.transportPair (u, v) = .error parts) := by
  refine ⟨exists_transport_prod_eq_ok, ?law, ?sides, ?breach⟩
  case law =>
    simp only [transportPair_eq_ok]
    exact ⟨fun ⟨w, hw⟩ => ⟨refl w, w, hw, rfl⟩, fun ⟨_, w, hw, _⟩ => ⟨w, hw⟩⟩
  case sides =>
    rintro ⟨w, hw⟩
    obtain rfl : w = (u, v) := (transport_eq_ok.mp hw).2
    have hparts := transportComponents_eq_ok.mpr hw
    exact ⟨hw, hparts, joins_iff.mpr ⟨_, transportPair_eq_ok.mpr ⟨_, hw, rfl⟩, hw, hparts⟩⟩
  case breach =>
    intro h
    obtain ⟨whole, hwhole⟩ := exists_eq_error_iff.mpr h
    obtain ⟨parts, hparts⟩ : ∃ parts, p.transportComponents (u, v) = .error parts := by
      simp only [exists_eq_error_iff, transportComponents_eq_ok]
      exact h
    exact ⟨whole, parts, hwhole, hparts, transportPair_eq_error.mpr hparts⟩

/-- The first component is a pair itself. Where its index is neither that of the second component
nor the start of the path, the product compares the components with each other and the law compares
the first one with the path. -/
theorem transport_componentwise_nested :
    let left : Fiber (Fin 3) Unit × Fiber (Fin 3) Bool := (⟨1, ()⟩, ⟨1, true⟩)
    (refl 1).transport (left, Fiber.mk (1 : Fin 3) false) = .ok (left, ⟨1, false⟩) ∧
    (refl 0).transport (left, Fiber.mk (2 : Fin 3) false) =
      .error (.mismatch (display (1 : Fin 3)) (display (2 : Fin 3))) ∧
    (refl 0).transportPair (left, Fiber.mk (2 : Fin 3) false) =
      .error (.mismatch (display (1 : Fin 3)) (display (0 : Fin 3))) := by
  intro left
  obtain ⟨hparts, -, hsides, -⟩ :=
    transport_componentwise (refl 1) left (Fiber.mk (1 : Fin 3) false)
  exact ⟨(hsides (hparts.mpr ⟨⟨_, rfl⟩, ⟨_, rfl⟩⟩)).1, rfl, rfl⟩

end Path

end PathAlgebra
