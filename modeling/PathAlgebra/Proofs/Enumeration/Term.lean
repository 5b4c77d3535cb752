import PathAlgebra.Proofs.Enumeration

set_option autoImplicit false

/-! # Expressions for carriers

The carriers of the library are built from the empty type, the unit, the truth values and the
initial segments by optional values, pairs, paths and constant families. An expression names
such a carrier, built to any depth; its values and their enumeration are found by recursion, as
type inference finds them.

Every one of them is lawfully enumerated (`CarrierTerm.enumeration`), with as many values as
the expression says. Empty and singleton parts need no care: the row of a pair is found from its
number by the length of a row, and where the rows are empty there is no pair.
-/

namespace PathAlgebra

open Enumerated (elements position cardinality)

/-- Expressions for finite carriers. -/
inductive CarrierTerm where
  /-- The empty type. -/
  | empty
  /-- The unit. -/
  | unit
  /-- The truth values. -/
  | bool
  /-- The numbers below a bound. -/
  | fin (bound : Nat)
  /-- The values of a carrier, or none. -/
  | option (t : CarrierTerm)
  /-- Pairs. -/
  | prod (s t : CarrierTerm)
  /-- Paths. -/
  | path (t : CarrierTerm)
  /-- The total space of the family over the first carrier whose fibers are all the second. -/
  | fiber (s t : CarrierTerm)

namespace CarrierTerm

/-- The type of the values. -/
def Value : CarrierTerm → Type
  | empty => Empty
  | unit => Unit
  | bool => Bool
  | fin bound => Fin bound
  | option t => Option t.Value
  | prod s t => s.Value × t.Value
  | path t => Path t.Value
  | fiber s t => Fiber s.Value t.Value

/-- The number of values that a carrier should have. -/
def size : CarrierTerm → Nat
  | empty => 0
  | unit => 1
  | bool => 2
  | fin bound => bound
  | option t => t.size + 1
  | prod s t => s.size * t.size
  | path t => t.size
  | fiber s t => s.size * t.size

/-- The enumeration of the values. -/
instance enumerated : (t : CarrierTerm) → Enumerated t.Value
  | empty => inferInstanceAs (Enumerated Empty)
  | unit => inferInstanceAs (Enumerated Unit)
  | bool => inferInstanceAs (Enumerated Bool)
  | fin bound => inferInstanceAs (Enumerated (Fin bound))
  | option t =>
      have := t.enumerated
      inferInstanceAs (Enumerated (Option t.Value))
  | prod s t =>
      have := s.enumerated
      have := t.enumerated
      inferInstanceAs (Enumerated (s.Value × t.Value))
  | path t =>
      have := t.enumerated
      inferInstanceAs (Enumerated (Path t.Value))
  | fiber s t =>
      have := s.enumerated
      have := t.enumerated
      inferInstanceAs (Enumerated (Fiber s.Value t.Value))

instance lawful (t : CarrierTerm) : LawfulEnumerated t.Value := by
  induction t with
  | empty => exact inferInstanceAs (LawfulEnumerated Empty)
  | unit => exact inferInstanceAs (LawfulEnumerated Unit)
  | bool => exact inferInstanceAs (LawfulEnumerated Bool)
  | fin bound => exact inferInstanceAs (LawfulEnumerated (Fin bound))
  | option t ih => exact inferInstanceAs (LawfulEnumerated (Option t.Value))
  | prod s t ihs iht => exact inferInstanceAs (LawfulEnumerated (s.Value × t.Value))
  | path t ih => exact inferInstanceAs (LawfulEnumerated (Path t.Value))
  | fiber s t ihs iht => exact inferInstanceAs (LawfulEnumerated (Fiber s.Value t.Value))

theorem cardinality_eq_size (t : CarrierTerm) : cardinality t.Value = t.size := by
  induction t with
  | empty | unit | bool => rfl
  | fin bound => exact Enumerated.cardinality_fin bound
  | option t ih =>
      rw [size, ← ih]
      exact Enumerated.cardinality_option
  | prod s t ihs iht =>
      rw [size, ← ihs, ← iht]
      exact Enumerated.cardinality_prod
  | path t ih =>
      rw [size, ← ih]
      exact Enumerated.cardinality_path
  | fiber s t ihs iht =>
      rw [size, ← ihs, ← iht]
      exact Enumerated.cardinality_fiber

/-- **Every carrier is lawfully enumerated.** Its listing has every value exactly once. The
number of a value is less than the number of all values, and the value is listed there; the
value at a position has that position as its number. The number of all values is the expected
one. -/
theorem enumeration (t : CarrierTerm) :
    (elements : List t.Value).Nodup ∧
    (∀ x : t.Value, x ∈ (elements : List t.Value)) ∧
    (∀ x : t.Value, position x < cardinality t.Value ∧
      (elements : List t.Value)[position x]? = some x) ∧
    (∀ i, i < cardinality t.Value →
      ∃ x : t.Value, (elements : List t.Value)[i]? = some x ∧ position x = i) ∧
    cardinality t.Value = t.size := by
  refine ⟨LawfulEnumerated.nodup_elements, LawfulEnumerated.mem_elements, fun x => ?_,
    fun i hi => ?_, cardinality_eq_size t⟩
  · exact ⟨LawfulEnumerated.position_lt x, LawfulEnumerated.getElem?_position x⟩
  · have hx := List.getElem?_eq_getElem hi
    exact ⟨_, hx, LawfulEnumerated.position_eq hx⟩

end CarrierTerm

end PathAlgebra
