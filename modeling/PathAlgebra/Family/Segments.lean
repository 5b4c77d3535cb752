import PathAlgebra.Carrier

set_option autoImplicit false

/-! # Families of initial segments

Two families whose fibers differ in size. In `Upto n`, the fiber over `i` holds the numbers up to
`i`; in `Bounded n`, so does the fiber over `(i, b)`, for either truth value `b`. A value of the
total space may lie above its bound; only those within it are listed as elements, and the closed
formulas for their numbers hold for these.
-/

namespace PathAlgebra

/-- The numbers below `n` that are at most `bound`, in order. -/
def segment {n : Nat} (bound : Fin n) : List (Fin n) := (List.finRange n).filter (· ≤ bound)

/-- The family over `Fin n` whose fiber over `i` holds the numbers up to `i`. -/
structure Upto (n : Nat) where
  /-- The index of the fiber. -/
  index : Fin n
  /-- The number. -/
  value : Fin n
  deriving DecidableEq

namespace Upto

variable {n : Nat}

instance : Display (Upto n) :=
  ⟨fun u => "Upto \x7b index: " ++ display u.index ++ ", value: " ++ display u.value ++ " \x7d",
    "Upto<" ++ toString n ++ ">"⟩

instance : Family (Fin n) (Upto n) := ⟨fun u => .ok u.index⟩

/-- The fibers before the one over `i` hold `i * (i + 1) / 2` numbers. -/
instance : Enumerated (Upto n) where
  elements := Enumerated.elements.flatMap fun i => (segment i).map fun v => ⟨i, v⟩
  position u := u.index.val * (u.index.val + 1) / 2 + u.value.val

end Upto

/-- The family over `Fin n × Bool` whose fiber over `(i, b)` holds the numbers up to `i`. -/
structure Bounded (n : Nat) where
  /-- The index of the fiber. -/
  index : Fin n × Bool
  /-- The number. -/
  value : Fin n
  deriving DecidableEq

namespace Bounded

variable {n : Nat}

instance : Display (Bounded n) :=
  ⟨fun u => "Bounded \x7b index: " ++ display u.index ++ ", value: " ++ display u.value ++ " \x7d",
    "Bounded<" ++ toString n ++ ">"⟩

instance : Family (Fin n × Bool) (Bounded n) := ⟨fun u => .ok u.index⟩

/-- Two fibers of each size come before those over `i`, and one more before the second of
these. -/
instance : Enumerated (Bounded n) where
  elements := Enumerated.elements.flatMap fun i => (segment i.1).map fun v => ⟨i, v⟩
  position u :=
    (u.index.1.val + Enumerated.position u.index.2) * (u.index.1.val + 1) + u.value.val

end Bounded

end PathAlgebra
