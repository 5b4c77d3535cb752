import PathAlgebra.Family

set_option autoImplicit false

/-! # Finite carriers

A finite carrier lists its values in a fixed order and numbers them. Listing and numbering are
computed separately: pairs are listed row by row, with the first component as the row, and
numbered by the row times the length of a row plus the column. An optional value comes after
`none`, and paths are listed by their points.
-/

namespace PathAlgebra

variable {ι α β P : Type}

/-- A type whose values can be listed. -/
class Enumerated (α : Type) where
  /-- All values, in a fixed order. -/
  elements : List α
  /-- The number of a value in that order, counted from 0. -/
  position : α → Nat

namespace Enumerated

/-- The number of values. -/
def cardinality (α : Type) [Enumerated α] : Nat := (elements : List α).length

instance : Enumerated Empty := ⟨[], nofun⟩

instance : Enumerated Unit := ⟨[()], fun _ => 0⟩

instance : Enumerated Bool := ⟨[false, true], Bool.toNat⟩

instance {n : Nat} : Enumerated (Fin n) := ⟨List.finRange n, Fin.val⟩

/-- The number of an optional value. -/
def positionOption [Enumerated α] : Option α → Nat
  | none => 0
  | some a => 1 + position a

instance [Enumerated α] : Enumerated (Option α) :=
  ⟨none :: elements.map some, positionOption⟩

instance [Enumerated α] [Enumerated β] : Enumerated (α × β) :=
  ⟨elements.flatMap fun a => elements.map fun b => (a, b),
    fun z => position z.1 * cardinality β + position z.2⟩

/-- All paths, whatever their ends. -/
instance [Enumerated α] : Enumerated (Path α) :=
  ⟨elements.map .refl, fun p => position p.source⟩

instance [Enumerated ι] [Enumerated α] : Enumerated (Fiber ι α) :=
  ⟨(elements : List (ι × α)).map fun z => ⟨z.1, z.2⟩,
    fun u => position u.index * cardinality α + position u.value⟩

end Enumerated

/-- The number `value` as an element of the initial segment below `bound`. -/
def segmentElement (bound value : Nat) : Fallible (Fin bound) :=
  if h : value < bound then .ok ⟨value, h⟩ else refuse (.outOfRange value bound)

namespace Family

/-- The values of a list that lie over `i`, in order. The index of every value is taken, from the
first to the last. -/
def select [DecidableEq ι] [Family ι P] (i : ι) : List P → Asserted (List P)
  | [] => return []
  | u :: us => do
      let j ← index u
      let rest ← select i us
      return if j = i then u :: rest else rest

/-- All elements of the fiber over `i`. -/
def fiberElements (P : Type) [DecidableEq ι] [Family ι P] [Enumerated P] (i : ι) :
    Asserted (List P) :=
  select i Enumerated.elements

end Family

end PathAlgebra
