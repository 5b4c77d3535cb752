import PathAlgebra.Carrier

set_option autoImplicit false

/-! # Tables of dependent functions

A dependent function `(a : α) → F a` on a finite carrier is stored as the table of its values,
one for each element of the carrier and in the order of the elements. Tabulating an untrusted
function is refused at the first value that lies in the wrong fiber; `Table.build` is for
functions that are known to respect the fibers, and asserts it.

All tables are listed lexicographically, and numbered by their entries as the digits of a number
whose base changes from digit to digit.
-/

namespace PathAlgebra

variable {α F : Type}

/-- The values of a dependent function on `α` in the family `F`, in the order of the elements
of `α`. -/
structure Table (α F : Type) where
  /-- The values. -/
  values : List F
  deriving DecidableEq

namespace Table

/-- The text of a table shows its values, and of its arguments only the type. -/
instance [Display α] [Display F] : Display (Table α F) :=
  ⟨fun f => "Pi \x7b values: " ++ display f.values ++ ", phantom: PhantomData<" ++ typeName α ++
      "> \x7d",
    "Pi<" ++ typeName α ++ ", " ++ typeName F ++ ">"⟩

/-- The entry of a list at a position. -/
def entry (values : List F) (position : Nat) : Asserted F :=
  match values[position]? with
  | some u => .ok u
  | none => .error (.outOfBounds values.length position)

/-- The value at `a`. -/
def apply [Enumerated α] (f : Table α F) (a : α) : Asserted F :=
  entry f.values (Enumerated.position a)

variable [Enumerated α] [DecidableEq α] [Display α] [Family α F]

/-- The table of a function; refused at the first value that lies in the wrong fiber. -/
def tabulate [Display F] (f : α → Asserted F) : Outcome (Table α F) := do
  let values ← Enumerated.elements.mapM fun a => show Outcome F from do
    let u ← f a
    if (← Family.index u) = a then pure u
    else refuse (.wrongFiber (display u) (display a))
  return ⟨values⟩

/-- The table of a function that respects the fibers, which is asserted. -/
def build (f : α → Asserted F) : Asserted (Table α F) := do
  let values ← Enumerated.elements.mapM fun a => show Asserted F from do
    let u ← f a
    assertSame (← Family.index u) a
    return u
  return ⟨values⟩

/-! ## Listing and numbering -/

variable [Enumerated F] [DecidableEq F]

/-- All lists of values over the given indices, in lexicographic order. -/
def choices (F : Type) [Family α F] [Enumerated F] : List α → Asserted (List (List F))
  | [] => return [[]]
  | a :: as => do
      let fiber ← Family.fiberElements F a
      let rest ← choices F as
      return fiber.flatMap fun u => rest.map (u :: ·)

/-- All tables, in lexicographic order. -/
def elements (α F : Type) [Enumerated α] [DecidableEq α] [Family α F] [Enumerated F] :
    Asserted (List (Table α F)) := do
  return (← choices F Enumerated.elements).map fun values => ⟨values⟩

/-- One digit of the number of a table: the number so far, times the size of the fiber over `a`,
plus the number of `u` in that fiber. -/
def shift (number : Nat) (a : α) (u : F) : Asserted Nat := do
  let fiber ← Family.fiberElements F a
  return number * fiber.length + fiber.idxOf u

/-- The number of a table in the listing of all tables. -/
def position (f : Table α F) : Asserted Nat :=
  (Enumerated.elements.zip f.values).foldlM (fun number z => shift number z.1 z.2) 0

end Table

end PathAlgebra
