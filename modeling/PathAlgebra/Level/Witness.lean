import PathAlgebra.Level.Contraction

set_option autoImplicit false

/-! # Truncation levels

A space of cells has level 0 if it is contractible, and level `n + 1` if all its path spaces have
level `n`: propositions have level 1 and sets level 2. A witness is either a contraction or a
function that gives a witness for every path space. It does not carry a level; the level is given
when it is verified, and a contraction is accepted at every level.

Verification is exhaustive. At a positive level it asks for the witness of each path space, row
by row, and verifies that one level down.
-/

namespace PathAlgebra

variable {α β : Type}

/-- A witness that a space of cells has some level. -/
inductive LevelWitness (α : Type) where
  /-- The space is contractible. -/
  | contr (contraction : Contraction α)
  /-- For every two cells, a witness for the space of paths between them, one level down. -/
  | paths (witness : Cell α → Cell α → Except Failure (LevelWitness α))

namespace LevelWitness

variable [DecidableEq α] [Display α] [DecidableEq β] [Display β]

/-- The witness that claims `center` to be the only cell. -/
def contractible (center : Cell α) : LevelWitness α := contr (.singleton center)

/-- The witness that claims any two cells to be equal. -/
def allEqual : LevelWitness α := paths fun x y => do
  return contractible (← Cell.between x y)

/-- The witness that claims all path spaces to be propositions. -/
def allPathsEqual : LevelWitness α := paths fun _ _ => .ok allEqual

/-- The witness of a proposition at a level, which is 1 or above. -/
def propositionAt (α : Type) [DecidableEq α] [Display α] (level : Nat) : Fallible (LevelWitness α) :=
  if level < 1 then refuse (.propositionLevel level) else .ok allEqual

/-- The witness of a set at a level, which is 2 or above. -/
def setAt (α : Type) [DecidableEq α] [Display α] (level : Nat) : Fallible (LevelWitness α) :=
  if level < 2 then refuse (.setLevel level) else .ok allPathsEqual

/-- The contraction that a witness is, if it is one. -/
def contraction? : LevelWitness α → Option (Contraction α)
  | contr c => some c
  | paths _ => none

/-- The witness for the space of paths from `x` to `y`. The path space of a contractible space is
contractible; its center runs from `x` back to the center and from there to `y`. -/
def pathSpace (w : LevelWitness α) (x y : Cell α) : Outcome (LevelWitness α) :=
  match w with
  | contr c => do
      let back ← (← c.contract x).inverse
      let center ← back.concat (← c.contract y)
      return contractible center
  | paths witness => witness x y

/-- Checks that a witness shows a space to have level `n`. -/
def verify : Nat → LevelWitness α → List (Cell α) → Outcome Unit
  | 0, contr c, space => c.verify space
  | 0, paths _, _ => refuse .noContraction
  | n + 1, w, space =>
      space.forM fun x => space.forM fun y =>
        Outcome.within (.pathsBetween (display x) (display y)) do
          verify n (← w.pathSpace x y) (Cell.paths x y)

/-- Combines witnesses for level `n` of two types to one of the pair type. -/
def prod : Nat → LevelWitness α → LevelWitness β → Fallible (LevelWitness (α × β))
  | 0, contr c, contr d => return contr (← c.prod d)
  | 0, _, _ => refuse .noContractions
  | n + 1, w, v => .ok (paths fun z z' => do
      let w' ← w.pathSpace z.unpair.1 z'.unpair.1
      let v' ← v.pathSpace z.unpair.2 z'.unpair.2
      prod n w' v')

/-- Carries a witness for level `n` along an equivalence. -/
def transfer : Nat → AdjointEquiv α β → LevelWitness α → Outcome (LevelWitness β)
  | 0, e, contr c => return contr (← c.transfer e)
  | 0, _, paths _ => refuse .noContraction
  | n + 1, e, w => .ok (paths fun y y' => do
      let w' ← w.pathSpace (← y.mapM e.inv) (← y'.mapM e.inv)
      transfer n e w')

/-! ## One level up

Each of these operations looks at the witness itself only at level 0; above, it goes through the
path spaces. -/

theorem verify_succ (n : Nat) (w : LevelWitness α) (space : List (Cell α)) :
    w.verify (n + 1) space =
      space.forM fun x => space.forM fun y =>
        Outcome.within (.pathsBetween (display x) (display y))
          (w.pathSpace x y >>= fun w' => w'.verify n (Cell.paths x y)) := by
  cases w <;> rfl

theorem prod_succ (n : Nat) (w : LevelWitness α) (v : LevelWitness β) :
    prod (n + 1) w v = .ok (paths fun z z' => do
      let w' ← w.pathSpace z.unpair.1 z'.unpair.1
      let v' ← v.pathSpace z.unpair.2 z'.unpair.2
      prod n w' v') := by
  cases w <;> cases v <;> rfl

theorem transfer_succ (n : Nat) (e : AdjointEquiv α β) (w : LevelWitness α) :
    transfer (n + 1) e w = .ok (paths fun y y' => do
      let w' ← w.pathSpace (← y.mapM e.inv) (← y'.mapM e.inv)
      transfer n e w') := by
  cases w <;> rfl

end LevelWitness

end PathAlgebra
