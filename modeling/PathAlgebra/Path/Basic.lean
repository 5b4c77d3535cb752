import PathAlgebra.Display
import PathAlgebra.Outcome

set_option autoImplicit false

/-! # Paths

A path `p : x = y` is a value of `Path α`, whose only constructor is reflexivity, so the two ends
of a path are one value. Higher structure is obtained by nesting: `Path (Path α)` holds the paths
between paths.

The ends are not part of the type. `Path.between` and `Path.check` take untrusted ends and may be
refused; `Path.concat` and `Path.assertEnds` rely on ends that have to agree and break an
assertion if they do not.
-/

namespace PathAlgebra

variable {α β : Type}

/-- Asserts that two values coincide. -/
def assertSame [DecidableEq α] [Display α] (x y : α) : Asserted Unit :=
  if x = y then .ok () else .error (.mismatch (display x) (display y))

/-- Paths between the values of a type. -/
inductive Path (α : Type) where
  /-- The path that stays at a value. -/
  | refl (x : α)
  deriving DecidableEq

namespace Path

instance [Display α] : Display (Path α) :=
  ⟨fun | refl x => "Refl(" ++ display x ++ ")", "Path<" ++ typeName α ++ ">"⟩

/-- The value at which a path starts. -/
def source : Path α → α
  | refl x => x

/-- The value at which a path ends. -/
def target : Path α → α
  | refl x => x

/-- The path from `x` to `y`, which exists only if both are the same value. -/
def between [DecidableEq α] [Display α] (x y : α) : Fallible (Path α) :=
  if x = y then .ok (refl x) else refuse (.noPath (display x) (display y))

/-- Checks the judgement `p : left = right`. -/
def check [DecidableEq α] [Display α] (p : Path α) (left right : α) : Fallible Unit :=
  if p.source = left ∧ p.target = right then .ok ()
  else refuse (.wrongEnds (display p) (display left) (display right))

/-- Asserts the judgement `p : left = right`, the start first. -/
def assertEnds [DecidableEq α] [Display α] (p : Path α) (left right : α) : Asserted Unit := do
  assertSame p.source left
  assertSame p.target right

/-- The path that runs through `p` and then through `q`, which has to start where `p` ends. -/
def concat [DecidableEq α] [Display α] : Path α → Path α → Asserted (Path α)
  | refl x, refl y => do
      assertSame x y
      return refl x

/-- The path run through backwards. -/
def inverse : Path α → Path α
  | refl x => refl x

/-- Applies a function to a path: from `p : x = y` to `f x = f y`. -/
def map (f : α → β) : Path α → Path β
  | refl x => refl (f x)

/-- Applies a function that may break an assertion to a path. -/
def mapM (f : α → Asserted β) : Path α → Asserted (Path β)
  | refl x => return refl (← f x)

/-! ## The only path is reflexivity -/

theorem target_eq_source (p : Path α) : p.target = p.source := by
  cases p; rfl

theorem refl_source (p : Path α) : refl p.source = p := by
  cases p; rfl

@[simp] theorem inverse_eq (p : Path α) : p.inverse = p := by
  cases p; rfl

@[simp] theorem source_map (f : α → β) (p : Path α) : (p.map f).source = f p.source := by
  cases p; rfl

theorem mapM_eq_ok_map (f : α → β) (p : Path α) :
    p.mapM (fun x => .ok (f x)) = .ok (p.map f) := by
  cases p; rfl

end Path

theorem assertSame_eq_ok [DecidableEq α] [Display α] {x y : α} {u : Unit} :
    assertSame x y = .ok u ↔ x = y := by
  unfold assertSame
  split <;> simp_all

theorem assertSame_eq_error [DecidableEq α] [Display α] {x y : α} {breach : Breach} :
    assertSame x y = .error breach ↔ x ≠ y ∧ breach = .mismatch (display x) (display y) := by
  unfold assertSame
  split <;> simp_all [eq_comm]

@[simp] theorem assertSame_self [DecidableEq α] [Display α] (x : α) :
    assertSame x x = .ok () := by
  simp [assertSame]

theorem Path.between_eq_ok [DecidableEq α] [Display α] {x y : α} {p : Path α} :
    Path.between x y = .ok p ↔ x = y ∧ p = .refl x := by
  unfold Path.between refuse
  split <;> simp_all [eq_comm]

theorem Path.check_eq_ok [DecidableEq α] [Display α] {p : Path α} {left right : α} {u : Unit} :
    p.check left right = .ok u ↔ p.source = left ∧ p.target = right := by
  unfold Path.check refuse
  split <;> simp_all

theorem Path.concat_eq_ok [DecidableEq α] [Display α] {p q r : Path α} :
    p.concat q = .ok r ↔ p = q ∧ r = p := by
  cases p with
  | refl x =>
    cases q with
    | refl y =>
      by_cases h : x = y
      · subst h
        simp [Path.concat, bind, Except.bind, pure, Except.pure, eq_comm]
      · simp [Path.concat, assertSame, h, bind, Except.bind]

end PathAlgebra
