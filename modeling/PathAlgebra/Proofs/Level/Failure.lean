import Mathlib.Data.List.ProdSigma
import Mathlib.Logic.Function.Iterate
import PathAlgebra.Level.Witness
import PathAlgebra.Proofs.Sequencing

set_option autoImplicit false

/-! # How a verification fails

Above level 0 a verification goes through the path spaces row by row, and it stops at the first one
that is not verified. Going down into a path space changes the witness, the level and the space, and
each step puts what is reported into one more context.

A path space has at most one cell. So below the first step there is one way to go, from a path to
itself, and only where the two ends of the first step are equal: the path space of different cells
is empty, and an empty space is refused at level 0 alone. `FailsAt` follows a failure down that way
to the computation that fails, and collects the contexts.
-/

namespace PathAlgebra

/-- Puts the report of a failure into contexts, outermost first. A breach keeps its wording. -/
def Failure.inside (contexts : List Context) : Failure → Failure
  | .refused report => .refused { report with contexts := contexts ++ report.contexts }
  | .broken breach => .broken breach

theorem Failure.inside_cons (context : Context) (contexts : List Context) (failure : Failure) :
    failure.inside (context :: contexts) = (failure.inside contexts).inside [context] := by
  cases failure <;> rfl

theorem Outcome.within_eq_error {α : Type} {context : Context} {x : Outcome α}
    {failure : Failure} :
    within context x = .error failure ↔
      ∃ inner, x = .error inner ∧ failure = inner.inside [context] := by
  match x with
  | .ok _ => simp [within]
  | .error (.refused _) => simp [within, Failure.inside, Report.within, eq_comm]
  | .error (.broken _) => simp [within, Failure.inside, eq_comm]

namespace LevelWitness

variable {α : Type} [DecidableEq α] [Display α]

/-! ## One path space -/

/-- The context in which the path space from `x` to `y` is verified. -/
def pathsContext (x y : Cell α) : Context := .pathsBetween (display x) (display y)

/-- Asks for the witness of the path space from `x` to `y` and verifies that it has level `n`. -/
def verifyPaths (n : Nat) (w : LevelWitness α) (x y : Cell α) : Outcome Unit := do
  let w' ← w.pathSpace x y
  w'.verify n (Cell.paths x y)

theorem verify_succ_eq (n : Nat) (w : LevelWitness α) (space : List (Cell α)) :
    w.verify (n + 1) space = (space ×ˢ space).forM fun z =>
      Outcome.within (pathsContext z.1 z.2) (w.verifyPaths n z.1 z.2) := by
  rw [verify_succ]
  exact (forM_pairs space space fun z =>
    Outcome.within (pathsContext z.1 z.2) (w.verifyPaths n z.1 z.2)).symm

/-- Different cells have no path between them, and above level 0 nothing is verified then. -/
theorem verify_paths_of_ne {n : Nat} {w : LevelWitness α} {x y : Cell α} (h : x ≠ y) :
    w.verify (n + 1) (Cell.paths x y) = .ok () := by
  rw [Cell.paths, if_neg h, verify_succ]
  rfl

/-- A cell has one path to itself, whose path space to itself is what is verified. -/
theorem verify_paths_self (n : Nat) (w : LevelWitness α) (x : Cell α) :
    w.verify (n + 1) (Cell.paths x x) =
      Outcome.within (pathsContext x.refl x.refl) (w.verifyPaths n x.refl x.refl) := by
  rw [Cell.paths, if_pos rfl, verify_succ_eq]
  exact bind_pure _

/-! ## Where a failure comes from -/

/-- The path space from `x` to `y` does not show that `w` is a witness of level `n`: inside of some
contexts, outermost first, a computation ends with a failure. -/
inductive FailsAt : Nat → LevelWitness α → Cell α → Cell α → List Context → Failure → Prop
  /-- There is no witness for the path space. -/
  | pathSpace {n : Nat} {w : LevelWitness α} {x y : Cell α} {inner : Failure}
      (h : w.pathSpace x y = .error inner) : FailsAt (n + 1) w x y [pathsContext x y] inner
  /-- The witness for the path space is not verified at level 0. -/
  | bottom {w w' : LevelWitness α} {x y : Cell α} {inner : Failure}
      (hw : w.pathSpace x y = .ok w') (h : w'.verify 0 (Cell.paths x y) = .error inner) :
      FailsAt 1 w x y [pathsContext x y] inner
  /-- The witness for the path space of a cell with itself is not verified at a path space of its
  one path. -/
  | deeper {n : Nat} {w w' : LevelWitness α} {x : Cell α} {contexts : List Context}
      {inner : Failure} (hw : w.pathSpace x x = .ok w')
      (h : FailsAt n w' x.refl x.refl contexts inner) :
      FailsAt (n + 1) w x x (pathsContext x x :: contexts) inner

theorem verifyPaths_eq_error {n : Nat} {w : LevelWitness α} {x y : Cell α} {failure : Failure} :
    w.verifyPaths n x y = .error failure ↔ w.pathSpace x y = .error failure ∨
      ∃ w', w.pathSpace x y = .ok w' ∧ w'.verify n (Cell.paths x y) = .error failure :=
  bind_eq_error

/-- A path space is not verified exactly if a failure can be followed down from it. -/
theorem within_verifyPaths_eq_error {n : Nat} {w : LevelWitness α} {x y : Cell α}
    {failure : Failure} :
    Outcome.within (pathsContext x y) (w.verifyPaths n x y) = .error failure ↔
      ∃ contexts inner, FailsAt (n + 1) w x y contexts inner ∧ failure = inner.inside contexts := by
  induction n generalizing w x y failure with
  | zero =>
      simp only [Outcome.within_eq_error, verifyPaths_eq_error]
      constructor
      · rintro ⟨inner, hw | ⟨w', hw, h⟩, rfl⟩
        · exact ⟨_, inner, .pathSpace hw, rfl⟩
        · exact ⟨_, inner, .bottom hw h, rfl⟩
      · rintro ⟨_, inner, h, rfl⟩
        cases h with
        | pathSpace hw => exact ⟨inner, Or.inl hw, rfl⟩
        | bottom hw h => exact ⟨inner, Or.inr ⟨_, hw, h⟩, rfl⟩
        | deeper _ h => cases h
  | succ n ih =>
      simp only [Outcome.within_eq_error (x := verifyPaths _ _ _ _), verifyPaths_eq_error]
      constructor
      · rintro ⟨failure, hw | ⟨w', hw, h⟩, rfl⟩
        · exact ⟨_, failure, .pathSpace hw, rfl⟩
        · -- something was verified in the path space, so it has a cell
          obtain rfl : x = y := by
            by_contra hne
            rw [verify_paths_of_ne hne] at h
            cases h
          rw [verify_paths_self] at h
          obtain ⟨contexts, inner, hbelow, rfl⟩ := ih.mp h
          exact ⟨_, inner, .deeper hw hbelow, (Failure.inside_cons _ _ _).symm⟩
      · rintro ⟨_, inner, h, rfl⟩
        cases h with
        | pathSpace hw => exact ⟨inner, Or.inl hw, rfl⟩
        | deeper hw h =>
            refine ⟨_, Or.inr ⟨_, hw, ?_⟩, Failure.inside_cons _ _ _⟩
            rw [verify_paths_self]
            exact ih.mpr ⟨_, inner, h, rfl⟩

/-! ## The contexts of a failure -/

namespace FailsAt

variable {n : Nat} {w : LevelWitness α} {x y : Cell α} {contexts : List Context} {inner : Failure}

theorem length_pos (h : FailsAt n w x y contexts inner) : 1 ≤ contexts.length := by
  cases h with
  | pathSpace _ | bottom _ _ => exact Nat.le_refl 1
  | deeper _ _ => exact Nat.succ_pos _

/-- Every step down takes one level. -/
theorem length_le (h : FailsAt n w x y contexts inner) : contexts.length ≤ n := by
  induction h with
  | pathSpace _ => exact Nat.succ_pos _
  | bottom _ _ => exact Nat.le_refl 1
  | deeper _ _ ih => exact Nat.succ_le_succ ih

/-- The contexts name the ends of the path space, then these under one reflexivity, under two, and
so on. -/
theorem getElem?_contexts (h : FailsAt n w x y contexts inner) {j : Nat}
    (hj : j < contexts.length) :
    contexts[j]? = some (pathsContext (Cell.refl^[j] x) (Cell.refl^[j] y)) := by
  induction h generalizing j with
  | pathSpace _ | bottom _ _ =>
      rw [List.length_singleton, Nat.lt_one_iff] at hj
      subst hj
      rfl
  | deeper _ _ ih =>
      cases j with
      | zero => rfl
      | succ j => exact ih (Nat.lt_of_succ_lt_succ hj)

theorem eq_of_one_lt_length (h : FailsAt n w x y contexts inner) (hlength : 1 < contexts.length) :
    x = y := by
  cases h with
  | pathSpace _ | bottom _ _ => exact absurd hlength (Nat.lt_irrefl 1)
  | deeper _ _ => rfl

/-- Between different cells only asking for the witness can fail, except at the last level. -/
theorem pathSpace_of_ne (h : FailsAt n w x y contexts inner) (hne : x ≠ y) :
    w.pathSpace x y = .error inner ∨ n = 1 := by
  cases h with
  | pathSpace hw => exact Or.inl hw
  | bottom _ _ => exact Or.inr rfl
  | deeper _ _ => exact absurd rfl hne

end FailsAt

/-! ## The failure of a verification -/

/-- A verification fails as the first path space does that is not verified. -/
theorem verify_succ_eq_error {n : Nat} {w : LevelWitness α} {space : List (Cell α)}
    {failure : Failure} :
    w.verify (n + 1) space = .error failure ↔
      ∃ before x y after, space ×ˢ space = before ++ (x, y) :: after ∧
        (∀ z ∈ before, w.verifyPaths n z.1 z.2 = .ok ()) ∧
        ∃ contexts inner, FailsAt (n + 1) w x y contexts inner ∧
          failure = inner.inside contexts := by
  simp only [verify_succ_eq, forM_eq_error, FirstFailure, within_verifyPaths_eq_error,
    Outcome.within_eq_ok, exists_eq_ok_unit, Prod.exists]

/-- **How a verification fails above level 0.** What is reported comes from the first two cells, row
by row, whose path space is not verified: for all before them it is. The contexts that the
verification puts around the failure are between one and as many as there are levels. The first
names the two cells, and each further one the path of a cell to itself one dimension up. There is a
second one only if the two cells are equal; if they are different, then either their path space has
no witness, or there is one level alone. -/
theorem verify_failure_shape {n : Nat} {w : LevelWitness α} {space : List (Cell α)}
    {failure : Failure} (hn : 1 ≤ n) (h : w.verify n space = .error failure) :
    ∃ before x y after, space ×ˢ space = before ++ (x, y) :: after ∧
      (∀ z ∈ before, w.verifyPaths (n - 1) z.1 z.2 = .ok ()) ∧
      (∃ reported, w.verifyPaths (n - 1) x y = .error reported ∧
        failure = reported.inside [pathsContext x y]) ∧
      ∃ contexts inner, FailsAt n w x y contexts inner ∧ failure = inner.inside contexts ∧
        1 ≤ contexts.length ∧ contexts.length ≤ n ∧
        contexts[0]? = some (pathsContext x y) ∧
        (∀ j, 2 ≤ j → j ≤ contexts.length → contexts[j - 1]? =
          some (pathsContext (Cell.refl^[j - 1] x) (Cell.refl^[j - 1] x))) ∧
        (1 < contexts.length → x = y) ∧
        (x ≠ y → w.pathSpace x y = .error inner ∨ n = 1) := by
  obtain ⟨n, rfl⟩ := Nat.exists_eq_add_of_le' hn
  obtain ⟨before, x, y, after, hspace, hbefore, contexts, inner, hfails, hfailure⟩ :=
    verify_succ_eq_error.mp h
  have hreported := within_verifyPaths_eq_error.mpr ⟨contexts, inner, hfails, hfailure⟩
  refine ⟨before, x, y, after, hspace, hbefore, Outcome.within_eq_error.mp hreported, contexts,
    inner, hfails, hfailure, hfails.length_pos, hfails.length_le,
    hfails.getElem?_contexts hfails.length_pos, fun j hj hle => ?_, hfails.eq_of_one_lt_length,
    hfails.pathSpace_of_ne⟩
  have hxy : x = y := hfails.eq_of_one_lt_length (by omega)
  rw [hfails.getElem?_contexts (by omega), hxy]

/-- The witness of a set is one level too high for the path spaces of a set: the failure is found
two steps down, in the path spaces of the first cell. -/
theorem verify_failure_shape_two_levels :
    let w : LevelWitness Bool := paths fun _ _ => .ok allPathsEqual
    let x : Cell Bool := .point true
    let failure := Failure.inside [pathsContext x x, pathsContext x.refl x.refl]
      (.refused (.ofCause .noContraction))
    w.verify 2 [x, .point false] = .error failure ∧
    FailsAt 2 w x x [pathsContext x x, pathsContext x.refl x.refl]
      (.refused (.ofCause .noContraction)) ∧
    ∃ x' y' contexts inner, FailsAt 2 w x' y' contexts inner ∧ failure = inner.inside contexts ∧
      contexts.length ≤ 2 ∧ (1 < contexts.length → x' = y') := by
  intro w x failure
  have h : w.verify 2 [x, .point false] = .error failure := rfl
  obtain ⟨-, x', y', -, -, -, -, contexts, inner, hfails, hfailure, -, hlength, -, -, heq, -⟩ :=
    verify_failure_shape (by decide) h
  exact ⟨h, .deeper rfl (.bottom rfl rfl), x', y', contexts, inner, hfails, hfailure, hlength, heq⟩

end LevelWitness

end PathAlgebra
