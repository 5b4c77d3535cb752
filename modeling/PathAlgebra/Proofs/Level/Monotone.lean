import PathAlgebra.Proofs.Level.Acceptance

set_option autoImplicit false

/-! # Levels are cumulative

A witness that is accepted at a level is accepted at every higher one. The same functions are
asked at another depth: a contraction at which the verification ended has to give witnesses for
path spaces one level up, and these are contractions whose verification ends there. One level is
enough, as the path spaces of a space are again spaces with witnesses; so the induction is over
all witnesses and spaces at once.

Above level 0 a witness is asked for nothing but path spaces, hence fewer cells ask for less. At
level 0 this fails: the center may be missing from the part, which may be empty.
-/

namespace PathAlgebra.LevelWitness

variable {α : Type} [DecidableEq α] [Display α]

/-- An accepted contraction is accepted one level up: all cells are its center, and the path that
stays there is the only cell of the path space. -/
theorem verify_one_of_verify_zero {w : LevelWitness α} {space : List (Cell α)}
    (h : w.verify 0 space = .ok ()) : w.verify 1 space = .ok () := by
  obtain ⟨c, rfl, hc⟩ := verify_zero_eq_ok.mp h
  obtain ⟨-, hall⟩ := Contraction.verify_eq_ok.mp hc
  refine verify_succ_eq_ok.mpr fun x hx y hy => ?_
  obtain ⟨hxc, hpx⟩ := hall x hx
  obtain ⟨hyc, hpy⟩ := hall y hy
  refine ⟨contractible (.refl c.center), pathSpace_contr_eq_ok.mpr ⟨_, hpx, hpy, rfl⟩, ?_⟩
  -- all cells are the center, so the path space is that from the center to itself
  rw [hxc, hyc, Cell.paths_self]
  exact verify_contractible_singleton 0 (.refl c.center)

/-- A witness that is accepted at a level is accepted at the next one. -/
theorem verify_succ_of_verify {n : Nat} {w : LevelWitness α} {space : List (Cell α)}
    (h : w.verify n space = .ok ()) : w.verify (n + 1) space = .ok () := by
  induction n generalizing w space with
  | zero => exact verify_one_of_verify_zero h
  | succ n ih =>
      refine verify_succ_eq_ok.mpr fun x hx y hy => ?_
      obtain ⟨w', hw', hv⟩ := verify_succ_eq_ok.mp h x hx y hy
      exact ⟨w', hw', ih hv⟩

theorem verify_of_le {n m : Nat} (hnm : n ≤ m) {w : LevelWitness α} {space : List (Cell α)}
    (h : w.verify n space = .ok ()) : w.verify m space = .ok () := by
  induction hnm with
  | refl => exact h
  | step _ ih => exact verify_succ_of_verify ih

/-- Above level 0 a witness is accepted on every part of a space on which it is accepted. -/
theorem verify_succ_of_subset {n : Nat} {w : LevelWitness α} {space part : List (Cell α)}
    (hpart : ∀ x ∈ part, x ∈ space) (h : w.verify (n + 1) space = .ok ()) :
    w.verify (n + 1) part = .ok () :=
  verify_succ_eq_ok.mpr fun x hx y hy =>
    verify_succ_eq_ok.mp h x (hpart x hx) y (hpart y hy)

/-- **Acceptance grows with the level and with fewer cells.** A witness of arbitrary functions
that is accepted on a space at level `n` is accepted there at every higher level and, if `n` is
not 0, on every list of cells of the space, in any order and with any repetition. -/
theorem verify_cumulative {n : Nat} {w : LevelWitness α} {space : List (Cell α)}
    (h : w.verify n space = .ok ()) :
    (∀ m, n ≤ m → w.verify m space = .ok ()) ∧
    (1 ≤ n → ∀ part : List (Cell α), (∀ x ∈ part, x ∈ space) → w.verify n part = .ok ()) := by
  refine ⟨fun m hnm => verify_of_le hnm h, fun hn part hpart => ?_⟩
  obtain ⟨k, rfl⟩ := Nat.exists_eq_add_of_le' hn
  exact verify_succ_of_subset hpart h

/-- A contraction to `true` that breaks an assertion at every other cell. -/
def toTrue : Contraction Bool where
  center := .point true
  contract x :=
    if x = .point true then .ok (.refl x) else .error (.broken (.remark "outside"))

/-- It is accepted at level 0, so at level 3, and at level 1 on a list with repetitions. -/
theorem verify_cumulative_toTrue :
    (contr toTrue).verify 0 [.point true] = .ok () ∧
    (contr toTrue).verify 3 [.point true] = .ok () ∧
    (contr toTrue).verify 1 [.point true, .point true] = .ok () := by
  have hzero : (contr toTrue).verify 0 [.point true] = .ok () := rfl
  have hlevels := (verify_cumulative hzero).1
  refine ⟨hzero, hlevels 3 (by decide), ?_⟩
  refine (verify_cumulative (hlevels 1 (by decide))).2 (Nat.le_refl 1) _ fun x hx => ?_
  simpa using hx

end PathAlgebra.LevelWitness
