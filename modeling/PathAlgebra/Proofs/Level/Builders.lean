import PathAlgebra.Proofs.Level.Acceptance

set_option autoImplicit false

/-! # The levels of the witnesses that are built

Three witnesses are built from nothing but a cell or a level: that of a single cell, that of a
proposition and that of a set. The level is given once when a witness is built and again when it
is verified, and the two need not agree. Building looks only at whether the level is high enough
and keeps nothing of it, so what is accepted depends on the second level alone.

The path spaces of a set get the witness of a proposition, and those of a proposition get the
witness of a single cell. So the levels at which a witness is accepted are those at which it is on
the path spaces, moved up by one. The empty space has no path spaces; on it a witness for these is
accepted from level 1 on, whatever it would answer.
-/

namespace PathAlgebra.LevelWitness

variable {α : Type} [DecidableEq α] [Display α]

/-! ## Building -/

/-- The witness of a proposition is built for every level from 1 on, and it does not depend on the
level. -/
theorem propositionAt_eq_ok {k : Nat} {w : LevelWitness α} :
    propositionAt α k = .ok w ↔ 1 ≤ k ∧ w = allEqual := by
  unfold propositionAt
  by_cases hk : k < 1
  · have hnot : ¬ 1 ≤ k := by omega
    simp [hk, hnot, refuse]
  · have hle : 1 ≤ k := by omega
    simp [hk, hle, eq_comm]

/-- The witness of a set is built for every level from 2 on, and it does not depend on the
level. -/
theorem setAt_eq_ok {k : Nat} {w : LevelWitness α} :
    setAt α k = .ok w ↔ 2 ≤ k ∧ w = allPathsEqual := by
  unfold setAt
  by_cases hk : k < 2
  · have hnot : ¬ 2 ≤ k := by omega
    simp [hk, hnot, refuse]
  · have hle : 2 ≤ k := by omega
    simp [hk, hle, eq_comm]

/-! ## Verifying -/

/-- A witness that gives witnesses for path spaces is no contraction, so it is refused at level
0. -/
theorem verify_zero_paths (f : Cell α → Cell α → Outcome (LevelWitness α))
    (space : List (Cell α)) : (paths f).verify 0 space ≠ .ok () := by
  intro h
  obtain ⟨c, hc, -⟩ := verify_zero_eq_ok.mp h
  cases hc

theorem verify_allEqual_iff {m : Nat} {space : List (Cell α)} :
    (allEqual : LevelWitness α).verify m space = .ok () ↔ 1 ≤ m ∧ Cell.IsSubsingleton space := by
  cases m with
  | zero =>
      constructor
      · intro h
        exact absurd h (verify_zero_paths _ space)
      · rintro ⟨hm, -⟩
        omega
  | succ m =>
      rw [verify_allEqual_eq_ok]
      have hm : 1 ≤ m + 1 := by omega
      exact (and_iff_right hm).symm

/-- The witness of a set is verified one level up where that of a proposition is for each path
space. A path space has at most one cell, so it is the level alone that counts; but where there are
no cells, there are no path spaces either. -/
theorem verify_succ_allPathsEqual {m : Nat} {space : List (Cell α)} :
    (allPathsEqual : LevelWitness α).verify (m + 1) space = .ok () ↔
      ∀ x ∈ space, ∀ y ∈ space, 1 ≤ m := by
  rw [verify_succ_eq_ok]
  constructor
  · intro h x hx y hy
    obtain ⟨w, hw, hv⟩ := h x hx y hy
    -- the witness of the path space is that of a proposition
    cases hw
    exact (verify_allEqual_iff.mp hv).1
  · intro h x hx y hy
    have hm : 1 ≤ m := h x hx y hy
    exact ⟨allEqual, rfl, verify_allEqual_iff.mpr ⟨hm, Cell.isSubsingleton_paths x y⟩⟩

theorem verify_allPathsEqual_iff {m : Nat} {space : List (Cell α)} :
    (allPathsEqual : LevelWitness α).verify m space = .ok () ↔
      2 ≤ m ∨ (m = 1 ∧ space = []) := by
  cases m with
  | zero =>
      constructor
      · intro h
        exact absurd h (verify_zero_paths _ space)
      · intro h
        omega
  | succ m =>
      rw [verify_succ_allPathsEqual]
      constructor
      · intro h
        cases space with
        | nil =>
            by_cases hm : 1 ≤ m
            · exact Or.inl (by omega)
            · exact Or.inr ⟨by omega, rfl⟩
        | cons x space =>
            have hm : 1 ≤ m := h x List.mem_cons_self x List.mem_cons_self
            exact Or.inl (by omega)
      · rintro (hm | ⟨-, rfl⟩)
        · intro _ _ _ _
          omega
        · intro x hx
          exact absurd hx List.not_mem_nil

/-! ## The two levels -/

/-- **Where the witnesses that are built are accepted.** The witness of a single cell is accepted at
every level where all cells are that one, at level 0 only if there is one. The witness of a
proposition is built for level 1 and above, and it is accepted at every level but 0 where all cells
are equal; that of a set is built for level 2 and above, and it is accepted from level 2 on
everywhere, at level 1 on the empty space alone, and at level 0 nowhere. The level for which a
witness was built makes no difference, and for lower levels none is built. -/
theorem acceptance_of_builders (α : Type) [DecidableEq α] [Display α] :
    (∀ (c : Cell α) (m : Nat) (space : List (Cell α)),
      (contractible c).verify m space = .ok () ↔ (∀ x ∈ space, x = c) ∧ (1 ≤ m ∨ space ≠ [])) ∧
    (∀ k, 1 ≤ k → ∃ w, propositionAt α k = .ok w ∧ ∀ (m : Nat) (space : List (Cell α)),
      w.verify m space = .ok () ↔ 1 ≤ m ∧ ∀ x ∈ space, ∀ y ∈ space, x = y) ∧
    (∀ k, 2 ≤ k → ∃ w, setAt α k = .ok w ∧ ∀ (m : Nat) (space : List (Cell α)),
      w.verify m space = .ok () ↔ 2 ≤ m ∨ (m = 1 ∧ space = [])) ∧
    propositionAt α 0 = refuse (.propositionLevel 0) ∧
    setAt α 0 = refuse (.setLevel 0) ∧
    setAt α 1 = refuse (.setLevel 1) := by
  refine ⟨fun c m space => ?_, fun k hk => ?_, fun k hk => ?_, rfl, rfl, rfl⟩
  · rw [verify_contractible_eq_ok]
    constructor
    · rintro ⟨hall, hne⟩
      refine ⟨hall, ?_⟩
      by_cases hm : m = 0
      · exact Or.inr (hne hm)
      · exact Or.inl (by omega)
    · rintro ⟨hall, hm | hne⟩
      · exact ⟨hall, fun h0 => by omega⟩
      · exact ⟨hall, fun _ => hne⟩
  · exact ⟨allEqual, propositionAt_eq_ok.mpr ⟨hk, rfl⟩, fun m space => verify_allEqual_iff⟩
  · exact ⟨allPathsEqual, setAt_eq_ok.mpr ⟨hk, rfl⟩, fun m space => verify_allPathsEqual_iff⟩

/-- The witness of a set that was built for level 3 is accepted on the booleans at level 2 already,
and at level 1 only where they have been taken away; that of a proposition is not accepted on the
booleans at the level for which it was built. -/
theorem acceptance_of_builders_bool :
    ∃ w v : LevelWitness Bool, setAt Bool 3 = .ok w ∧ propositionAt Bool 5 = .ok v ∧
      w.verify 2 [.point true, .point false] = .ok () ∧
      w.verify 1 [.point true, .point false] ≠ .ok () ∧ w.verify 1 [] = .ok () ∧
      v.verify 5 [.point true, .point false] ≠ .ok () ∧
      v.verify 1 [.point true, .point true] = .ok () := by
  obtain ⟨-, hproposition, hset, -⟩ := acceptance_of_builders Bool
  obtain ⟨w, hw, hset⟩ := hset 3 (by decide)
  obtain ⟨v, hv, hproposition⟩ := hproposition 5 (by decide)
  refine ⟨w, v, hw, hv, ?_, ?_, ?_, ?_, ?_⟩
  · exact (hset _ _).mpr (by decide)
  · exact fun h => absurd ((hset _ _).mp h) (by decide)
  · exact (hset _ _).mpr (by decide)
  · exact fun h => absurd ((hproposition _ _).mp h) (by decide)
  · exact (hproposition _ _).mpr (by decide)

end PathAlgebra.LevelWitness
