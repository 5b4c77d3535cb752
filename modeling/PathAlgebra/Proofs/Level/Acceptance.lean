import Mathlib.Tactic.ByContra
import PathAlgebra.Level.Witness

set_option autoImplicit false

/-! # What an accepted verification means

A witness consists of arbitrary functions, so all that is known of it is what its verification
has seen. At level 0 that is a center and a path from it to every cell; above, it is a verified
witness for every path space, one level down (`verify_succ_eq_ok`). Only the path spaces on the
diagonal have cells, and a witness for an empty one is refused at level 0 alone.

From this: some witness is accepted at level 0 exactly where there is one cell up to repetition,
at level 1 exactly where there is at most one, and from level 2 on everywhere. A contraction is
accepted at no level unless all cells are equal: above level 0 its center is not looked at, and
it is the paths it gives along the diagonal that fix it (`contract_of_verify`).
-/

namespace PathAlgebra

variable {α : Type}

/-- Any two cells of a space are equal. -/
def Cell.IsSubsingleton (space : List (Cell α)) : Prop := ∀ x ∈ space, ∀ y ∈ space, x = y

theorem Cell.isSubsingleton_singleton (x : Cell α) : Cell.IsSubsingleton [x] := by
  intro y hy z hz
  rw [List.mem_singleton.mp hy, List.mem_singleton.mp hz]

variable [DecidableEq α]

theorem Cell.paths_self (x : Cell α) : Cell.paths x x = [.refl x] := by
  rw [Cell.paths, if_pos rfl]

theorem Cell.paths_of_ne {x y : Cell α} (h : x ≠ y) : Cell.paths x y = [] := by
  rw [Cell.paths, if_neg h]

/-- A path space has at most one cell. -/
theorem Cell.isSubsingleton_paths (x y : Cell α) : Cell.IsSubsingleton (Cell.paths x y) := by
  intro p hp q hq
  rw [(Cell.mem_paths.mp hp).2, (Cell.mem_paths.mp hq).2]

variable [Display α]

/-! ## The verification, level by level -/

theorem Contraction.verifyAt_eq_ok {c : Contraction α} {x : Cell α} :
    c.verifyAt x = .ok () ↔ x = c.center ∧ c.contract x = .ok (.refl c.center) := by
  unfold Contraction.verifyAt
  rw [bind_eq_ok]
  simp only [Outcome.within_eq_ok]
  constructor
  · rintro ⟨p, hp, h⟩
    split at h
    · next hb =>
        cases p with
        | point a => simp [Cell.boundary] at hb
        | refl d =>
            simp only [Cell.boundary, Option.some_inj, Prod.mk.injEq] at hb
            obtain ⟨rfl, rfl⟩ := hb
            exact ⟨rfl, hp⟩
    · cases h
  · rintro ⟨rfl, hx⟩
    exact ⟨_, hx, by rw [Cell.boundary, if_pos rfl]; rfl⟩

/-- A contraction is verified on a space if all cells are its center, and it gives the path that
stays there. -/
theorem Contraction.verify_eq_ok {c : Contraction α} {space : List (Cell α)} :
    c.verify space = .ok () ↔
      c.center ∈ space ∧ ∀ x ∈ space, x = c.center ∧ c.contract x = .ok (.refl c.center) := by
  unfold Contraction.verify
  split
  · next h => simp only [forM_eq_ok, Contraction.verifyAt_eq_ok, h, true_and]
  · next h => simp [h, refuse]

namespace LevelWitness

theorem verify_zero_eq_ok {w : LevelWitness α} {space : List (Cell α)} :
    w.verify 0 space = .ok () ↔ ∃ c, w = contr c ∧ c.verify space = .ok () := by
  cases w with
  | contr c => simp [verify]
  | paths f => simp [verify, refuse]

/-- One level up, a witness is verified if all its witnesses for path spaces are. -/
theorem verify_succ_eq_ok {n : Nat} {w : LevelWitness α} {space : List (Cell α)} :
    w.verify (n + 1) space = .ok () ↔
      ∀ x ∈ space, ∀ y ∈ space,
        ∃ w', w.pathSpace x y = .ok w' ∧ w'.verify n (Cell.paths x y) = .ok () := by
  simp only [verify_succ, forM_eq_ok, Outcome.within_eq_ok, bind_eq_ok]

/-- The empty space has no center. -/
theorem verify_zero_nil (w : LevelWitness α) : w.verify 0 [] ≠ .ok () := by
  intro h
  obtain ⟨c, -, hc⟩ := verify_zero_eq_ok.mp h
  exact absurd (Contraction.verify_eq_ok.mp hc).1 List.not_mem_nil

/-- A contraction has a witness for a path space if it gives the same path at both ends. -/
theorem pathSpace_contr_eq_ok {c : Contraction α} {x y : Cell α} {w : LevelWitness α} :
    (contr c).pathSpace x y = .ok w ↔
      ∃ d, c.contract x = .ok (.refl d) ∧ c.contract y = .ok (.refl d) ∧
        w = contractible (.refl d) := by
  simp only [pathSpace, bind_eq_ok, liftM_fallible_eq_ok, pure, Except.pure, Except.ok.injEq]
  constructor
  · rintro ⟨p, hp, back, hback, q, hq, center, hcenter, rfl⟩
    -- points have no inverse and cannot be concatenated
    cases p with
    | point a => simp [Cell.inverse, refuse] at hback
    | refl d =>
        cases hback
        cases q with
        | point a => simp [Cell.concat, Cell.boundary, refuse] at hcenter
        | refl d' =>
            rw [Cell.concat_refl_refl] at hcenter
            split at hcenter
            · next h =>
                cases hcenter
                exact ⟨d, hp, h ▸ hq, rfl⟩
            · cases hcenter
  · rintro ⟨d, hx, hy, rfl⟩
    refine ⟨_, hx, .refl d, rfl, _, hy, .refl d, ?_, rfl⟩
    rw [Cell.concat_refl_refl, if_pos rfl]

/-! ## The witnesses that are accepted -/

/-- The witness of a single cell is accepted where all cells are that one; only level 0 asks
whether there is one at all. -/
theorem verify_contractible_eq_ok {n : Nat} {c : Cell α} {space : List (Cell α)} :
    (contractible c).verify n space = .ok () ↔
      (∀ x ∈ space, x = c) ∧ (n = 0 → space ≠ []) := by
  induction n generalizing c space with
  | zero =>
      simp only [verify_zero_eq_ok, contractible, contr.injEq, exists_eq_left',
        Contraction.verify_eq_ok, Contraction.singleton, liftM_fallible_eq_ok, Cell.between_eq_ok]
      constructor
      · rintro ⟨hc, h⟩
        exact ⟨fun x hx => (h x hx).1, fun _ => List.ne_nil_of_mem hc⟩
      · rintro ⟨h, hne⟩
        obtain ⟨x, hx⟩ := List.exists_mem_of_ne_nil space (hne trivial)
        exact ⟨h x hx ▸ hx, fun y hy => ⟨h y hy, (h y hy).symm, trivial⟩⟩
  | succ n ih =>
      simp only [verify_succ_eq_ok, contractible, pathSpace_contr_eq_ok, Contraction.singleton,
        liftM_fallible_eq_ok, Cell.between_eq_ok]
      constructor
      · intro h
        -- the path space from `x` to itself asks for the path from `c` to `x`
        refine ⟨fun x hx => ?_, fun h0 => absurd h0 (Nat.succ_ne_zero n)⟩
        obtain ⟨w, ⟨d, ⟨hc, -⟩, -⟩, -⟩ := h x hx x hx
        exact hc.symm
      · rintro ⟨h, -⟩ x hx y hy
        rw [h x hx, h y hy]
        refine ⟨contractible (.refl c), ⟨c, ⟨rfl, rfl⟩, ⟨rfl, rfl⟩, rfl⟩, ?_⟩
        rw [Cell.paths_self]
        exact ih.mpr ⟨fun p hp => List.mem_singleton.mp hp, fun _ => List.cons_ne_nil _ _⟩

/-- The space of a single cell has every level. -/
theorem verify_contractible_singleton (n : Nat) (c : Cell α) :
    (contractible c).verify n [c] = .ok () :=
  verify_contractible_eq_ok.mpr
    ⟨fun _ hx => List.mem_singleton.mp hx, fun _ => List.cons_ne_nil c []⟩

/-- The witness of a proposition is accepted above level 0 where all cells are equal. -/
theorem verify_allEqual_eq_ok {n : Nat} {space : List (Cell α)} :
    (allEqual : LevelWitness α).verify (n + 1) space = .ok () ↔ Cell.IsSubsingleton space := by
  simp only [verify_succ_eq_ok, allEqual, pathSpace, bind_eq_ok, liftM_fallible_eq_ok,
    Cell.between_eq_ok, pure, Except.pure, Except.ok.injEq]
  constructor
  · intro h x hx y hy
    obtain ⟨w, ⟨p, ⟨hxy, -⟩, -⟩, -⟩ := h x hx y hy
    exact hxy
  · intro h x hx y hy
    obtain rfl := h x hx y hy
    refine ⟨_, ⟨.refl x, ⟨rfl, rfl⟩, rfl⟩, ?_⟩
    rw [Cell.paths_self]
    exact verify_contractible_singleton n (.refl x)

theorem verify_allEqual_singleton (n : Nat) (c : Cell α) :
    (allEqual : LevelWitness α).verify (n + 1) [c] = .ok () :=
  verify_allEqual_eq_ok.mpr (Cell.isSubsingleton_singleton c)

/-- From level 2 on, the witness of a set is accepted everywhere: a path space has at most one
cell. -/
theorem verify_allPathsEqual (n : Nat) (space : List (Cell α)) :
    (allPathsEqual : LevelWitness α).verify (n + 2) space = .ok () :=
  verify_succ_eq_ok.mpr fun x _ y _ =>
    ⟨allEqual, rfl, verify_allEqual_eq_ok.mpr (Cell.isSubsingleton_paths x y)⟩

/-! ## What acceptance forces -/

/-- An accepted contraction gives at every cell the path that stays there, whatever the level. -/
theorem contract_of_verify {n : Nat} {c : Contraction α} {space : List (Cell α)}
    (h : (contr c).verify n space = .ok ()) {x : Cell α} (hx : x ∈ space) :
    c.contract x = .ok (.refl x) := by
  cases n with
  | zero =>
      have hc : c.verify space = .ok () := h
      obtain ⟨hxc, hp⟩ := (Contraction.verify_eq_ok.mp hc).2 x hx
      rw [hp, hxc]
  | succ n =>
      obtain ⟨w, hw, hv⟩ := verify_succ_eq_ok.mp h x hx x hx
      obtain ⟨d, hd, -, rfl⟩ := pathSpace_contr_eq_ok.mp hw
      -- the only path at `x` has to be the path that the contraction goes through
      have hp : Cell.refl x = .refl d :=
        (verify_contractible_eq_ok.mp hv).1 _ (Cell.mem_paths.mpr ⟨rfl, rfl⟩)
      rw [hd, hp]

/-- A contraction is accepted only where all cells are equal, whatever the level. -/
theorem isSubsingleton_of_verify_contr {n : Nat} {c : Contraction α} {space : List (Cell α)}
    (h : (contr c).verify n space = .ok ()) : Cell.IsSubsingleton space := by
  intro x hx y hy
  have hpx := contract_of_verify h hx
  have hpy := contract_of_verify h hy
  cases n with
  | zero =>
      have hc : c.verify space = .ok () := h
      have hc := (Contraction.verify_eq_ok.mp hc).2
      rw [(hc x hx).1, (hc y hy).1]
  | succ n =>
      obtain ⟨w, hw, -⟩ := verify_succ_eq_ok.mp h x hx y hy
      obtain ⟨d, hdx, hdy, -⟩ := pathSpace_contr_eq_ok.mp hw
      rw [hpx] at hdx
      rw [hpy] at hdy
      exact Cell.refl.inj (Except.ok.inj (hdx.trans hdy.symm))

/-- A witness accepted at level 0 is a contraction to the one cell of the space. -/
theorem center_of_verify_zero {w : LevelWitness α} {space : List (Cell α)}
    (h : w.verify 0 space = .ok ()) :
    ∃ c, w = contr c ∧ c.center ∈ space ∧ ∀ x ∈ space, c.center = x := by
  obtain ⟨c, rfl, hc⟩ := verify_zero_eq_ok.mp h
  obtain ⟨hmem, hall⟩ := Contraction.verify_eq_ok.mp hc
  exact ⟨c, rfl, hmem, fun x hx => (hall x hx).1.symm⟩

/-- At level 1 any two cells are equal: the path space of two different cells is empty, so its
witness is refused. -/
theorem isSubsingleton_of_verify_one {w : LevelWitness α} {space : List (Cell α)}
    (h : w.verify 1 space = .ok ()) : Cell.IsSubsingleton space := by
  intro x hx y hy
  obtain ⟨w', -, hv⟩ := verify_succ_eq_ok.mp h x hx y hy
  by_contra hne
  rw [Cell.paths_of_ne hne] at hv
  exact verify_zero_nil w' hv

/-- **What acceptance means at each level.** Some witness is accepted at level 0 where there is
exactly one cell up to repetition, at level 1 where there is at most one; from level 2 on one
witness is accepted everywhere. No witness is accepted at level 0 or 1 beyond that, and no
contraction at any level. -/
theorem acceptance_by_level (α : Type) [DecidableEq α] [Display α] :
    (∀ space : List (Cell α), (∃ w : LevelWitness α, w.verify 0 space = .ok ()) ↔
      space ≠ [] ∧ Cell.IsSubsingleton space) ∧
    (∀ space : List (Cell α), (∃ w : LevelWitness α, w.verify 1 space = .ok ()) ↔
      Cell.IsSubsingleton space) ∧
    (∀ n, 2 ≤ n → ∃ w : LevelWitness α, ∀ space, w.verify n space = .ok ()) ∧
    (∀ (w : LevelWitness α) (space), w.verify 0 space = .ok () →
      ∃ c, w = contr c ∧ c.center ∈ space ∧ ∀ x ∈ space, c.center = x) ∧
    (∀ (w : LevelWitness α) (space), w.verify 1 space = .ok () → Cell.IsSubsingleton space) ∧
    (∀ (c : Contraction α) (n space), (contr c).verify n space = .ok () →
      Cell.IsSubsingleton space) := by
  refine ⟨fun space => ⟨?_, ?_⟩, fun space => ⟨?_, ?_⟩, ?_, fun w space => center_of_verify_zero,
    fun w space => isSubsingleton_of_verify_one, fun c n space => isSubsingleton_of_verify_contr⟩
  · rintro ⟨w, h⟩
    obtain ⟨c, rfl, hmem, -⟩ := center_of_verify_zero h
    exact ⟨List.ne_nil_of_mem hmem, isSubsingleton_of_verify_contr h⟩
  · rintro ⟨hne, h⟩
    obtain ⟨c, hc⟩ := List.exists_mem_of_ne_nil space hne
    exact ⟨contractible c, verify_contractible_eq_ok.mpr ⟨fun x hx => h x hx c hc, fun _ => hne⟩⟩
  · rintro ⟨w, h⟩
    exact isSubsingleton_of_verify_one h
  · intro h
    exact ⟨allEqual, verify_allEqual_eq_ok.mpr h⟩
  · intro n hn
    obtain ⟨k, rfl⟩ := Nat.exists_eq_add_of_le hn
    rw [Nat.add_comm]
    exact ⟨allPathsEqual, verify_allPathsEqual k⟩

end LevelWitness

end PathAlgebra
