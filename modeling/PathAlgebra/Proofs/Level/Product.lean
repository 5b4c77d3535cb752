import PathAlgebra.Proofs.Cell.Pairing
import PathAlgebra.Proofs.Level.Acceptance

set_option autoImplicit false

/-! # Levels of product spaces

A product space has a level, by the product of two witnesses, exactly where both factors have
it by the two witnesses. The proof is an induction on the level which carries `Cell.IsProduct`
from spaces to path spaces. Above level 0 the witnesses are opened at one pair of ends at a time;
off the diagonal the path space of the pairs is empty, and so is that of at least one factor.

From the factors to the product nothing else is needed. From the product back to a factor, each
cell of the factor has to be the component of some cell of the product, so the other factor must
not be empty.
-/

namespace PathAlgebra

variable {α β : Type} [Display α] [Display β]

/-! ## Level 0 -/

namespace Contraction

/-- Two contractions have a product where their centers have a pair, which is its center. -/
theorem exists_prod_eq_ok {c : Contraction α} {d : Contraction β} {center : Cell (α × β)}
    (h : center.unpair = (c.center, d.center)) : ∃ k, c.prod d = .ok k ∧ k.center = center :=
  ⟨_, bind_eq_ok.mpr ⟨center, Cell.pair_eq_ok.mpr h, rfl⟩, rfl⟩

theorem center_of_prod_eq_ok {c : Contraction α} {d : Contraction β} {k : Contraction (α × β)}
    (hk : c.prod d = .ok k) : k.center.unpair = (c.center, d.center) := by
  obtain ⟨center, hcenter, hk⟩ := bind_eq_ok.mp hk
  cases hk
  exact Cell.pair_eq_ok.mp hcenter

/-- The product of two contractions gives a path of pairs where both give its components. -/
theorem contract_prod_eq_ok {c : Contraction α} {d : Contraction β} {k : Contraction (α × β)}
    (hk : c.prod d = .ok k) {z p : Cell (α × β)} :
    k.contract z = .ok p ↔
      c.contract z.unpair.1 = .ok p.unpair.1 ∧ d.contract z.unpair.2 = .ok p.unpair.2 := by
  obtain ⟨center, -, hk⟩ := bind_eq_ok.mp hk
  cases hk
  simp only [bind_eq_ok, liftM_fallible_eq_ok, Cell.pair_eq_ok]
  constructor
  · rintro ⟨x, hx, y, hy, hp⟩
    rw [hp]
    exact ⟨hx, hy⟩
  · rintro ⟨hx, hy⟩
    exact ⟨_, hx, _, hy, rfl⟩

variable [DecidableEq α] [DecidableEq β]
variable {xs : List (Cell α)} {ys : List (Cell β)} {zs : List (Cell (α × β))}

/-- A product space is contracted by the product of two contractions of its factors. -/
theorem verify_prod_of_verify (hp : Cell.IsProduct xs ys zs) {c : Contraction α}
    {d : Contraction β} (hc : c.verify xs = .ok ()) (hd : d.verify ys = .ok ()) :
    ∃ k, c.prod d = .ok k ∧ k.verify zs = .ok () := by
  obtain ⟨hcx, hc⟩ := verify_eq_ok.mp hc
  obtain ⟨hdy, hd⟩ := verify_eq_ok.mp hd
  obtain ⟨center, hz, hcenter⟩ := hp.exists_mem hcx hdy
  obtain ⟨k, hk, rfl⟩ := exists_prod_eq_ok hcenter
  refine ⟨k, hk, verify_eq_ok.mpr ⟨hz, fun z hz => ?_⟩⟩
  obtain ⟨hx, hy⟩ := (hp.mem_iff z).mp hz
  obtain ⟨hxc, hpx⟩ := hc _ hx
  obtain ⟨hyd, hpy⟩ := hd _ hy
  refine ⟨Cell.unpair_injective ?_, (contract_prod_eq_ok hk).mpr ?_⟩
  · rw [hcenter, ← hxc, ← hyd]
  · rw [Cell.unpair_refl, hcenter]
    exact ⟨hpx, hpy⟩

/-- If the product of two contractions contracts a product space, then the two contract its
factors. -/
theorem verify_of_verify_prod (hp : Cell.IsProduct xs ys zs) {c : Contraction α}
    {d : Contraction β} {k : Contraction (α × β)} (hk : c.prod d = .ok k)
    (h : k.verify zs = .ok ()) : c.verify xs = .ok () ∧ d.verify ys = .ok () := by
  obtain ⟨hkz, h⟩ := verify_eq_ok.mp h
  have hcenter := center_of_prod_eq_ok hk
  obtain ⟨hcx, hdy⟩ := (hp.mem_iff _).mp hkz
  rw [hcenter] at hcx hdy
  -- a cell of one factor is joined with the center of the other
  have hboth : ∀ z ∈ zs, (z.unpair.1 = c.center ∧ c.contract z.unpair.1 = .ok (.refl c.center)) ∧
      (z.unpair.2 = d.center ∧ d.contract z.unpair.2 = .ok (.refl d.center)) := by
    intro z hz
    obtain ⟨hzk, hpz⟩ := h z hz
    have hpz := (contract_prod_eq_ok hk).mp hpz
    rw [Cell.unpair_refl, hcenter] at hpz
    have hz : z.unpair = (c.center, d.center) := by rw [hzk, hcenter]
    exact ⟨⟨by rw [hz], hpz.1⟩, ⟨by rw [hz], hpz.2⟩⟩
  refine ⟨verify_eq_ok.mpr ⟨hcx, fun x hx => ?_⟩, verify_eq_ok.mpr ⟨hdy, fun y hy => ?_⟩⟩
  · obtain ⟨z, hz, hxy⟩ := hp.exists_mem hx hdy
    have := (hboth z hz).1
    rwa [hxy] at this
  · obtain ⟨z, hz, hxy⟩ := hp.exists_mem hcx hy
    have := (hboth z hz).2
    rwa [hxy] at this

end Contraction

/-! ## All levels -/

namespace LevelWitness

variable [DecidableEq α] [DecidableEq β]

/-- Only contractions have a product at level 0. -/
theorem prod_zero_eq_ok {w : LevelWitness α} {v : LevelWitness β} {u : LevelWitness (α × β)} :
    prod 0 w v = .ok u ↔
      ∃ c d k, w = contr c ∧ v = contr d ∧ c.prod d = .ok k ∧ u = contr k := by
  cases w with
  | contr c =>
      cases v with
      | contr d =>
          simp only [prod, bind_eq_ok, pure, Except.pure, Except.ok.injEq]
          constructor
          · rintro ⟨k, hk, rfl⟩
            exact ⟨c, d, k, rfl, rfl, hk, rfl⟩
          · rintro ⟨_, _, k, hw, hv, hk, rfl⟩
            cases hw
            cases hv
            exact ⟨k, hk, rfl⟩
      | paths g => simp [prod, refuse]
  | paths f => simp [prod, refuse]

/-- One level up, the product of two witnesses has the products of their witnesses for the path
spaces of the components. -/
theorem pathSpace_prod_eq_ok {n : Nat} {w : LevelWitness α} {v : LevelWitness β}
    {u : LevelWitness (α × β)} (hu : prod (n + 1) w v = .ok u) {z z' : Cell (α × β)}
    {u' : LevelWitness (α × β)} :
    u.pathSpace z z' = .ok u' ↔
      ∃ w', w.pathSpace z.unpair.1 z'.unpair.1 = .ok w' ∧
        ∃ v', v.pathSpace z.unpair.2 z'.unpair.2 = .ok v' ∧ prod n w' v' = .ok u' := by
  rw [prod_succ] at hu
  cases hu
  simp only [pathSpace, bind_eq_ok, liftM_fallible_eq_ok]

/-- The product of two witnesses is accepted where the two are. -/
theorem verify_prod_of_verify {n : Nat} {w : LevelWitness α} {v : LevelWitness β}
    {xs : List (Cell α)} {ys : List (Cell β)} {zs : List (Cell (α × β))}
    (hp : Cell.IsProduct xs ys zs) (hw : w.verify n xs = .ok ()) (hv : v.verify n ys = .ok ()) :
    ∃ u, prod n w v = .ok u ∧ u.verify n zs = .ok () := by
  induction n generalizing w v xs ys zs with
  | zero =>
      obtain ⟨c, rfl, hc⟩ := verify_zero_eq_ok.mp hw
      obtain ⟨d, rfl, hd⟩ := verify_zero_eq_ok.mp hv
      obtain ⟨k, hk, hkz⟩ := Contraction.verify_prod_of_verify hp hc hd
      exact ⟨contr k, prod_zero_eq_ok.mpr ⟨c, d, k, rfl, rfl, hk, rfl⟩,
        verify_zero_eq_ok.mpr ⟨k, rfl, hkz⟩⟩
  | succ n ih =>
      refine ⟨_, prod_succ n w v, verify_succ_eq_ok.mpr fun z hz z' hz' => ?_⟩
      obtain ⟨hx, hy⟩ := (hp.mem_iff z).mp hz
      obtain ⟨hx', hy'⟩ := (hp.mem_iff z').mp hz'
      obtain ⟨w', hw', hwp⟩ := verify_succ_eq_ok.mp hw _ hx _ hx'
      obtain ⟨v', hv', hvp⟩ := verify_succ_eq_ok.mp hv _ hy _ hy'
      obtain ⟨u', hu', hup⟩ := ih (Cell.isProduct_paths z z') hwp hvp
      exact ⟨u', (pathSpace_prod_eq_ok (prod_succ n w v)).mpr ⟨w', hw', v', hv', hu'⟩, hup⟩

/-- If the product of two witnesses is accepted on a product space, then each of the two is
accepted on its factor, provided that the other factor has a cell to go with. -/
theorem verify_of_verify_prod {n : Nat} {w : LevelWitness α} {v : LevelWitness β}
    {u : LevelWitness (α × β)} {xs : List (Cell α)} {ys : List (Cell β)}
    {zs : List (Cell (α × β))} (hp : Cell.IsProduct xs ys zs) (hu : prod n w v = .ok u)
    (h : u.verify n zs = .ok ()) :
    (ys ≠ [] → w.verify n xs = .ok ()) ∧ (xs ≠ [] → v.verify n ys = .ok ()) := by
  induction n generalizing w v u xs ys zs with
  | zero =>
      obtain ⟨c, d, k, rfl, rfl, hk, rfl⟩ := prod_zero_eq_ok.mp hu
      obtain ⟨hc, hd⟩ := Contraction.verify_of_verify_prod hp hk h
      exact ⟨fun _ => hc, fun _ => hd⟩
  | succ n ih =>
      -- the components of the two ends can be chosen freely
      have hopen : ∀ x ∈ xs, ∀ x' ∈ xs, ∀ y ∈ ys, ∀ y' ∈ ys,
          ∃ w', w.pathSpace x x' = .ok w' ∧ ∃ v', v.pathSpace y y' = .ok v' ∧
            (Cell.paths y y' ≠ [] → w'.verify n (Cell.paths x x') = .ok ()) ∧
            (Cell.paths x x' ≠ [] → v'.verify n (Cell.paths y y') = .ok ()) := by
        intro x hx x' hx' y hy y' hy'
        obtain ⟨z, hz, hxy⟩ := hp.exists_mem hx hy
        obtain ⟨z', hz', hxy'⟩ := hp.exists_mem hx' hy'
        obtain ⟨u', hu', hup⟩ := verify_succ_eq_ok.mp h z hz z' hz'
        obtain ⟨w', hw', v', hv', hprod⟩ := (pathSpace_prod_eq_ok hu).mp hu'
        have hboth := ih (Cell.isProduct_paths z z') hprod hup
        rw [hxy, hxy'] at hw' hv' hboth
        exact ⟨w', hw', v', hv', hboth⟩
      constructor
      · intro hys
        obtain ⟨y, hy⟩ := List.exists_mem_of_ne_nil ys hys
        refine verify_succ_eq_ok.mpr fun x hx x' hx' => ?_
        obtain ⟨w', hw', -, -, hv, -⟩ := hopen x hx x' hx' y hy y hy
        exact ⟨w', hw', hv (by rw [Cell.paths_self]; exact List.cons_ne_nil _ _)⟩
      · intro hxs
        obtain ⟨x, hx⟩ := List.exists_mem_of_ne_nil xs hxs
        refine verify_succ_eq_ok.mpr fun y hy y' hy' => ?_
        obtain ⟨-, -, v', hv', -, hv⟩ := hopen x hx x hx y hy y' hy'
        exact ⟨v', hv', hv (by rw [Cell.paths_self]; exact List.cons_ne_nil _ _)⟩

/-- **Levels of products.** Two spaces of cells of one dimension have a product space. If two
witnesses are accepted on the factors, their product exists and is accepted on the product; if
neither factor is empty, the converse holds as well. -/
theorem verify_prod_iff (n : Nat) (w : LevelWitness α) (v : LevelWitness β) {d : Nat}
    {xs : List (Cell α)} {ys : List (Cell β)} (hxs : ∀ x ∈ xs, x.dim = d)
    (hys : ∀ y ∈ ys, y.dim = d) :
    ∃ zs, Cell.pairs xs ys = .ok zs ∧
      (w.verify n xs = .ok () ∧ v.verify n ys = .ok () →
        ∃ u, prod n w v = .ok u ∧ u.verify n zs = .ok ()) ∧
      (xs ≠ [] → ys ≠ [] →
        ((∃ u, prod n w v = .ok u ∧ u.verify n zs = .ok ()) ↔
          w.verify n xs = .ok () ∧ v.verify n ys = .ok ())) := by
  obtain ⟨zs, hzs, hp⟩ := Cell.exists_pairs_eq_ok fun x hx y hy => (hxs x hx).trans (hys y hy).symm
  refine ⟨zs, hzs, fun h => verify_prod_of_verify hp h.1 h.2, fun hx hy => ⟨?_, ?_⟩⟩
  · rintro ⟨u, hu, h⟩
    obtain ⟨hw, hv⟩ := verify_of_verify_prod hp hu h
    exact ⟨hw hy, hv hx⟩
  · rintro ⟨hw, hv⟩
    exact verify_prod_of_verify hp hw hv

/-- Truth values are a set and the unit is contractible, so their pairs are a set. -/
theorem verify_prod_bool_unit :
    (∀ x ∈ [Cell.point false, .point true], x.dim = 0) ∧ (∀ y ∈ [Cell.point ()], y.dim = 0) ∧
      ∃ zs, Cell.pairs [.point false, .point true] [.point ()] = .ok zs ∧
        ∃ u, prod 2 (allPathsEqual : LevelWitness Bool) (contractible (.point ())) = .ok u ∧
          u.verify 2 zs = .ok () := by
  have hxs : ∀ x ∈ [Cell.point false, .point true], x.dim = 0 := by decide
  have hys : ∀ y ∈ [Cell.point ()], y.dim = 0 := by decide
  obtain ⟨zs, hzs, -, hiff⟩ :=
    verify_prod_iff 2 (allPathsEqual : LevelWitness Bool) (contractible (.point ())) hxs hys
  exact ⟨hxs, hys, zs, hzs, (hiff (List.cons_ne_nil _ _) (List.cons_ne_nil _ _)).mpr ⟨rfl, rfl⟩⟩

end LevelWitness

end PathAlgebra
