import PathAlgebra.Equiv.Pair
import PathAlgebra.Proofs.Level.Acceptance

set_option autoImplicit false

/-! # Levels along an equivalence

A witness for `α` is carried along an equivalence to one for `β`. What is used of the
equivalence is that its function `f` and its inverse `g` break no assertion, and that `f` takes
`g b` back to `b` for the points `b` under the cells of the space in question: on these, `β` is
a retract of `α`.

Taking such a space back along `g` loses nothing, at any dimension (`map_map_eq_self`), and
path spaces are taken back to path spaces (`paths_map`). So the carried witness is accepted
where the original is accepted on the inverse image, by an induction on the level which goes
from a space to its path spaces. Only level 0 looks at the paths that a contraction gives. For
the converse the center has to be found in the inverse image as well, and for this `g` has to
take `f a` back to `a`.
-/

namespace PathAlgebra

variable {α β : Type}

/-! ## Cells that can be taken back -/

namespace Cell

variable {f : α → β} {g : β → α}

theorem map_map_eq_self {y : Cell β} (h : f (g y.base) = y.base) : (y.map g).map f = y := by
  induction y with
  | point b => exact congrArg point h
  | refl c ih => exact congrArg refl (ih h)

/-- A cell is determined by its inverse image. -/
theorem eq_of_map_eq_map {y y' : Cell β} (h : f (g y.base) = y.base)
    (h' : f (g y'.base) = y'.base) (hmap : y.map g = y'.map g) : y = y' := by
  have hback := congrArg (map f) hmap
  rwa [map_map_eq_self h, map_map_eq_self h'] at hback

section

variable [DecidableEq α] [DecidableEq β]

/-- The path space of the inverse images is the inverse image of the path space. -/
theorem paths_map {y y' : Cell β} (h : f (g y.base) = y.base) (h' : f (g y'.base) = y'.base) :
    (paths y y').map (map g) = paths (y.map g) (y'.map g) := by
  by_cases hy : y = y'
  · subst hy
    rw [paths_self, paths_self]
    rfl
  · rw [paths_of_ne hy, paths_of_ne fun hmap => hy (eq_of_map_eq_map h h' hmap)]
    rfl

end

/-- The cells of a path space lie over the points of its ends. -/
theorem retracts_paths [DecidableEq β] {y y' : Cell β} (h : f (g y.base) = y.base) :
    ∀ p ∈ paths y y', f (g p.base) = p.base := by
  intro p hp
  rw [(mem_paths.mp hp).2]
  exact h

end Cell

variable [DecidableEq β] [Display β] {e : AdjointEquiv α β} {f : α → β} {g : β → α}

/-! ## Level 0 -/

namespace Contraction

/-- A contraction can be carried along `f`, and its center is carried with it. -/
theorem exists_transfer_eq_ok (hf : ∀ a, e.toFun a = .ok (f a)) (c : Contraction α) :
    ∃ k, c.transfer e = .ok k ∧ k.center = c.center.map f := by
  have hcenter : c.center.mapM e.toFun = .ok (c.center.map f) := by
    rw [funext hf]
    exact Cell.mapM_eq_ok_map f c.center
  exact ⟨_, bind_eq_ok.mpr ⟨_, hcenter, rfl⟩, rfl⟩

theorem center_of_transfer_eq_ok (hf : ∀ a, e.toFun a = .ok (f a)) {c : Contraction α}
    {k : Contraction β} (hk : c.transfer e = .ok k) : k.center = c.center.map f := by
  obtain ⟨k', hk', hcenter⟩ := exists_transfer_eq_ok hf c
  cases hk.symm.trans hk'
  exact hcenter

/-- The carried contraction reaches `y` by the image of the path to the inverse image of `y`.
This image has to end at `y`, and it is then the path that stays there. -/
theorem contract_transfer_eq_ok (hf : ∀ a, e.toFun a = .ok (f a))
    (hg : ∀ b, e.inv b = .ok (g b)) {c : Contraction α} {k : Contraction β}
    (hk : c.transfer e = .ok k) {y p : Cell β} (hy : f (g y.base) = y.base) :
    k.contract y = .ok p ↔
      ∃ d, c.contract (y.map g) = .ok (.refl d) ∧ d.map f = y ∧ p = .refl y := by
  obtain ⟨center, -, hk⟩ := bind_eq_ok.mp hk
  cases hk
  simp only [bind_eq_ok, liftM_asserted_eq_ok, liftM_fallible_eq_ok, funext hf, funext hg,
    Cell.mapM_eq_ok_map, Except.ok.injEq, exists_eq_left', Cell.map_map_eq_self hy,
    Cell.between_eq_ok, true_and, exists_eq_left]
  constructor
  · rintro ⟨x, hx, hp⟩
    -- a point cannot be concatenated, so the given path is a reflexivity
    cases x with
    | point a => simp [Cell.map, Cell.concat, Cell.boundary, refuse] at hp
    | refl d =>
        rw [Cell.map, Cell.concat_refl_refl] at hp
        split at hp
        · next h =>
            cases hp
            exact ⟨d, hx, h, congrArg Cell.refl h⟩
        · cases hp
  · rintro ⟨d, hx, hd, rfl⟩
    refine ⟨.refl d, hx, ?_⟩
    rw [Cell.map, Cell.concat_refl_refl, if_pos hd, hd]

variable [DecidableEq α] [Display α] {space : List (Cell β)}

/-- A space is contracted by the carried contraction if its inverse image is contracted by the
given one. -/
theorem verify_transfer_of_verify (hf : ∀ a, e.toFun a = .ok (f a))
    (hg : ∀ b, e.inv b = .ok (g b)) (h : ∀ y ∈ space, f (g y.base) = y.base)
    {c : Contraction α} (hc : c.verify (space.map (Cell.map g)) = .ok ()) :
    ∃ k, c.transfer e = .ok k ∧ k.verify space = .ok () := by
  obtain ⟨hmem, hall⟩ := verify_eq_ok.mp hc
  obtain ⟨k, hk, hcenter⟩ := exists_transfer_eq_ok hf c
  -- every cell of the space is the image of the center
  have heq : ∀ y ∈ space, y = k.center := by
    intro y hy
    have hx := (hall _ (List.mem_map_of_mem hy)).1
    rw [hcenter, ← hx, Cell.map_map_eq_self (h y hy)]
  refine ⟨k, hk, verify_eq_ok.mpr ⟨?_, fun y hy => ⟨heq y hy, ?_⟩⟩⟩
  · obtain ⟨y, hy, -⟩ := List.mem_map.mp hmem
    rwa [← heq y hy]
  · have hpath := (hall _ (List.mem_map_of_mem hy)).2
    refine (contract_transfer_eq_ok hf hg hk (h y hy)).mpr ⟨c.center, hpath, ?_, ?_⟩
    · rw [heq y hy, hcenter]
    · rw [heq y hy]

/-- If the carried contraction contracts a space, then the given one contracts its inverse
image, provided that `g` finds the center again. -/
theorem verify_of_verify_transfer (hf : ∀ a, e.toFun a = .ok (f a))
    (hg : ∀ b, e.inv b = .ok (g b)) (hgf : ∀ a, g (f a) = a)
    (h : ∀ y ∈ space, f (g y.base) = y.base) {c : Contraction α} {k : Contraction β}
    (hk : c.transfer e = .ok k) (hv : k.verify space = .ok ()) :
    c.verify (space.map (Cell.map g)) = .ok () := by
  obtain ⟨hmem, hall⟩ := verify_eq_ok.mp hv
  have hcenter : k.center.map g = c.center := by
    rw [center_of_transfer_eq_ok hf hk]
    exact Cell.map_map_eq_self (hgf _)
  refine verify_eq_ok.mpr ⟨hcenter ▸ List.mem_map_of_mem hmem, fun x hx => ?_⟩
  obtain ⟨y, hy, rfl⟩ := List.mem_map.mp hx
  obtain ⟨hyk, hpath⟩ := hall y hy
  obtain ⟨d, hd, hdy, -⟩ := (contract_transfer_eq_ok hf hg hk (h y hy)).mp hpath
  -- the path that was given runs through a cell with the image `y`, which is the center
  have hdc : d = c.center := by
    rw [← hcenter, ← hyk, ← hdy]
    exact (Cell.map_map_eq_self (hgf _)).symm
  exact ⟨by rw [hyk, hcenter], by rw [hd, hdc]⟩

end Contraction

/-! ## All levels -/

namespace LevelWitness

variable [DecidableEq α] [Display α]

/-- At level 0 a witness can be carried along an equivalence if it is a contraction. -/
theorem transfer_zero_eq_ok {w : LevelWitness α} {u : LevelWitness β} :
    transfer 0 e w = .ok u ↔ ∃ c k, w = contr c ∧ c.transfer e = .ok k ∧ u = contr k := by
  cases w with
  | contr c =>
      simp only [transfer, bind_eq_ok, liftM_asserted_eq_ok, pure, Except.pure, Except.ok.injEq,
        contr.injEq]
      constructor
      · rintro ⟨k, hk, rfl⟩
        exact ⟨c, k, rfl, hk, rfl⟩
      · rintro ⟨c, k, rfl, hk, rfl⟩
        exact ⟨k, hk, rfl⟩
  | paths witness => simp [transfer, refuse]

/-- The carried witness has a witness for a path space if the given one has a witness for the
path space of the inverse images which can be carried, one level down. -/
theorem pathSpace_transfer_eq_ok (hg : ∀ b, e.inv b = .ok (g b)) {n : Nat} {w : LevelWitness α}
    {u : LevelWitness β} (hu : transfer (n + 1) e w = .ok u) {y y' : Cell β}
    {u' : LevelWitness β} :
    u.pathSpace y y' = .ok u' ↔
      ∃ w', w.pathSpace (y.map g) (y'.map g) = .ok w' ∧ transfer n e w' = .ok u' := by
  rw [transfer_succ] at hu
  cases hu
  simp only [pathSpace, bind_eq_ok, liftM_asserted_eq_ok, funext hg, Cell.mapM_eq_ok_map,
    Except.ok.injEq, exists_eq_left']

/-- A carried witness is accepted where the given one is accepted on the inverse image. -/
theorem verify_transfer_of_verify (hf : ∀ a, e.toFun a = .ok (f a))
    (hg : ∀ b, e.inv b = .ok (g b)) {n : Nat} {w : LevelWitness α} {space : List (Cell β)}
    (h : ∀ y ∈ space, f (g y.base) = y.base)
    (hw : w.verify n (space.map (Cell.map g)) = .ok ()) :
    ∃ u, transfer n e w = .ok u ∧ u.verify n space = .ok () := by
  induction n generalizing w space with
  | zero =>
      obtain ⟨c, rfl, hc⟩ := verify_zero_eq_ok.mp hw
      obtain ⟨k, hk, hkv⟩ := Contraction.verify_transfer_of_verify hf hg h hc
      exact ⟨contr k, transfer_zero_eq_ok.mpr ⟨c, k, rfl, hk, rfl⟩,
        verify_zero_eq_ok.mpr ⟨k, rfl, hkv⟩⟩
  | succ n ih =>
      refine ⟨_, transfer_succ n e w, verify_succ_eq_ok.mpr fun y hy y' hy' => ?_⟩
      obtain ⟨w', hw', hv⟩ := verify_succ_eq_ok.mp hw _ (List.mem_map_of_mem hy) _
        (List.mem_map_of_mem hy')
      rw [← Cell.paths_map (h y hy) (h y' hy')] at hv
      obtain ⟨u', hu', huv⟩ := ih (Cell.retracts_paths (h y hy)) hv
      exact ⟨u', (pathSpace_transfer_eq_ok hg (transfer_succ n e w)).mpr ⟨w', hw', hu'⟩, huv⟩

/-- If a carried witness is accepted, then the given one is accepted on the inverse image,
provided that `g` is inverse to `f` on both sides. -/
theorem verify_of_verify_transfer (hf : ∀ a, e.toFun a = .ok (f a))
    (hg : ∀ b, e.inv b = .ok (g b)) (hgf : ∀ a, g (f a) = a) {n : Nat} {w : LevelWitness α}
    {u : LevelWitness β} {space : List (Cell β)} (h : ∀ y ∈ space, f (g y.base) = y.base)
    (hu : transfer n e w = .ok u) (hv : u.verify n space = .ok ()) :
    w.verify n (space.map (Cell.map g)) = .ok () := by
  induction n generalizing w u space with
  | zero =>
      obtain ⟨c, k, rfl, hk, rfl⟩ := transfer_zero_eq_ok.mp hu
      exact Contraction.verify_of_verify_transfer hf hg hgf h hk hv
  | succ n ih =>
      refine verify_succ_eq_ok.mpr fun x hx x' hx' => ?_
      obtain ⟨y, hy, rfl⟩ := List.mem_map.mp hx
      obtain ⟨y', hy', rfl⟩ := List.mem_map.mp hx'
      obtain ⟨u', hu', huv⟩ := verify_succ_eq_ok.mp hv y hy y' hy'
      obtain ⟨w', hw', htransfer⟩ := (pathSpace_transfer_eq_ok hg hu).mp hu'
      have hwv := ih (Cell.retracts_paths (h y hy)) htransfer huv
      rw [Cell.paths_map (h y hy) (h y' hy')] at hwv
      exact ⟨w', hw', hwv⟩

/-- **Levels along an equivalence.** Let the function and the inverse of `e` break no
assertion, and let the function take the inverse images of the points of a space of cells back
to these. If a witness is accepted on the inverse image of the space, then it can be carried
along `e` and is accepted on the space itself. If the inverse also takes every value of the
function back, the converse holds as well. -/
theorem verify_transfer_iff (n : Nat) (w : LevelWitness α) (e : AdjointEquiv α β)
    {f : α → β} {g : β → α} (hf : ∀ a, e.toFun a = .ok (f a)) (hg : ∀ b, e.inv b = .ok (g b))
    {space : List (Cell β)} (h : ∀ y ∈ space, f (g y.base) = y.base) :
    (w.verify n (space.map (Cell.map g)) = .ok () →
      ∃ u, transfer n e w = .ok u ∧ u.verify n space = .ok ()) ∧
    ((∀ a, g (f a) = a) →
      ((∃ u, transfer n e w = .ok u ∧ u.verify n space = .ok ()) ↔
        w.verify n (space.map (Cell.map g)) = .ok ())) := by
  refine ⟨verify_transfer_of_verify hf hg h, fun hgf => ⟨?_, verify_transfer_of_verify hf hg h⟩⟩
  rintro ⟨u, hu, hv⟩
  exact verify_of_verify_transfer hf hg hgf h hu hv

/-- On a space with a point and a path, exchanging the components of pairs carries the witness
of a set to an accepted one. -/
theorem verify_transfer_swap :
    (∀ z, (AdjointEquiv.swap Bool Unit).toFun z = .ok (z.2, z.1)) ∧
    (∀ z, (AdjointEquiv.swap Bool Unit).inv z = .ok (z.2, z.1)) ∧
    ∃ u, transfer 2 (AdjointEquiv.swap Bool Unit) allPathsEqual = .ok u ∧
      u.verify 2 [.point ((), true), .refl (.point ((), false))] = .ok () := by
  have hspace : ∀ y ∈ [Cell.point ((), true), .refl (.point ((), false))],
      (y.base.1, y.base.2) = y.base := fun _ _ => rfl
  have htransfer := verify_transfer_iff 2 (allPathsEqual : LevelWitness (Bool × Unit))
    (AdjointEquiv.swap Bool Unit) (fun _ => rfl) (fun _ => rfl) hspace
  have hback := htransfer.2 fun _ => rfl
  exact ⟨fun _ => rfl, fun _ => rfl, hback.mpr (verify_allPathsEqual 0 _)⟩

end LevelWitness

end PathAlgebra
