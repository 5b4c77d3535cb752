import PathAlgebra.Proofs.Level.Transfer

set_option autoImplicit false

/-! # What a carried witness shows of the equivalence

Carrying a witness along an equivalence compares nothing above level 0: the witness of a path
space is asked for between inverse images and carried one level down. Only the contraction at
level 0 asks for the cell from the image of the inverse image of `y` to `y` itself, and it exists
only if these are equal.

Still no carried witness is accepted on a space unless every point under its cells is the image of
its inverse image. Verification goes down along the diagonal: the path space from a cell to itself
has the reflexivity as its cell, over the same point, and so on until level 0 is reached. What the
given witness answers on the way does not matter.
-/

namespace PathAlgebra

variable {α β : Type}

/-- What is mapped at every dimension is the point. -/
theorem Cell.base_of_mapM_eq_ok {f : α → Asserted β} {c : Cell α} {d : Cell β}
    (h : c.mapM f = .ok d) : f c.base = .ok d.base := by
  induction c generalizing d with
  | point x =>
      obtain ⟨y, hy, hd⟩ := bind_eq_ok.mp h
      cases hd
      exact hy
  | refl c ih =>
      obtain ⟨d', hd', hd⟩ := bind_eq_ok.mp h
      cases hd
      exact ih (d := d') hd'

/-- The point `b` is the image of its inverse image. -/
def AdjointEquiv.RetractsOnto (e : AdjointEquiv α β) (b : β) : Prop :=
  ∃ a, e.inv b = .ok a ∧ e.toFun a = .ok b

theorem AdjointEquiv.retractsOnto_iff {e : AdjointEquiv α β} {f : α → β} {g : β → α}
    (hf : ∀ a, e.toFun a = .ok (f a)) (hg : ∀ b, e.inv b = .ok (g b)) {b : β} :
    e.RetractsOnto b ↔ f (g b) = b := by
  simp only [RetractsOnto, hf, hg, Except.ok.injEq, exists_eq_left']

variable [DecidableEq β] [Display β] {e : AdjointEquiv α β}

/-- A carried contraction reaches only cells that the mapping back and forth leaves where they
are. -/
theorem Contraction.retractsOnto_of_contract_transfer {c : Contraction α} {k : Contraction β}
    (hk : c.transfer e = .ok k) {y p : Cell β} (hp : k.contract y = .ok p) :
    e.RetractsOnto y.base := by
  obtain ⟨center, -, hk⟩ := bind_eq_ok.mp hk
  cases hk
  simp only [bind_eq_ok, liftM_asserted_eq_ok, liftM_fallible_eq_ok] at hp
  obtain ⟨x, hx, -, -, -, -, y', hy', q, hq, -⟩ := hp
  -- the path is continued by the cell from `y'` to `y`
  obtain ⟨rfl, -⟩ := Cell.between_eq_ok.mp hq
  exact ⟨x.base, Cell.base_of_mapM_eq_ok hx, Cell.base_of_mapM_eq_ok hy'⟩

namespace LevelWitness

variable [DecidableEq α] [Display α]

/-- A witness that a carried witness gives for a path space is itself a carried one. -/
theorem transfer_of_pathSpace_transfer {n : Nat} {w : LevelWitness α} {u u' : LevelWitness β}
    (hu : transfer (n + 1) e w = .ok u) {y y' : Cell β} (hu' : u.pathSpace y y' = .ok u') :
    ∃ w', transfer n e w' = .ok u' := by
  rw [transfer_succ] at hu
  cases hu
  simp only [pathSpace, bind_eq_ok] at hu'
  obtain ⟨-, -, -, -, w', -, hw'⟩ := hu'
  exact ⟨w', hw'⟩

theorem retractsOnto_of_verify_transfer {n : Nat} {w : LevelWitness α} {u : LevelWitness β}
    {space : List (Cell β)} (hu : transfer n e w = .ok u) (hv : u.verify n space = .ok ())
    {y : Cell β} (hy : y ∈ space) : e.RetractsOnto y.base := by
  induction n generalizing w u space y with
  | zero =>
      obtain ⟨c, k, rfl, hk, rfl⟩ := transfer_zero_eq_ok.mp hu
      obtain ⟨-, hall⟩ := Contraction.verify_eq_ok.mp hv
      exact Contraction.retractsOnto_of_contract_transfer hk (hall y hy).2
  | succ n ih =>
      -- the reflexivity at `y` is a cell one level down, over the same point
      obtain ⟨u', hu', hv'⟩ := verify_succ_eq_ok.mp hv y hy y hy
      obtain ⟨w', hw'⟩ := transfer_of_pathSpace_transfer hu hu'
      rw [Cell.paths_self] at hv'
      exact ih (y := .refl y) hw' hv' (List.mem_singleton_self _)

/-- **A carried witness is accepted only where the equivalence retracts.** Let the function `f`
and the inverse `g` of an equivalence break no assertion; nothing else is assumed of them, nor of
the given witness. If the witness can be carried along the equivalence and is then accepted on a
space of cells, at any level, then `f (g b) = b` for the points `b` under all cells of the
space. -/
theorem retracts_of_verify_transfer (n : Nat) (w : LevelWitness α) (e : AdjointEquiv α β)
    {f : α → β} {g : β → α} (hf : ∀ a, e.toFun a = .ok (f a)) (hg : ∀ b, e.inv b = .ok (g b))
    {u : LevelWitness β} {space : List (Cell β)} (hu : transfer n e w = .ok u)
    (hv : u.verify n space = .ok ()) : ∀ y ∈ space, f (g y.base) = y.base := by
  intro y hy
  exact (AdjointEquiv.retractsOnto_iff hf hg).mp (retractsOnto_of_verify_transfer hu hv hy)

/-- The one value of `Unit` retracts the booleans onto `true` alone. At level 2 the witness of a set
is accepted on a space over `true`, and refused where a cell over `false` is added. -/
theorem retracts_of_verify_transfer_true :
    ∃ e : AdjointEquiv Unit Bool, (∀ a, e.toFun a = .ok true) ∧ (∀ b, e.inv b = .ok ()) ∧
      ∃ u, transfer 2 e allPathsEqual = .ok u ∧
        u.verify 2 [.point true, .refl (.point true)] = .ok () ∧
        (∀ y ∈ [Cell.point true, .refl (.point true)], true = y.base) ∧
        u.verify 2 [.point true, .point false] ≠ .ok () := by
  let e : AdjointEquiv Unit Bool := AdjointEquiv.ofRoundTrips (fun _ => .ok true)
    (fun _ => .ok ()) (fun b => .ok (.refl b)) (fun a => .ok (.refl a))
  have hfun : ∀ a, e.toFun a = .ok true := fun _ => rfl
  have hinv : ∀ b, e.inv b = .ok () := fun _ => rfl
  refine ⟨e, hfun, hinv, _, transfer_succ 1 e allPathsEqual, rfl, ?_, fun hv => ?_⟩
  · exact retracts_of_verify_transfer 2 allPathsEqual e hfun hinv (transfer_succ 1 e _) rfl
  · have hfalse := retracts_of_verify_transfer 2 allPathsEqual e hfun hinv (transfer_succ 1 e _) hv
      (.point false) (List.mem_cons_of_mem _ List.mem_cons_self)
    cases hfalse

end LevelWitness

end PathAlgebra
