import PathAlgebra.Proofs.Family.Transport
import PathAlgebra.Proofs.Level.Product
import PathAlgebra.Proofs.Level.Transfer
import PathAlgebra.Proofs.Pair.Path
import PathAlgebra.Proofs.Table.GridListing
import PathAlgebra.Theory.Pairs

set_option autoImplicit false

/-! # The checks of the statements about pairs

The theory of pair types is checked on sample carriers. Its checks go through on any two
lawfully enumerated carriers (`PairTheory.checks_eq_ok`), so no choice of samples could refute a
statement or break an assertion.

The checks of equivalences follow from lawfulness, and those of levels from what is known of the
products and the transfer of witnesses. In the others the values that are listed fit together:
a path from `z` to `z'` exists only if these are equal, and it is then the reflexivity, and the
values of a fiber have the index that selects it.
-/

namespace PathAlgebra

variable {α β ι P Q : Type}

/-! ## Operations whose assertions hold -/

theorem isOk_eq_true {ε : Type} {x : Except ε Unit} : x.isOk = true ↔ x = .ok () := by
  cases x <;> simp [Except.isOk, Except.toBool]

/-- Between two values only the reflexivity is accepted, and only if they are equal. -/
theorem Path.isOk_check [DecidableEq α] [Display α] {p : Path α} {left right : α} :
    (p.check left right).isOk = true ↔ right = left ∧ p = .refl left :=
  isOk_eq_true.trans check_eq_ok_iff

theorem Path.liftM_check_refl_self [DecidableEq α] [Display α] (x : α) :
    (liftM ((refl x).check x x) : Outcome Unit) = .ok () := by
  rw [check_refl_self, Outcome.liftM_fallible_ok]

theorem unpack_eq_ok [DecidableEq α] [Display α] [DecidableEq β] [Display β] [Family (α × β) P]
    {u : α × β} {w : P} (h : Family.index w = .ok u) : unpack u w = .ok w := by
  simp only [unpack, h, ok_bind, assertSame_self]
  rfl

theorem Family.indexed_fiber [Enumerated ι] [Enumerated α] : Indexed (Fiber ι α) :=
  fun u _ => ⟨u.index, rfl⟩

namespace PairTheory

open Enumerated (elements)

theorem same_self [DecidableEq α] [Display α] (x : α) : same x x = .ok () := by
  rw [same, Path.between, if_pos rfl]
  rfl

/-- There and back again along a lawful equivalence. -/
theorem same_inv_toFun [DecidableEq α] [Display α] {e : AdjointEquiv α β} {A : α → Prop}
    {B : β → Prop} (h : e.LawfulOn A B) {a : α} (ha : A a) :
    (do same (← e.inv (← e.toFun a)) a : Outcome Unit) = .ok () := by
  obtain ⟨b, -, hfun, hinv, -⟩ := h.source a ha
  simp only [hfun, hinv, Outcome.liftM_asserted_ok, ok_bind, same_self]

theorem same_toFun_inv [DecidableEq β] [Display β] {e : AdjointEquiv α β} {A : α → Prop}
    {B : β → Prop} (h : e.LawfulOn A B) {b : β} (hb : B b) :
    (do same (← e.toFun (← e.inv b)) b : Outcome Unit) = .ok () := by
  obtain ⟨a, -, hinv, hfun, -⟩ := h.target b hb
  simp only [hinv, hfun, Outcome.liftM_asserted_ok, ok_bind, same_self]

variable [DecidableEq α] [Display α] [Enumerated α] [DecidableEq β] [Display β] [Enumerated β]

/-- Between two pairs there are component paths only if the pairs are equal. -/
theorem eq_refl_of_mem_componentPaths {z z' : α × β} {pq : Path α × Path β}
    (h : pq ∈ componentPaths z z') : z' = z ∧ pq = (.refl z.1, .refl z.2) := by
  have h := (List.mem_filter.mp h).2
  rw [Bool.and_eq_true, Path.isOk_check, Path.isOk_check] at h
  obtain ⟨⟨hx, hp⟩, ⟨hy, hq⟩⟩ := h
  exact ⟨Prod.ext hx hy, Prod.ext hp hq⟩

/-! ## Pairs and their paths -/

theorem unpackCheck_eq_ok : unpackCheck α β = .ok () := by
  refine forM_eq_ok.mpr fun u _ => ?_
  rw [Family.fiberElements_eq_ok Family.indexed_fiber]
  refine forM_eq_ok.mpr fun w hw => ?_
  rw [unpack_eq_ok (Family.mem_fiber.mp hw).2]
  exact same_self w

theorem pairEtaCheck_eq_ok : pairEtaCheck α β = .ok () :=
  forM_eq_ok.mpr fun z _ => Path.liftM_check_refl_self z

theorem ofComponentsCheck_eq_ok : ofComponentsCheck α β = .ok () := by
  refine forM_eq_ok.mpr fun z _ => forM_eq_ok.mpr fun z' _ => forM_eq_ok.mpr fun pq hpq => ?_
  obtain ⟨rfl, rfl⟩ := eq_refl_of_mem_componentPaths hpq
  simp only [Path.ofComponents_refl_refl, Outcome.liftM_asserted_ok, ok_bind,
    Path.liftM_check_refl_self]

theorem ofComponentPairCheck_eq_ok : ofComponentPairCheck α β = .ok () := by
  refine forM_eq_ok.mpr fun z _ => forM_eq_ok.mpr fun z' _ => forM_eq_ok.mpr fun pq hpq => ?_
  obtain ⟨rfl, rfl⟩ := eq_refl_of_mem_componentPaths hpq
  simp only [Path.ofComponentPair, Path.ofComponents_refl_refl, Outcome.liftM_asserted_ok,
    ok_bind, Path.liftM_check_refl_self, same_self]

theorem pairCheck_eq_ok : pairCheck α β = .ok () := by
  refine forM_eq_ok.mpr fun pq _ => ?_
  obtain ⟨⟨x⟩, ⟨y⟩⟩ := pq
  simp only [Path.pair_refl_refl, Path.source, Path.target, Path.ofComponents_refl_refl (x, y),
    Outcome.liftM_asserted_ok, ok_bind, same_self]

theorem fstPairCheck_eq_ok : fstPairCheck α β = .ok () := by
  refine forM_eq_ok.mpr fun pq _ => ?_
  obtain ⟨⟨x⟩, ⟨y⟩⟩ := pq
  simp only [Path.pair_refl_refl, Path.fstPair, Path.map, Outcome.liftM_asserted_ok, ok_bind,
    Path.liftM_check_refl_self]

theorem sndPairCheck_eq_ok : sndPairCheck α β = .ok () := by
  refine forM_eq_ok.mpr fun pq _ => ?_
  obtain ⟨⟨x⟩, ⟨y⟩⟩ := pq
  simp only [Path.pair_refl_refl, Path.sndPair, Path.map, Outcome.liftM_asserted_ok, ok_bind,
    Path.liftM_check_refl_self]

theorem pairUnpairCheck_eq_ok : pairUnpairCheck α β = .ok () := by
  refine forM_eq_ok.mpr fun r _ => ?_
  obtain ⟨x, y⟩ := r
  simp only [Path.unpair, Path.map, Path.pair_refl_refl, Path.pairUnpair,
    Outcome.liftM_asserted_ok, ok_bind, Path.liftM_check_refl_self]

/-- The equivalence is lawful at all paths, so also at those between fixed ends. -/
theorem pathsCheck_eq_ok : pathsCheck α β = .ok () := by
  have hlawful := AdjointEquiv.LawfulOn.paths (fun _ : α => True) (fun _ : β => True)
  have hcheck (pqs : List (Path α × Path β)) (rs : List (Path (α × β))) :
      AdjointEquiv.paths.check pqs rs = .ok () :=
    hlawful.check_eq_ok (fun _ _ => ⟨trivial, trivial⟩) fun _ _ => ⟨trivial, trivial⟩
  refine bind_eq_ok.mpr ⟨(), hcheck _ _, ?_⟩
  refine forM_eq_ok.mpr fun z _ => forM_eq_ok.mpr fun z' _ => ?_
  rw [hcheck, Outcome.within_ok]

theorem transportPairCheck_eq_ok : transportPairCheck α β = .ok () := by
  refine forM_eq_ok.mpr fun p _ => ?_
  obtain ⟨a⟩ := p
  rw [Path.source, Family.fiberElements_eq_ok Family.indexed_fiber,
    Family.fiberElements_eq_ok Family.indexed_fiber]
  refine forM_eq_ok.mpr fun u hu => forM_eq_ok.mpr fun v hv => ?_
  have hu : (Path.refl a).transport u = .ok u :=
    Path.transport_eq_ok.mpr ⟨(Family.mem_fiber.mp hu).2, rfl⟩
  have hv : (Path.refl a).transport v = .ok v :=
    Path.transport_eq_ok.mpr ⟨(Family.mem_fiber.mp hv).2, rfl⟩
  obtain ⟨w, hw⟩ := Path.exists_transport_prod_eq_ok (z := (u, v)).mpr ⟨⟨u, hu⟩, ⟨v, hv⟩⟩
  obtain rfl : w = (u, v) := (Path.transport_eq_ok.mp hw).2
  simp only [Path.transportPair_eq_ok.mpr ⟨_, hw, rfl⟩, hw, hu, hv, Outcome.liftM_asserted_ok,
    ok_bind, Path.liftM_check_refl_self]

/-! ## Functions on pairs -/

theorem mapPairCheck_eq_ok : mapPairCheck α β = .ok () :=
  forM_eq_ok.mpr fun z _ => same_self (some z.1, (z.2, z.2))

theorem mapPairIdCheck_eq_ok : mapPairIdCheck α β = .ok () :=
  forM_eq_ok.mpr fun z _ => Path.liftM_check_refl_self z

omit [DecidableEq α] [Display α] in
theorem mapPairCompCheck_eq_ok : mapPairCompCheck α β = .ok () :=
  forM_eq_ok.mpr fun z _ => Path.liftM_check_refl_self (true, z.2)

theorem mapPairNaturalCheck_eq_ok : mapPairNaturalCheck α β = .ok () := by
  refine forM_eq_ok.mpr fun pq _ => ?_
  obtain ⟨⟨x⟩, ⟨y⟩⟩ := pq
  simp only [Path.pair_refl_refl, Path.mapPairNatural, Path.mapM, mapPair, ok_bind, pure,
    Except.pure, Outcome.liftM_asserted_ok, Path.liftM_check_refl_self]

/-! ## Equivalences of pair types -/

theorem prodCheck_eq_ok : prodCheck α β = .ok () := by
  have hunit : LawfulRoundTrips (fun _ => True) (fun _ => True)
      (fun b : β => .ok (b, ())) (fun w => .ok w.1) (fun w => .ok (.refl w))
      fun b => .ok (.refl b) :=
    ⟨fun b _ => ⟨(b, ()), trivial, rfl, rfl, rfl⟩, fun w _ => ⟨w.1, trivial, rfl, rfl, rfl⟩⟩
  have hlawful := (AdjointEquiv.LawfulOn.identity fun _ : α => True).inverse.prod hunit.lawfulOn
  refine bind_eq_ok.mpr ⟨(), ?laws, bind_eq_ok.mpr ⟨(), ?source, ?target⟩⟩
  case laws =>
    exact hlawful.check_eq_ok (fun _ _ => ⟨trivial, trivial⟩) fun _ _ => ⟨trivial, trivial⟩
  case source =>
    exact forM_eq_ok.mpr fun z _ => same_inv_toFun hlawful ⟨trivial, trivial⟩
  case target =>
    exact forM_eq_ok.mpr fun w _ => same_toFun_inv hlawful ⟨trivial, trivial⟩

theorem swapCheck_eq_ok : swapCheck α β = .ok () := by
  have hswap := AdjointEquiv.LawfulOn.swap (fun _ : α => True) (fun _ : β => True)
  have hback := AdjointEquiv.LawfulOn.swap (fun _ : β => True) (fun _ : α => True)
  refine bind_eq_ok.mpr ⟨(), ?once, bind_eq_ok.mpr ⟨(), ?twice, ?same⟩⟩
  case once =>
    exact hswap.check_eq_ok (fun _ _ => ⟨trivial, trivial⟩) fun _ _ => ⟨trivial, trivial⟩
  case twice =>
    exact (hswap.compose hback).check_eq_ok (fun _ _ => ⟨trivial, trivial⟩)
      fun _ _ => ⟨trivial, trivial⟩
  case same =>
    exact forM_eq_ok.mpr fun z _ => same_self z

theorem uncurryCheck_eq_ok [LawfulEnumerated α] [LawfulEnumerated β] :
    uncurryCheck α β = .ok () := by
  obtain ⟨tables, grids, htables, hgrids, htl, -, hgl⟩ := Grid.exists_elements_eq_ok
    (LawfulEnumerated.nodup_elements (α := Fiber (α × β) Bool)) Family.indexed_fiber
  have hwf : ∀ g ∈ grids, g.WellFormed := fun g hg => ((hgl.mem_iff g).mp hg).1
  have hcheck := AdjointEquiv.LawfulOn.uncurry.check_eq_ok hwf
    fun t ht => ((htl.mem_iff t).mp ht).1
  simp only [uncurryCheck, htables, hgrids, hcheck, Outcome.liftM_asserted_ok, ok_bind]
  refine forM_eq_ok.mpr fun g hg => ?_
  obtain ⟨t, huncurry, -, happly⟩ := (hwf g hg).exists_uncurry_eq_ok
  rw [huncurry]
  refine forM_eq_ok.mpr fun z _ => ?_
  obtain ⟨u, hu, -⟩ := (hwf g hg).exists_apply_eq_ok z.1 z.2
  rw [happly, hu]
  exact same_self u

/-! ## Levels of pair types -/

theorem contractionCheck_eq_ok : contractionCheck α β = .ok () := by
  refine forM_eq_ok.mpr fun z _ => ?_
  obtain ⟨c, hc, hv⟩ := Contraction.verify_prod_of_verify (Cell.isProduct_singleton (.point z))
    (LevelWitness.verify_contractible_singleton 0 (.point z.1))
    (LevelWitness.verify_contractible_singleton 0 (.point z.2))
  have hcenter : c.center = .point z :=
    Cell.unpair_injective (Contraction.center_of_prod_eq_ok hc)
  simp only [hc, Outcome.liftM_fallible_ok, ok_bind, hcenter, same_self, hv]

section

variable [LawfulEnumerated α] [LawfulEnumerated β]

open LevelWitness

/-- The points of the factors are sets, and a single point is a proposition and contractible; so
are their pairs. -/
theorem levelCheck_eq_ok : levelCheck α β = .ok () := by
  obtain ⟨u, hu, hset⟩ := verify_prod_of_verify (Cell.isProduct_space fun _ => Cell.mem_space)
    (verify_allPathsEqual 0 (Cell.space α)) (verify_allPathsEqual 0 (Cell.space β))
  refine bind_eq_ok.mpr ⟨allPathsEqual, rfl, bind_eq_ok.mpr ⟨allPathsEqual, rfl, ?_⟩⟩
  refine bind_eq_ok.mpr ⟨u, liftM_fallible_eq_ok.mpr hu, bind_eq_ok.mpr ⟨(), hset, ?_⟩⟩
  refine forM_eq_ok.mpr fun z _ => ?_
  have hz : Cell.IsProduct [.point z.1] [.point z.2] [.point z] :=
    Cell.isProduct_singleton (.point z)
  obtain ⟨p, hp, hproposition⟩ := verify_prod_of_verify hz
    (verify_allEqual_singleton 0 (.point z.1)) (verify_allEqual_singleton 0 (.point z.2))
  obtain ⟨c, hc, hcontractible⟩ := verify_prod_of_verify hz
    (verify_contractible_singleton 0 (.point z.1)) (verify_contractible_singleton 0 (.point z.2))
  refine bind_eq_ok.mpr ⟨allEqual, rfl, bind_eq_ok.mpr ⟨allEqual, rfl, ?_⟩⟩
  refine bind_eq_ok.mpr ⟨p, liftM_fallible_eq_ok.mpr hp, bind_eq_ok.mpr ⟨(), hproposition, ?_⟩⟩
  exact bind_eq_ok.mpr ⟨c, liftM_fallible_eq_ok.mpr hc, hcontractible⟩

/-- The points of the pairs are taken back to points, which are a set. -/
theorem levelTransferCheck_eq_ok : levelTransferCheck α β = .ok () := by
  let back : Cell (β × α) → Cell (α × β) := Cell.map fun z => (z.2, z.1)
  have hpoints : ∀ z : Cell (α × β), z ∈ (Cell.space (β × α)).map back ↔ z.dim = 0 := by
    intro z
    rw [List.mem_map]
    constructor
    · rintro ⟨y, hy, rfl⟩
      rw [Cell.dim_map, Cell.mem_space.mp hy]
    · intro hz
      exact ⟨z.map fun w => (w.2, w.1), Cell.mem_space.mpr ((Cell.dim_map _ z).trans hz),
        Cell.map_map_eq_self rfl⟩
  obtain ⟨u, hu, hset⟩ := verify_prod_of_verify (Cell.isProduct_space hpoints)
    (verify_allPathsEqual 0 (Cell.space α)) (verify_allPathsEqual 0 (Cell.space β))
  obtain ⟨t, ht, htransfer⟩ := verify_transfer_of_verify (e := AdjointEquiv.swap α β)
    (fun _ => rfl) (fun _ => rfl) (fun _ _ => rfl) hset
  refine bind_eq_ok.mpr ⟨allPathsEqual, rfl, bind_eq_ok.mpr ⟨allPathsEqual, rfl, ?_⟩⟩
  refine bind_eq_ok.mpr ⟨u, liftM_fallible_eq_ok.mpr hu, ?_⟩
  exact bind_eq_ok.mpr ⟨t, ht, htransfer⟩

end

/-! ## All checks -/

/-- The checks of the obligations, in the order of declaration. -/
def checks : List PairCheck :=
  [unpackCheck, pairEtaCheck, ofComponentsCheck, ofComponentPairCheck, pairCheck, fstPairCheck,
    sndPairCheck, pairUnpairCheck, pathsCheck, transportPairCheck, mapPairCheck, mapPairIdCheck,
    fun α β => mapPairCompCheck α β, mapPairNaturalCheck, prodCheck, swapCheck, uncurryCheck,
    contractionCheck, levelCheck, levelTransferCheck]

/-- **All checks go through on all lawfully enumerated carriers.** The obligations of the theory
run these checks on the sample carriers, and on any two lawfully enumerated carriers each of
them ends with a value: nothing is refused and no assertion breaks. -/
theorem checks_eq_ok (α β : Type)
    [DecidableEq α] [Display α] [Enumerated α] [LawfulEnumerated α]
    [DecidableEq β] [Display β] [Enumerated β] [LawfulEnumerated β] :
    obligations.map Obligation.check = checks.map onSamples ∧
      ∀ check ∈ checks, check α β = .ok () := by
  refine ⟨rfl, ?_⟩
  simp only [checks, List.forall_mem_cons]
  exact ⟨unpackCheck_eq_ok, pairEtaCheck_eq_ok, ofComponentsCheck_eq_ok,
    ofComponentPairCheck_eq_ok, pairCheck_eq_ok, fstPairCheck_eq_ok, sndPairCheck_eq_ok,
    pairUnpairCheck_eq_ok, pathsCheck_eq_ok, transportPairCheck_eq_ok, mapPairCheck_eq_ok,
    mapPairIdCheck_eq_ok, mapPairCompCheck_eq_ok, mapPairNaturalCheck_eq_ok, prodCheck_eq_ok,
    swapCheck_eq_ok, uncurryCheck_eq_ok, contractionCheck_eq_ok, levelCheck_eq_ok,
    levelTransferCheck_eq_ok, nofun⟩

/-- Neither carrier is among the samples. -/
theorem checks_option_path :
    LawfulEnumerated (Option (Fin 2)) ∧ LawfulEnumerated (Path Bool) ∧
      ∀ check ∈ checks, check (Option (Fin 2)) (Path Bool) = .ok () :=
  ⟨inferInstance, inferInstance, (checks_eq_ok (Option (Fin 2)) (Path Bool)).2⟩

end PairTheory

end PathAlgebra
