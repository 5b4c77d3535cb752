import PathAlgebra.Pair.Map
import PathAlgebra.Proofs.Pair.Path

set_option autoImplicit false

/-! # The laws of paths hold

A law is a path between paths, or between pairs, that is given by its point and not computed from
the sides that it states to be equal. `Path.Joins` says that it does join them: both sides are
computed without breaking an assertion, and the law passes the check against them. For each law it
is enough to compute the two sides to the point of the law (`Path.joins_iff`).
-/

namespace PathAlgebra.Path

variable {α α' α'' β β' β'' : Type}

/-! ## What a law says -/

/-- The law and both sides break no assertion, and the law is a path from the left to the right
side. -/
def Joins [DecidableEq α] [Display α] (law : Asserted (Path α)) (left right : Asserted α) : Prop :=
  ∃ p x y, law = .ok p ∧ left = .ok x ∧ right = .ok y ∧ p.check x y = .ok ()

/-- A law joins two sides exactly if both are computed to its point. -/
theorem joins_iff [DecidableEq α] [Display α] {law : Asserted (Path α)} {left right : Asserted α} :
    Joins law left right ↔ ∃ x, law = .ok (refl x) ∧ left = .ok x ∧ right = .ok x := by
  constructor
  · rintro ⟨p, x, y, hlaw, hleft, hright, hcheck⟩
    obtain ⟨rfl, rfl⟩ := check_eq_ok_iff.mp hcheck
    exact ⟨_, hlaw, hleft, hright⟩
  · rintro ⟨x, hlaw, hleft, hright⟩
    exact ⟨refl x, x, x, hlaw, hleft, hright, check_refl_self x⟩

theorem joins_refl [DecidableEq α] [Display α] (x : α) :
    Joins (.ok (refl x)) (.ok x) (.ok x) :=
  joins_iff.mpr ⟨x, rfl, rfl, rfl⟩

/-! ## The groupoid laws -/

section

variable [DecidableEq α] [Display α]

theorem concat_self (p : Path α) : p.concat p = .ok p := concat_eq_ok.mpr ⟨rfl, rfl⟩

theorem joins_concatRefl (p : Path α) :
    Joins (.ok p.concatRefl) (p.concat (refl p.target)) (.ok p) := by
  rw [target_eq_source, refl_source, concat_self]
  cases p
  exact joins_refl _

theorem joins_reflConcat (p : Path α) :
    Joins (.ok p.reflConcat) ((refl p.source).concat p) (.ok p) := by
  rw [refl_source, concat_self]
  cases p
  exact joins_refl _

theorem joins_concatInverse (p : Path α) :
    Joins (.ok p.concatInverse) (p.concat p.inverse) (.ok (refl p.source)) := by
  rw [inverse_eq, concat_self, refl_source]
  cases p
  exact joins_refl _

theorem joins_inverseConcat (p : Path α) :
    Joins (.ok p.inverseConcat) (p.inverse.concat p) (.ok (refl p.target)) := by
  rw [inverse_eq, concat_self, target_eq_source, refl_source]
  cases p
  exact joins_refl _

theorem joins_inverseInverse (p : Path α) :
    Joins (.ok p.inverseInverse) (.ok p.inverse.inverse) (.ok p) := by
  cases p
  exact joins_refl _

theorem joins_mapId (p : Path α) : Joins (.ok p.mapId) (p.mapM .ok) (.ok p) := by
  cases p
  exact joins_refl _

end

/-- What the functions do at other points does not matter. -/
theorem joins_mapComp [DecidableEq α''] [Display α''] {f : α → Asserted α'}
    {g : α' → Asserted α''} {p : Path α} {y : α'} {z : α''} (hf : f p.source = .ok y)
    (hg : g y = .ok z) :
    Joins (p.mapComp f g) (p.mapM fun x => do g (← f x)) (do (← p.mapM f).mapM g) := by
  cases p with
  | refl x =>
      have hf : f x = .ok y := hf
      refine joins_iff.mpr ⟨refl z, ?_, ?_, ?_⟩ <;>
        simp only [mapComp, mapM, hf, hg, ok_bind, pure, Except.pure]

/-! ## The laws of pairs -/

section

variable [DecidableEq α] [Display α] [DecidableEq β] [Display β]

theorem joins_pairEta (z : α × β) : Joins (.ok (pairEta z)) (.ok (z.1, z.2)) (.ok z) :=
  joins_refl z

theorem joins_fstPair (p : Path α) (q : Path β) :
    Joins (.ok (p.fstPair q)) (do return (← p.pair q).unpair.1) (.ok p) := by
  simp only [pair_eq_ok, ok_bind, unpair_sources, pure, Except.pure]
  cases p
  cases q
  exact joins_refl _

theorem joins_sndPair (p : Path α) (q : Path β) :
    Joins (.ok (p.sndPair q)) (do return (← p.pair q).unpair.2) (.ok q) := by
  simp only [pair_eq_ok, ok_bind, unpair_sources, pure, Except.pure]
  cases p
  cases q
  exact joins_refl _

theorem joins_pairUnpair (r : Path (α × β)) :
    Joins (.ok r.pairUnpair) (r.unpair.1.pair r.unpair.2) (.ok r) := by
  rw [pair_eq_ok]
  cases r
  exact joins_refl _

theorem joins_mapPairId (z : α × β) : Joins (.ok (mapPairId z)) (mapPair .ok .ok z) (.ok z) :=
  joins_refl z

end

section

variable [DecidableEq α'] [Display α'] [DecidableEq β'] [Display β']

/-- Mapping takes the points to the points, pairing puts them together, in whatever order. -/
theorem joins_mapPairNatural [DecidableEq α] [Display α] [DecidableEq β] [Display β]
    {f : α → Asserted α'} {g : β → Asserted β'} {p : Path α} {q : Path β} {x : α'} {y : β'}
    (hf : f p.source = .ok x) (hg : g q.source = .ok y) :
    Joins (mapPairNatural f g p q) (do (← p.pair q).mapM (mapPair f g))
      (do (← p.mapM f).pair (← q.mapM g)) := by
  cases p with
  | refl a =>
      cases q with
      | refl b =>
          have hf : f a = .ok x := hf
          have hg : g b = .ok y := hg
          refine joins_iff.mpr ⟨refl (x, y), ?_, ?_, ?_⟩ <;>
            simp only [mapPairNatural, pair_eq_ok, source, mapM, mapPair, hf, hg, ok_bind, pure,
              Except.pure]

end

theorem joins_mapPairComp [DecidableEq α''] [Display α''] [DecidableEq β''] [Display β'']
    {f : α → Asserted α'} {f' : α' → Asserted α''} {g : β → Asserted β'} {g' : β' → Asserted β''}
    {z : α × β} {x : α'} {x' : α''} {y : β'} {y' : β''} (hf : f z.1 = .ok x) (hf' : f' x = .ok x')
    (hg : g z.2 = .ok y) (hg' : g' y = .ok y') :
    Joins (mapPairComp f f' g g' z) (mapPair (fun a => do f' (← f a)) (fun b => do g' (← g b)) z)
      (do mapPair f' g' (← mapPair f g z)) := by
  refine joins_iff.mpr ⟨(x', y'), ?_, ?_, ?_⟩ <;>
    simp only [mapPairComp, mapPair, hf, hf', hg, hg', ok_bind, pure, Except.pure]

/-! ## All laws -/

/-- **Every law joins the sides that it states to be equal.** The groupoid laws and the law of
identities hold of all paths, the laws of pairs of all pairs, paths between them and pairs of
paths, and the laws about functions of all functions that break no assertion. No side breaks an
assertion in being computed, so what is concatenated in one meets, and what is paired has the
ends that it needs. -/
theorem joins_laws (α α' α'' β β' β'' : Type) [DecidableEq α] [Display α] [DecidableEq α']
    [Display α'] [DecidableEq α''] [Display α''] [DecidableEq β] [Display β] [DecidableEq β']
    [Display β'] [DecidableEq β''] [Display β''] :
    (∀ p : Path α,
      Joins (.ok p.concatRefl) (p.concat (refl p.target)) (.ok p) ∧
      Joins (.ok p.reflConcat) ((refl p.source).concat p) (.ok p) ∧
      Joins (.ok p.concatInverse) (p.concat p.inverse) (.ok (refl p.source)) ∧
      Joins (.ok p.inverseConcat) (p.inverse.concat p) (.ok (refl p.target)) ∧
      Joins (.ok p.inverseInverse) (.ok p.inverse.inverse) (.ok p) ∧
      Joins (.ok p.mapId) (p.mapM .ok) (.ok p)) ∧
    (∀ (f : α → α') (g : α' → α'') (p : Path α),
      Joins (p.mapComp (.ok ∘ f) (.ok ∘ g)) (p.mapM (.ok ∘ g ∘ f))
        (do (← p.mapM (.ok ∘ f)).mapM (.ok ∘ g))) ∧
    (∀ z : α × β,
      Joins (.ok (pairEta z)) (.ok (z.1, z.2)) (.ok z) ∧
      Joins (.ok (mapPairId z)) (mapPair .ok .ok z) (.ok z)) ∧
    (∀ (p : Path α) (q : Path β),
      Joins (.ok (p.fstPair q)) (do return (← p.pair q).unpair.1) (.ok p) ∧
      Joins (.ok (p.sndPair q)) (do return (← p.pair q).unpair.2) (.ok q)) ∧
    (∀ r : Path (α × β), Joins (.ok r.pairUnpair) (r.unpair.1.pair r.unpair.2) (.ok r)) ∧
    (∀ (f : α → α') (f' : α' → α'') (g : β → β') (g' : β' → β'') (z : α × β),
      Joins (mapPairComp (.ok ∘ f) (.ok ∘ f') (.ok ∘ g) (.ok ∘ g') z)
        (mapPair (.ok ∘ f' ∘ f) (.ok ∘ g' ∘ g) z)
        (do mapPair (.ok ∘ f') (.ok ∘ g') (← mapPair (.ok ∘ f) (.ok ∘ g) z))) ∧
    (∀ (f : α → α') (g : β → β') (p : Path α) (q : Path β),
      Joins (mapPairNatural (.ok ∘ f) (.ok ∘ g) p q)
        (do (← p.pair q).mapM (mapPair (.ok ∘ f) (.ok ∘ g)))
        (do (← p.mapM (.ok ∘ f)).pair (← q.mapM (.ok ∘ g)))) :=
  ⟨fun p => ⟨joins_concatRefl p, joins_reflConcat p, joins_concatInverse p, joins_inverseConcat p,
      joins_inverseInverse p, joins_mapId p⟩,
    fun _ _ _ => joins_mapComp rfl rfl, fun z => ⟨joins_pairEta z, joins_mapPairId z⟩,
    fun p q => ⟨joins_fstPair p q, joins_sndPair p q⟩, joins_pairUnpair,
    fun _ _ _ _ _ => joins_mapPairComp rfl rfl rfl rfl, fun _ _ _ _ => joins_mapPairNatural rfl rfl⟩

end PathAlgebra.Path
