import Mathlib.Data.List.ProdSigma
import PathAlgebra.Proofs.Equiv.Verdict

set_option autoImplicit false

/-! # Checking products of equivalences

A check sees an equivalence at the listed points only, so all that it shows is what holds there:
at a point of the codomain that the two functions lead back to it and that the round trip in use
stays (`RoundTripAt`), at a point of the domain that the round trip of the domain and the triangle
law stay as well (`TriangleAt`). Elsewhere the equivalence may be anything.

Both are local in a product: they hold at a pair exactly if they hold for the two factors at its
components. The parts of a product pair those of the factors and concatenate them with
reflexivities, which breaks no assertion exactly where the paths that are paired are reflexivities
too. No round trip is given for a product, so nothing else is checked of it, and its check goes
through exactly where these hold of the factors (`check_prod_eq_ok_iff`). That of a factor may ask
for more: it also looks at the round trip that was given, if one was.
-/

namespace PathAlgebra

variable {α α' β β' : Type}

theorem mapPair_eq_ok_iff {f : α → Asserted α'} {g : β → Asserted β'} {z : α × β}
    {w : α' × β'} : mapPair f g z = .ok w ↔ f z.1 = .ok w.1 ∧ g z.2 = .ok w.2 := by
  constructor
  · intro h
    simp only [mapPair, bind_eq_ok] at h
    obtain ⟨a', ha, b', hb, hw⟩ := h
    cases hw
    exact ⟨ha, hb⟩
  · rintro ⟨ha, hb⟩
    exact mapPair_eq_ok ha hb

namespace AdjointEquiv

/-! ## What a check shows at a point -/

/-- The function and its inverse exchange `a` and `b`, and the round trip in use stays at `b`. -/
structure RoundTripAt (e : AdjointEquiv α β) (a : α) (b : β) : Prop where
  /-- The function leads from the one to the other. -/
  toFun_eq : e.toFun a = .ok b
  /-- The inverse leads back. -/
  inv_eq : e.inv b = .ok a
  /-- The round trip of the codomain stays. -/
  retr_eq : e.retr b = .ok (.refl b)

/-- All laws hold between `a` and `b`, except that nothing is said of a given round trip. -/
structure TriangleAt (e : AdjointEquiv α β) (a : α) (b : β) : Prop extends
    RoundTripAt e a b where
  /-- The round trip of the domain stays. -/
  sect_eq : e.sect a = .ok (.refl a)
  /-- The triangle law stays at the reflexivity. -/
  adj_eq : e.adj a = .ok (.refl (.refl b))

section

variable [DecidableEq α] [Display α] [DecidableEq β] [Display β]
variable {e : AdjointEquiv α β} {a : α} {b : β}

theorem exists_roundTripAt (h : e.checkTarget b = .ok ()) : ∃ a, e.RoundTripAt a b := by
  obtain ⟨a, hinv, hfun, hretr, -⟩ := checkTarget_eq_ok_iff.mp h
  exact ⟨a, hfun, hinv, hretr⟩

theorem exists_triangleAt (h : e.checkSource a = .ok ()) : ∃ b, e.TriangleAt a b := by
  obtain ⟨b, hfun, hinv, hsect, hadj, htarget⟩ := checkSource_eq_ok_iff.mp h
  obtain ⟨_, -, -, hretr, -⟩ := checkTarget_eq_ok_iff.mp htarget
  exact ⟨b, ⟨hfun, hinv, hretr⟩, hsect, hadj⟩

/-- Where no round trip was given, a point of the codomain is checked for nothing else. -/
theorem checkTarget_eq_ok_iff_of_given (hgiven : e.given = none) :
    e.checkTarget b = .ok () ↔ ∃ a, e.RoundTripAt a b := by
  constructor
  · exact exists_roundTripAt
  · rintro ⟨a, h⟩
    refine checkTarget_eq_ok_iff.mpr ⟨a, h.inv_eq, h.toFun_eq, h.retr_eq, fun given hg => ?_⟩
    rw [hgiven] at hg
    exact absurd hg (Option.not_mem_none given)

/-- Where no round trip was given, a point of the domain is checked for nothing else. -/
theorem checkSource_eq_ok_iff_of_given (hgiven : e.given = none) :
    e.checkSource a = .ok () ↔ ∃ b, e.TriangleAt a b := by
  constructor
  · exact exists_triangleAt
  · rintro ⟨b, h⟩
    have htarget : e.checkTarget b = .ok () :=
      (checkTarget_eq_ok_iff_of_given hgiven).mpr ⟨a, h.toRoundTripAt⟩
    exact checkSource_eq_ok_iff.mpr
      ⟨b, h.toFun_eq, h.inv_eq, h.sect_eq, h.adj_eq, htarget⟩

end

/-! ## Products, part by part -/

variable [DecidableEq α] [Display α] [DecidableEq β] [Display β]

/-- Two round trips are paired to one that stays at a pair exactly if each stays at its
component. -/
theorem pair_concat_eta_eq_ok_iff {f : α → Asserted (Path α)} {g : β → Asserted (Path β)} {a : α}
    {b : β} :
    (do
      let p ← (← f a).pair (← g b)
      p.concat (Path.pairEta (a, b))) = .ok (.refl (a, b)) ↔
      f a = .ok (.refl a) ∧ g b = .ok (.refl b) := by
  constructor
  · intro h
    simp only [bind_eq_ok] at h
    obtain ⟨p, hp, q, hq, r, hr, hconcat⟩ := h
    rw [Path.pair_eq_ok, Except.ok.injEq] at hr
    -- the pair of the two paths is continued by the reflexivity at `(a, b)`
    obtain ⟨heta, -⟩ := Path.concat_eq_ok.mp hconcat
    have hsources : (p.source, q.source) = (a, b) := Path.refl.inj (hr.trans heta)
    obtain ⟨ha, hb⟩ := Prod.mk.inj hsources
    rw [hp, hq, ← ha, ← hb, Path.refl_source, Path.refl_source]
    exact ⟨rfl, rfl⟩
  · rintro ⟨hf, hg⟩
    exact LawfulOn.pair_concat_eta hf hg

variable [DecidableEq α'] [Display α'] [DecidableEq β'] [Display β']
variable {e : AdjointEquiv α α'} {e' : AdjointEquiv β β'} {z : α × β} {w : α' × β'}

theorem roundTripAt_prod_iff :
    (e.prod e').RoundTripAt z w ↔ e.RoundTripAt z.1 w.1 ∧ e'.RoundTripAt z.2 w.2 := by
  constructor
  · intro h
    obtain ⟨hfun, hfun'⟩ := mapPair_eq_ok_iff.mp h.toFun_eq
    obtain ⟨hinv, hinv'⟩ := mapPair_eq_ok_iff.mp h.inv_eq
    obtain ⟨hretr, hretr'⟩ := pair_concat_eta_eq_ok_iff.mp h.retr_eq
    exact ⟨⟨hfun, hinv, hretr⟩, ⟨hfun', hinv', hretr'⟩⟩
  · rintro ⟨h, h'⟩
    exact ⟨mapPair_eq_ok_iff.mpr ⟨h.toFun_eq, h'.toFun_eq⟩,
      mapPair_eq_ok_iff.mpr ⟨h.inv_eq, h'.inv_eq⟩,
      pair_concat_eta_eq_ok_iff.mpr ⟨h.retr_eq, h'.retr_eq⟩⟩

/-- Between values where the round trips stay, the triangle law of the product can stay only if
those of the factors do: what it concatenates first are the paired round trips at the image and the
paired triangle laws. -/
theorem adj_eq_of_adj_prod (h : (e.prod e').RoundTripAt z w)
    (hsect : e.sect z.1 = .ok (.refl z.1)) (hsect' : e'.sect z.2 = .ok (.refl z.2))
    (hadj : (e.prod e').adj z = .ok (.refl (.refl w))) :
    e.adj z.1 = .ok (.refl (.refl w.1)) ∧ e'.adj z.2 = .ok (.refl (.refl w.2)) := by
  obtain ⟨hleft, hright⟩ := roundTripAt_prod_iff.mp h
  have hadj' : (AdjointInverse.prod e e').adj z = .ok (.refl (.refl w)) := hadj
  simp only [AdjointInverse.prod, hsect, hsect', hleft.toFun_eq, hleft.retr_eq, hright.toFun_eq,
    hright.retr_eq, ok_bind, Path.pair_refl_refl, Path.concatRefl, bind_eq_ok] at hadj'
  obtain ⟨s, hs, t, ht, triangles, htriangles, adjPair, hadjPair, -, -, -, -, whole, hwhole, -⟩ :=
    hadj'
  rw [Path.pair_eq_ok, Except.ok.injEq] at htriangles
  subst htriangles
  have hpaired : (Path.refl (s.source, t.source)).mapM (fun pq => pq.1.pair pq.2) =
      .ok (.refl (.refl (s.source.source, t.source.source))) :=
    Path.mapM_refl (Path.pair_eq_ok s.source t.source)
  rw [hpaired, Except.ok.injEq] at hadjPair
  -- the first concatenation compares the paired triangle laws with the reflexivity at the image
  obtain ⟨heq, -⟩ := Path.concat_eq_ok.mp hwhole
  have hsources : (w.1, w.2) = (s.source.source, t.source.source) :=
    Path.refl.inj (Path.refl.inj (heq.trans hadjPair.symm))
  obtain ⟨hs', ht'⟩ := Prod.mk.inj hsources
  rw [hs, ht, hs', ht', Path.refl_source, Path.refl_source, Path.refl_source, Path.refl_source]
  exact ⟨rfl, rfl⟩

theorem triangleAt_prod_iff :
    (e.prod e').TriangleAt z w ↔ e.TriangleAt z.1 w.1 ∧ e'.TriangleAt z.2 w.2 := by
  constructor
  · intro h
    obtain ⟨hleft, hright⟩ := roundTripAt_prod_iff.mp h.toRoundTripAt
    obtain ⟨hsect, hsect'⟩ := pair_concat_eta_eq_ok_iff.mp h.sect_eq
    obtain ⟨hadj, hadj'⟩ := adj_eq_of_adj_prod h.toRoundTripAt hsect hsect' h.adj_eq
    exact ⟨⟨hleft, hsect, hadj⟩, ⟨hright, hsect', hadj'⟩⟩
  · rintro ⟨h, h'⟩
    refine ⟨roundTripAt_prod_iff.mpr ⟨h.toRoundTripAt, h'.toRoundTripAt⟩, ?_, ?_⟩
    · exact pair_concat_eta_eq_ok_iff.mpr ⟨h.sect_eq, h'.sect_eq⟩
    · exact LawfulOn.adj_prod_eq_ok h.toFun_eq h'.toFun_eq h.sect_eq h'.sect_eq h.retr_eq
        h'.retr_eq h.adj_eq h'.adj_eq

/-! ## Products as a whole -/

/-- The check of a product goes through exactly if, at the components of each listed pair, the laws
hold of the factors. -/
theorem check_prod_eq_ok_iff {zs : List (α × β)} {ws : List (α' × β')} :
    (e.prod e').check zs ws = .ok () ↔
      (∀ z ∈ zs, ∃ w : α' × β', e.TriangleAt z.1 w.1 ∧ e'.TriangleAt z.2 w.2) ∧
      ∀ w ∈ ws, ∃ z : α × β, e.RoundTripAt z.1 w.1 ∧ e'.RoundTripAt z.2 w.2 := by
  have hgiven : (e.prod e').given = none := rfl
  simp only [check_eq_ok_iff, checkSource_eq_ok_iff_of_given hgiven,
    checkTarget_eq_ok_iff_of_given hgiven, triangleAt_prod_iff, roundTripAt_prod_iff]

/-- **Products are checked locally.** Let two equivalences, of which nothing else is known, be
accepted on lists of points. Then their product is accepted on the lists of all pairs of these, so
no assertion breaks. At each listed pair its function and its inverse act componentwise, and they
are inverse to each other there. -/
theorem check_prod_of_check {as : List α} {as' : List α'} {bs : List β} {bs' : List β'}
    (h : e.check as as' = .ok ()) (h' : e'.check bs bs' = .ok ()) :
    (e.prod e').check (as.product bs) (as'.product bs') = .ok () ∧
    (∀ z ∈ as.product bs, ∃ w : α' × β',
      (e.toFun z.1 = .ok w.1 ∧ e'.toFun z.2 = .ok w.2 ∧ (e.prod e').toFun z = .ok w) ∧
      (e.inv w.1 = .ok z.1 ∧ e'.inv w.2 = .ok z.2 ∧ (e.prod e').inv w = .ok z)) ∧
    (∀ w ∈ as'.product bs', ∃ z : α × β,
      (e.inv w.1 = .ok z.1 ∧ e'.inv w.2 = .ok z.2 ∧ (e.prod e').inv w = .ok z) ∧
      (e.toFun z.1 = .ok w.1 ∧ e'.toFun z.2 = .ok w.2 ∧ (e.prod e').toFun z = .ok w)) := by
  obtain ⟨hsource, htarget⟩ := check_eq_ok_iff.mp h
  obtain ⟨hsource', htarget'⟩ := check_eq_ok_iff.mp h'
  have htriangle : ∀ z ∈ as.product bs, ∃ w : α' × β',
      e.TriangleAt z.1 w.1 ∧ e'.TriangleAt z.2 w.2 := by
    intro z hz
    obtain ⟨ha, hb⟩ := List.pair_mem_product.mp hz
    obtain ⟨a', ha'⟩ := exists_triangleAt (hsource z.1 ha)
    obtain ⟨b', hb'⟩ := exists_triangleAt (hsource' z.2 hb)
    exact ⟨(a', b'), ha', hb'⟩
  have hroundTrip : ∀ w ∈ as'.product bs', ∃ z : α × β,
      e.RoundTripAt z.1 w.1 ∧ e'.RoundTripAt z.2 w.2 := by
    intro w hw
    obtain ⟨ha, hb⟩ := List.pair_mem_product.mp hw
    obtain ⟨a, ha'⟩ := exists_roundTripAt (htarget w.1 ha)
    obtain ⟨b, hb'⟩ := exists_roundTripAt (htarget' w.2 hb)
    exact ⟨(a, b), ha', hb'⟩
  refine ⟨check_prod_eq_ok_iff.mpr ⟨htriangle, hroundTrip⟩, fun z hz => ?_, fun w hw => ?_⟩
  · obtain ⟨w, hleft, hright⟩ := htriangle z hz
    have hprod := roundTripAt_prod_iff.mpr ⟨hleft.toRoundTripAt, hright.toRoundTripAt⟩
    exact ⟨w, ⟨hleft.toFun_eq, hright.toFun_eq, hprod.toFun_eq⟩,
      hleft.inv_eq, hright.inv_eq, hprod.inv_eq⟩
  · obtain ⟨z, hleft, hright⟩ := hroundTrip w hw
    have hprod := roundTripAt_prod_iff.mpr ⟨hleft, hright⟩
    exact ⟨z, ⟨hleft.inv_eq, hright.inv_eq, hprod.inv_eq⟩,
      hleft.toFun_eq, hright.toFun_eq, hprod.toFun_eq⟩

/-- An equivalence whose function breaks an assertion at `false`, and one that takes three numbers
to two booleans and is accepted on two of the numbers. Their product is accepted on the pairs of
the listed points, and leads back from one of these; elsewhere it is refused or breaks an
assertion. -/
theorem check_prod_of_check_listed :
    ∃ (e : AdjointEquiv Bool Bool) (e' : AdjointEquiv (Fin 3) Bool),
      e.check [true] [true] = .ok () ∧ e'.check [0, 1] [true] = .ok () ∧
      (e.prod e').check [(true, 0), (true, 1)] [(true, true)] = .ok () ∧
      (∃ w, (e.prod e').toFun (true, 1) = .ok w ∧ (e.prod e').inv w = .ok (true, 1)) ∧
      (e.prod e').check [(true, 2)] [] ≠ .ok () ∧
      (e.prod e').toFun (false, 1) = .error (.remark "false") := by
  let e : AdjointEquiv Bool Bool :=
    ofParts (fun b => if b then .ok b else .error (.remark "false"))
      (identity Bool).toAdjointInverse
  let e' : AdjointEquiv (Fin 3) Bool :=
    ofRoundTrips (fun n => .ok (n != 0)) (fun b => .ok (if b then 1 else 0))
      (fun b => .ok (.refl b)) (fun n => .ok (.refl n))
  have h : e.check [true] [true] = .ok () := rfl
  have h' : e'.check [0, 1] [true] = .ok () := rfl
  obtain ⟨hcheck, hsource, -⟩ := check_prod_of_check h h'
  obtain ⟨w, ⟨-, -, hfun⟩, -, -, hinv⟩ := hsource (true, 1) (by decide)
  exact ⟨e, e', h, h', hcheck, ⟨w, hfun, hinv⟩, nofun, rfl⟩

end AdjointEquiv

end PathAlgebra
