import PathAlgebra.Equiv.Check
import PathAlgebra.Equiv.Pair

set_option autoImplicit false

/-! # Lawful equivalences

An equivalence consists of five functions of which nothing is assumed. It is lawful on a domain
and a codomain, which are given as predicates, if on these the function and its inverse are
inverse to each other and all paths are the reflexivities that the laws ask for. In particular no
assertion breaks there.

The laws say nothing of values outside the domain and the codomain. A predicate that holds
everywhere gives lawfulness without restriction; others are for types with values that no
operation produces, such as tables of the wrong length.

All operations on equivalences keep lawfulness. Those that go through `ofRoundTrips` need the
round trips alone (`LawfulRoundTrips`): all paths that the derived round trip concatenates are
reflexivities at one value.
-/

namespace PathAlgebra

variable {α α' β β' γ : Type}

theorem mapPair_eq_ok {f : α → Asserted α'} {g : β → Asserted β'} {a : α} {a' : α'} {b : β}
    {b' : β'} (hf : f a = .ok a') (hg : g b = .ok b') : mapPair f g (a, b) = .ok (a', b') := by
  simp only [mapPair, hf, hg, ok_bind]
  rfl

/-! ## The paths of lawful equivalences -/

namespace Path

theorem mapM_refl {f : α → Asserted β} {a : α} {b : β} (h : f a = .ok b) :
    (refl a).mapM f = .ok (refl b) := by
  rw [mapM, h]
  rfl

theorem concat_refl_self [DecidableEq α] [Display α] (x : α) :
    (refl x).concat (refl x) = .ok (refl x) :=
  concat_eq_ok.mpr ⟨rfl, rfl⟩

/-- Between two values only the reflexivity is accepted, and only if they are equal. -/
theorem check_eq_ok_iff [DecidableEq α] [Display α] {p : Path α} {left right : α} {u : Unit} :
    p.check left right = .ok u ↔ right = left ∧ p = .refl left := by
  cases p with
  | refl x =>
      rw [check_eq_ok, refl.injEq]
      show x = left ∧ x = right ↔ _
      constructor
      · rintro ⟨rfl, rfl⟩
        exact ⟨rfl, rfl⟩
      · rintro ⟨rfl, rfl⟩
        exact ⟨rfl, rfl⟩

theorem check_refl_self [DecidableEq α] [Display α] (x : α) : (refl x).check x x = .ok () :=
  check_eq_ok_iff.mpr ⟨rfl, rfl⟩

theorem pair_refl_refl [DecidableEq α] [Display α] [DecidableEq β] [Display β] (x : α) (y : β) :
    (refl x).pair (refl y) = .ok (refl (x, y)) :=
  pair_eq_ok _ _

end Path

/-! ## Lawfulness -/

/-- A function and its inverse are inverse to each other, and both round trips stay where they
are, between the values of `P` and those of `Q`. -/
structure LawfulRoundTrips (P : α → Prop) (Q : β → Prop) (toFun : α → Asserted β)
    (inv : β → Asserted α) (retr : β → Asserted (Path β)) (sect : α → Asserted (Path α)) :
    Prop where
  /-- The laws at a value of the domain. -/
  source : ∀ a, P a → ∃ b, Q b ∧ toFun a = .ok b ∧ inv b = .ok a ∧ sect a = .ok (.refl a)
  /-- The laws at a value of the codomain. -/
  target : ∀ b, Q b → ∃ a, P a ∧ inv b = .ok a ∧ toFun a = .ok b ∧ retr b = .ok (.refl b)

/-- An equivalence is lawful between the values of `P` and those of `Q`. -/
structure AdjointEquiv.LawfulOn (P : α → Prop) (Q : β → Prop) (e : AdjointEquiv α β) :
    Prop where
  /-- The laws at a value of the domain. -/
  source : ∀ a, P a → ∃ b, Q b ∧ e.toFun a = .ok b ∧ e.inv b = .ok a ∧
    e.sect a = .ok (.refl a) ∧ e.adj a = .ok (.refl (.refl b))
  /-- The laws at a value of the codomain. -/
  target : ∀ b, Q b → ∃ a, P a ∧ e.inv b = .ok a ∧ e.toFun a = .ok b ∧
    e.retr b = .ok (.refl b) ∧ ∀ given ∈ e.given, given b = .ok (.refl b)

namespace LawfulRoundTrips

variable {P : α → Prop} {Q : β → Prop} {toFun : α → Asserted β} {inv : β → Asserted α}
  {retr : β → Asserted (Path β)} {sect : α → Asserted (Path α)}

/-- All that is known at the inverse image of a value of the codomain. -/
theorem at_target (h : LawfulRoundTrips P Q toFun inv retr sect) {b : β} (hb : Q b) :
    ∃ a, P a ∧ inv b = .ok a ∧ toFun a = .ok b ∧ retr b = .ok (.refl b) ∧
      sect a = .ok (.refl a) := by
  obtain ⟨a, ha, hinv, hfun, hretr⟩ := h.target b hb
  obtain ⟨_, -, -, -, hsect⟩ := h.source a ha
  exact ⟨a, ha, hinv, hfun, hretr, hsect⟩

theorem symm (h : LawfulRoundTrips P Q toFun inv retr sect) :
    LawfulRoundTrips Q P inv toFun sect retr := by
  constructor
  · intro b hb
    exact h.target b hb
  · intro a ha
    exact h.source a ha

variable [DecidableEq β] [Display β]

/-- The derived round trip concatenates three reflexivities at `b`. -/
theorem coherentRetr_eq_ok (h : LawfulRoundTrips P Q toFun inv retr sect) {b : β} (hb : Q b) :
    AdjointInverse.coherentRetr toFun inv retr sect b = .ok (.refl b) := by
  obtain ⟨a, -, hinv, hfun, hretr, hsect⟩ := h.at_target hb
  -- `f (inv b)` is `b`, so the given round trip is taken twice at `b`
  simp only [AdjointInverse.coherentRetr, hinv, hfun, hretr, hsect, ok_bind, Path.inverse_eq,
    Path.mapM_refl hfun, Path.concat_refl_self]

/-- Lawful round trips complete to a lawful equivalence. -/
theorem lawfulOn (h : LawfulRoundTrips P Q toFun inv retr sect) :
    (AdjointEquiv.ofRoundTrips toFun inv retr sect).LawfulOn P Q := by
  constructor
  · intro a ha
    obtain ⟨b, hb, hfun, hinv, hsect⟩ := h.source a ha
    refine ⟨b, hb, hfun, hinv, hsect, ?_⟩
    show (do
      let whole ← AdjointInverse.coherentRetr toFun inv retr sect (← toFun a)
      let image ← (← sect a).mapM toFun
      Path.unique whole image) = _
    simp only [hfun, h.coherentRetr_eq_ok hb, hsect, ok_bind, Path.mapM_refl hfun]
    exact Path.unique_eq_ok.mpr ⟨rfl, rfl⟩
  · intro b hb
    obtain ⟨a, ha, hinv, hfun, hretr⟩ := h.target b hb
    refine ⟨a, ha, hinv, hfun, h.coherentRetr_eq_ok hb, ?_⟩
    rintro given ⟨⟩
    exact hretr

end LawfulRoundTrips

/-! ## The operations on equivalences -/

namespace AdjointEquiv.LawfulOn

variable {P : α → Prop} {P' : α' → Prop} {Q : β → Prop} {Q' : β' → Prop} {R : γ → Prop}

/-- The round trips of a lawful equivalence, the given one where there is one. -/
theorem roundTrips {e : AdjointEquiv α β} (h : e.LawfulOn P Q) :
    LawfulRoundTrips P Q e.toFun e.inv e.givenRetr e.sect := by
  constructor
  · intro a ha
    obtain ⟨b, hb, hfun, hinv, hsect, -⟩ := h.source a ha
    exact ⟨b, hb, hfun, hinv, hsect⟩
  · intro b hb
    obtain ⟨a, ha, hinv, hfun, hretr, hgiven⟩ := h.target b hb
    refine ⟨a, ha, hinv, hfun, ?_⟩
    rw [givenRetr]
    cases hg : e.given with
    | none => exact hretr
    | some given => exact hgiven given hg

theorem inverse [DecidableEq α] [Display α] {e : AdjointEquiv α β} (h : e.LawfulOn P Q) :
    e.inverse.LawfulOn Q P :=
  h.roundTrips.symm.lawfulOn

/-- The inner round trip stays at the value between the two equivalences, so its image stays as
the outer one does. -/
theorem compose [DecidableEq α] [Display α] [DecidableEq γ] [Display γ] {e : AdjointEquiv α β}
    {e' : AdjointEquiv β γ} (h : e.LawfulOn P Q) (h' : e'.LawfulOn Q R) :
    (e.compose e').LawfulOn P R := by
  -- only the round trips are needed, at the values met on the way there and back
  refine LawfulRoundTrips.lawfulOn ⟨fun a ha => ?_, fun c hc => ?_⟩
  · obtain ⟨b, hb, hfun, hinv, hsect, -⟩ := h.source a ha
    obtain ⟨c, hc, hfun', hinv', hsect', -⟩ := h'.source b hb
    refine ⟨c, hc, ?_, ?_, ?_⟩
    · simp only [hfun, hfun', ok_bind]
    · simp only [hinv, hinv', ok_bind]
    · simp only [hfun, hsect, hsect', ok_bind, Path.mapM_refl hinv, Path.concat_refl_self]
  · obtain ⟨b, hb, hinv', hfun', hretr', -⟩ := h'.target c hc
    obtain ⟨a, ha, hinv, hfun, hretr, -⟩ := h.target b hb
    refine ⟨a, ha, ?_, ?_, ?_⟩
    · simp only [hinv, hinv', ok_bind]
    · simp only [hfun, hfun', ok_bind]
    · simp only [hinv', hretr, hretr', ok_bind, Path.mapM_refl hfun', Path.concat_refl_self]

theorem identity (P : α → Prop) : (AdjointEquiv.identity α).LawfulOn P P := by
  constructor
  · intro a ha
    exact ⟨a, ha, rfl, rfl, rfl, rfl⟩
  · intro a ha
    exact ⟨a, ha, rfl, rfl, rfl, nofun⟩

theorem swap (P : α → Prop) (Q : β → Prop) :
    (AdjointEquiv.swap α β).LawfulOn (fun z => P z.1 ∧ Q z.2) (fun w => Q w.1 ∧ P w.2) := by
  constructor
  · rintro ⟨a, b⟩ ⟨ha, hb⟩
    exact ⟨(b, a), ⟨hb, ha⟩, rfl, rfl, rfl, rfl⟩
  · rintro ⟨b, a⟩ ⟨hb, ha⟩
    exact ⟨(a, b), ⟨ha, hb⟩, rfl, rfl, rfl, nofun⟩

section

variable [DecidableEq α] [Display α] [DecidableEq β] [Display β]

theorem paths (P : α → Prop) (Q : β → Prop) :
    (AdjointEquiv.paths : AdjointEquiv (Path α × Path β) (Path (α × β))).LawfulOn
      (fun pq => P pq.1.source ∧ Q pq.2.source) (fun r => P r.source.1 ∧ Q r.source.2) := by
  constructor
  · rintro ⟨⟨a⟩, ⟨b⟩⟩ ⟨ha, hb⟩
    exact ⟨.refl (a, b), ⟨ha, hb⟩, Path.pair_refl_refl a b, rfl, rfl, rfl⟩
  · rintro ⟨⟨a, b⟩⟩ ⟨ha, hb⟩
    exact ⟨(.refl a, .refl b), ⟨ha, hb⟩, rfl, Path.pair_refl_refl a b, rfl, nofun⟩

variable [DecidableEq α'] [Display α'] [DecidableEq β'] [Display β']

/-- The round trips of two components that stay give a round trip of the pair that stays. -/
theorem pair_concat_eta {f : α → Asserted (Path α)} {g : β → Asserted (Path β)} {a : α} {b : β}
    (hf : f a = .ok (.refl a)) (hg : g b = .ok (.refl b)) :
    (do
      let p ← (← f a).pair (← g b)
      p.concat (Path.pairEta (a, b))) = .ok (.refl (a, b)) := by
  simp only [hf, hg, ok_bind, Path.pair_refl_refl, Path.pairEta, Path.concat_refl_self]

/-- All four paths between paths in the triangle law of a pair are reflexivities at the
reflexivity of its image. -/
theorem adj_prod_eq_ok {e : AdjointEquiv α α'} {e' : AdjointEquiv β β'} {a : α} {a' : α'} {b : β}
    {b' : β'} (hfun : e.toFun a = .ok a') (hfun' : e'.toFun b = .ok b')
    (hsect : e.sect a = .ok (.refl a)) (hsect' : e'.sect b = .ok (.refl b))
    (hretr : e.retr a' = .ok (.refl a')) (hretr' : e'.retr b' = .ok (.refl b'))
    (hadj : e.adj a = .ok (.refl (.refl a'))) (hadj' : e'.adj b = .ok (.refl (.refl b'))) :
    (e.prod e').adj (a, b) = .ok (.refl (.refl (a', b'))) := by
  have htriangles : (Path.refl (Path.refl a', Path.refl b')).mapM (fun pq => pq.1.pair pq.2) =
      .ok (.refl (.refl (a', b'))) :=
    Path.mapM_refl (Path.pair_refl_refl a' b')
  have hnatural : Path.mapPairNatural e.toFun e'.toFun (.refl a) (.refl b) =
      .ok (.refl (.refl (a', b'))) := by
    rw [Path.mapPairNatural, hfun, hfun']
    rfl
  have hunit : (Path.refl (Path.refl (a, b))).mapM (fun r => r.mapM (mapPair e.toFun e'.toFun)) =
      .ok (.refl (.refl (a', b'))) :=
    Path.mapM_refl (Path.mapM_refl (mapPair_eq_ok hfun hfun'))
  -- the first path is the reflexivity at the paired round trips, as `concatRefl` gives it
  show (AdjointInverse.prod e e').adj (a, b) = _
  simp only [AdjointInverse.prod, hsect, hsect', hfun, hfun', hretr, hretr', hadj, hadj', ok_bind,
    Path.pair_refl_refl, Path.concatRefl, Path.inverse_eq, htriangles, hnatural, hunit,
    Path.concat_refl_self]

theorem prod {e : AdjointEquiv α α'} {e' : AdjointEquiv β β'} (h : e.LawfulOn P P')
    (h' : e'.LawfulOn Q Q') :
    (e.prod e').LawfulOn (fun z => P z.1 ∧ Q z.2) (fun w => P' w.1 ∧ Q' w.2) := by
  constructor
  · rintro ⟨a, b⟩ ⟨ha, hb⟩
    obtain ⟨a', ha', hfun, hinv, hsect, hadj⟩ := h.source a ha
    obtain ⟨b', hb', hfun', hinv', hsect', hadj'⟩ := h'.source b hb
    obtain ⟨_, -, -, -, hretr, -⟩ := h.target a' ha'
    obtain ⟨_, -, -, -, hretr', -⟩ := h'.target b' hb'
    exact ⟨(a', b'), ⟨ha', hb'⟩, mapPair_eq_ok hfun hfun', mapPair_eq_ok hinv hinv',
      pair_concat_eta hsect hsect', adj_prod_eq_ok hfun hfun' hsect hsect' hretr hretr' hadj hadj'⟩
  · rintro ⟨a', b'⟩ ⟨ha', hb'⟩
    obtain ⟨a, ha, hinv, hfun, hretr, -⟩ := h.target a' ha'
    obtain ⟨b, hb, hinv', hfun', hretr', -⟩ := h'.target b' hb'
    exact ⟨(a, b), ⟨ha, hb⟩, mapPair_eq_ok hinv hinv', mapPair_eq_ok hfun hfun',
      pair_concat_eta hretr hretr', nofun⟩

end

end AdjointEquiv.LawfulOn

/-! ## Checking lawful equivalences -/

namespace AdjointEquiv

variable {e : AdjointEquiv α β} {a : α} {b : β}

theorem checkSection_eq_ok [DecidableEq α] [Display α] (hinv : e.inv b = .ok a) :
    e.checkSection (.refl a) b a = .ok () := by
  simp only [checkSection, hinv, Outcome.liftM_asserted_ok, ok_bind, Path.check_refl_self,
    Outcome.liftM_fallible_ok, Outcome.within_ok]

theorem checkRoundTrip_eq_ok [DecidableEq β] [Display β] {retr : β → Asserted (Path β)}
    (hinv : e.inv b = .ok a) (hfun : e.toFun a = .ok b) (hretr : retr b = .ok (.refl b)) :
    e.checkRoundTrip retr b = .ok () := by
  simp only [checkRoundTrip, hretr, hinv, hfun, Outcome.liftM_asserted_ok, ok_bind,
    Path.check_refl_self, Outcome.liftM_fallible_ok]

namespace LawfulOn

variable {P : α → Prop} {Q : β → Prop}
variable [DecidableEq α] [Display α] [DecidableEq β] [Display β]

/-- The image of the inverse image of `b` is `b` itself, so the given round trip is checked twice
at the same value. -/
theorem checkTarget_eq_ok (h : e.LawfulOn P Q) (hb : Q b) : e.checkTarget b = .ok () := by
  obtain ⟨a, ha, hinv, hfun, hretr, hgiven⟩ := h.target b hb
  obtain ⟨_, -, -, -, hsect, -⟩ := h.source a ha
  have hretraction := checkRoundTrip_eq_ok hinv hfun hretr
  rw [checkTarget]
  cases hg : e.given with
  | none =>
      simp only [hretraction, Outcome.within_ok]
  | some given =>
      have hround := checkRoundTrip_eq_ok hinv hfun (hgiven given hg)
      have hchecked : e.checkGiven given b = .ok () := by
        simp only [checkGiven, hinv, hfun, hsect, Outcome.liftM_asserted_ok, ok_bind, hround,
          Outcome.within_ok, checkSection_eq_ok hinv]
      simp only [hchecked, hretraction, Outcome.within_ok, ok_bind]

theorem checkSource_eq_ok (h : e.LawfulOn P Q) (ha : P a) : e.checkSource a = .ok () := by
  obtain ⟨b, hb, hfun, hinv, hsect, hadj⟩ := h.source a ha
  obtain ⟨_, -, -, -, hretr, -⟩ := h.target b hb
  simp only [checkSource, hfun, hsect, hadj, hretr, Outcome.liftM_asserted_ok, ok_bind,
    checkSection_eq_ok hinv, h.checkTarget_eq_ok hb, Path.mapM_refl hfun, Path.check_refl_self,
    Outcome.liftM_fallible_ok, Outcome.within_ok]

/-- Checking a lawful equivalence goes through on all lists of values. -/
theorem check_eq_ok (h : e.LawfulOn P Q) {as : List α} {bs : List β} (has : ∀ a ∈ as, P a)
    (hbs : ∀ b ∈ bs, Q b) : e.check as bs = .ok () := by
  have hsources : as.forM e.checkSource = .ok () :=
    forM_eq_ok.mpr fun a ha => h.checkSource_eq_ok (has a ha)
  rw [check, hsources]
  exact forM_eq_ok.mpr fun b hb => h.checkTarget_eq_ok (hbs b hb)

end LawfulOn

end AdjointEquiv

end PathAlgebra
