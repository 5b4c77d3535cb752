import Mathlib.Data.List.Perm.Subperm
import PathAlgebra.Proofs.Equiv.Lawful

set_option autoImplicit false

/-! # What checking an equivalence decides

The functions of an equivalence are arbitrary: they may break assertions, and inverse data made
for one function may be joined to another. All that is known of an accepted equivalence is what
the check has seen, so each part of the check is given here by the laws that it amounts to, with
no assumption on the equivalence. A path is accepted between two values only if these are equal
and it is the reflexivity at them, hence every law that is checked is an equation.

A point of the codomain is checked where it is listed and where it is the image of a listed
point of the domain. On lists of all values both come to the same, and the check goes through
exactly if the equivalence is lawful (`check_eq_ok_iff_lawfulOn`).
-/

namespace PathAlgebra

variable {α β : Type}

namespace AdjointEquiv

variable {e : AdjointEquiv α β}

/-! ## The laws that each part of the check amounts to -/

theorem checkSection_eq_ok_iff [DecidableEq α] [Display α] {p : Path α} {b : β} {a : α}
    {u : Unit} : e.checkSection p b a = .ok u ↔ e.inv b = .ok a ∧ p = .refl a := by
  simp only [checkSection, Outcome.within_eq_ok, bind_eq_ok, liftM_asserted_eq_ok,
    liftM_fallible_eq_ok, Path.check_eq_ok_iff]
  constructor
  · rintro ⟨_, hinv, rfl, hp⟩
    exact ⟨hinv, hp⟩
  · rintro ⟨hinv, hp⟩
    exact ⟨a, hinv, rfl, hp⟩

theorem checkRoundTrip_eq_ok_iff [DecidableEq β] [Display β] {retr : β → Asserted (Path β)}
    {b : β} {u : Unit} :
    e.checkRoundTrip retr b = .ok u ↔
      ∃ a, e.inv b = .ok a ∧ e.toFun a = .ok b ∧ retr b = .ok (.refl b) := by
  simp only [checkRoundTrip, bind_eq_ok, liftM_asserted_eq_ok, liftM_fallible_eq_ok,
    Path.check_eq_ok_iff]
  constructor
  · rintro ⟨_, hretr, a, hinv, _, hfun, rfl, rfl⟩
    exact ⟨a, hinv, hfun, hretr⟩
  · rintro ⟨a, hinv, hfun, hretr⟩
    exact ⟨_, hretr, a, hinv, b, hfun, rfl, rfl⟩

variable [DecidableEq α] [Display α] [DecidableEq β] [Display β]

/-- The given round trip is checked at `b` first, which shows that the image of the inverse image
of `b` is `b` again; so it is looked at there only. -/
theorem checkGiven_eq_ok_iff {given : β → Asserted (Path β)} {b : β} {u : Unit} :
    e.checkGiven given b = .ok u ↔
      ∃ a, e.inv b = .ok a ∧ e.toFun a = .ok b ∧ given b = .ok (.refl b) ∧
        e.sect a = .ok (.refl a) := by
  simp only [checkGiven, bind_eq_ok, liftM_asserted_eq_ok, Outcome.within_eq_ok,
    checkRoundTrip_eq_ok_iff, checkSection_eq_ok_iff]
  constructor
  · rintro ⟨a, hinv, b', hfun, _, ⟨a', hinv', hfun', hgiven⟩, _, -, p, hsect, -, rfl⟩
    -- the check takes the inverse image of `b` more than once
    cases hinv.symm.trans hinv'
    exact ⟨a, hinv, hfun', hgiven, hsect⟩
  · rintro ⟨a, hinv, hfun, hgiven, hsect⟩
    have hround : ∃ a, e.inv b = .ok a ∧ e.toFun a = .ok b ∧ given b = .ok (.refl b) :=
      ⟨a, hinv, hfun, hgiven⟩
    exact ⟨a, hinv, b, hfun, (), hround, (), hround, .refl a, hsect, hinv, rfl⟩

/-- Where a round trip was given, that of the domain is checked at the inverse image as well. -/
theorem checkTarget_eq_ok_iff {b : β} {u : Unit} :
    e.checkTarget b = .ok u ↔
      ∃ a, e.inv b = .ok a ∧ e.toFun a = .ok b ∧ e.retr b = .ok (.refl b) ∧
        ∀ given ∈ e.given, given b = .ok (.refl b) ∧ e.sect a = .ok (.refl a) := by
  rw [checkTarget]
  cases e.given with
  | none =>
      simp only [Outcome.within_eq_ok, checkRoundTrip_eq_ok_iff]
      constructor
      · rintro ⟨a, hinv, hfun, hretr⟩
        exact ⟨a, hinv, hfun, hretr, fun given hg => absurd hg (Option.not_mem_none given)⟩
      · rintro ⟨a, hinv, hfun, hretr, -⟩
        exact ⟨a, hinv, hfun, hretr⟩
  | some given =>
      simp only [bind_eq_ok, Outcome.within_eq_ok, checkRoundTrip_eq_ok_iff, checkGiven_eq_ok_iff]
      constructor
      · rintro ⟨_, ⟨a, hinv, hfun, hgiven, hsect⟩, a', hinv', -, hretr⟩
        refine ⟨a, hinv, hfun, hretr, ?_⟩
        rintro _ ⟨⟩
        exact ⟨hgiven, hsect⟩
      · rintro ⟨a, hinv, hfun, hretr, hgiven⟩
        obtain ⟨hgiven, hsect⟩ := hgiven given rfl
        exact ⟨(), ⟨a, hinv, hfun, hgiven, hsect⟩, a, hinv, hfun, hretr⟩

theorem checkSource_eq_ok_iff {a : α} {u : Unit} :
    e.checkSource a = .ok u ↔
      ∃ b, e.toFun a = .ok b ∧ e.inv b = .ok a ∧ e.sect a = .ok (.refl a) ∧
        e.adj a = .ok (.refl (.refl b)) ∧ e.checkTarget b = .ok () := by
  simp only [checkSource, bind_eq_ok, liftM_asserted_eq_ok, liftM_fallible_eq_ok,
    Outcome.within_eq_ok, checkSection_eq_ok_iff, Path.check_eq_ok_iff]
  constructor
  · rintro ⟨b, hfun, _, hsect, _, ⟨hinv, rfl⟩, _, htarget, triangle, hadj, whole, -, image, himage,
      rfl, rfl⟩
    -- the section law has shown that the path which is mapped is the reflexivity at `a`
    rw [Path.mapM_refl hfun, Except.ok.injEq] at himage
    subst himage
    exact ⟨b, hfun, hinv, hsect, hadj, htarget⟩
  · rintro ⟨b, hfun, hinv, hsect, hadj, htarget⟩
    -- the triangle is compared with the round trip at `b`, which the target has been checked for
    obtain ⟨_, -, -, hretr, -⟩ := checkTarget_eq_ok_iff.mp htarget
    exact ⟨b, hfun, .refl a, hsect, (), ⟨hinv, rfl⟩, (), htarget, _, hadj, .refl b, hretr, .refl b,
      Path.mapM_refl hfun, rfl, rfl⟩

theorem check_eq_ok_iff {as : List α} {bs : List β} {u : Unit} :
    e.check as bs = .ok u ↔
      (∀ a ∈ as, e.checkSource a = .ok ()) ∧ ∀ b ∈ bs, e.checkTarget b = .ok () := by
  simp only [check, bind_eq_ok, forM_eq_ok, exists_const]

/-! ## Lists of all values -/

section

variable {P : α → Prop} {Q : β → Prop} {as : List α} {bs : List β}

/-- An accepted equivalence is lawful on the values that are listed, if its function and its
inverse do not lead out of these. -/
theorem lawfulOn_of_check_eq_ok (has : ∀ a, P a → a ∈ as) (hbs : ∀ b, Q b → b ∈ bs)
    (hfun : ∀ a b, P a → e.toFun a = .ok b → Q b) (hinv : ∀ b a, Q b → e.inv b = .ok a → P a)
    (h : e.check as bs = .ok ()) : e.LawfulOn P Q := by
  obtain ⟨hsource, htarget⟩ := check_eq_ok_iff.mp h
  constructor
  · intro a ha
    obtain ⟨b, hb, hba, hsect, hadj, -⟩ := checkSource_eq_ok_iff.mp (hsource a (has a ha))
    exact ⟨b, hfun a b ha hb, hb, hba, hsect, hadj⟩
  · intro b hb
    obtain ⟨a, ha, hab, hretr, hgiven⟩ := checkTarget_eq_ok_iff.mp (htarget b (hbs b hb))
    exact ⟨a, hinv b a hb ha, ha, hab, hretr, fun given hg => (hgiven given hg).1⟩

/-- On the lists of all values that occur, exactly the lawful equivalences are accepted. -/
theorem check_eq_ok_iff_lawfulOn (has : ∀ a, a ∈ as ↔ P a) (hbs : ∀ b, b ∈ bs ↔ Q b)
    (hfun : ∀ a b, P a → e.toFun a = .ok b → Q b) (hinv : ∀ b a, Q b → e.inv b = .ok a → P a) :
    e.check as bs = .ok () ↔ e.LawfulOn P Q := by
  constructor
  · intro h
    exact lawfulOn_of_check_eq_ok (fun a => (has a).mpr) (fun b => (hbs b).mpr) hfun hinv h
  · intro h
    exact h.check_eq_ok (fun a => (has a).mp) fun b => (hbs b).mp

end

end AdjointEquiv

/-! ## The number of values -/

/-- Every value of the domain is the inverse image of some value of the codomain, so there are no
more of them. -/
theorem LawfulRoundTrips.length_le {P : α → Prop} {Q : β → Prop} {toFun : α → Asserted β}
    {inv : β → Asserted α} {retr : β → Asserted (Path β)} {sect : α → Asserted (Path α)}
    (h : LawfulRoundTrips P Q toFun inv retr sect) {as : List α} {bs : List β}
    (has : ∀ a ∈ as, P a) (hbs : ∀ b, Q b → b ∈ bs) (hnodup : as.Nodup) :
    as.length ≤ bs.length := by
  -- the inverse images of the listed values, of which there are at most as many as these
  have hsub : as ⊆ bs.filterMap fun b => (inv b).toOption := by
    intro a ha
    obtain ⟨b, hb, -, hinv, -⟩ := h.source a (has a ha)
    exact List.mem_filterMap.mpr ⟨b, hbs b hb, by rw [hinv]; rfl⟩
  exact Nat.le_trans (hnodup.subperm hsub).length_le (List.length_filterMap_le _ bs)

/-- A lawful equivalence is between equally many values. -/
theorem AdjointEquiv.LawfulOn.length_eq {P : α → Prop} {Q : β → Prop} {e : AdjointEquiv α β}
    (h : e.LawfulOn P Q) {as : List α} {bs : List β} (has : ∀ a, a ∈ as ↔ P a)
    (hbs : ∀ b, b ∈ bs ↔ Q b) (has' : as.Nodup) (hbs' : bs.Nodup) : as.length = bs.length := by
  have hle := h.roundTrips.length_le (fun a => (has a).mp) (fun b => (hbs b).mpr) has'
  have hge := h.roundTrips.symm.length_le (fun b => (hbs b).mp) (fun a => (has a).mpr) hbs'
  exact Nat.le_antisymm hle hge

namespace AdjointEquiv

open Enumerated (elements cardinality)

theorem lawfulOn_univ_iff {e : AdjointEquiv α β} :
    e.LawfulOn (fun _ => True) (fun _ => True) ↔
      (∀ a, ∃ b, e.toFun a = .ok b ∧ e.inv b = .ok a ∧ e.sect a = .ok (.refl a) ∧
        e.adj a = .ok (.refl (.refl b))) ∧
      ∀ b, ∃ a, e.inv b = .ok a ∧ e.toFun a = .ok b ∧ e.retr b = .ok (.refl b) ∧
        ∀ given ∈ e.given, given b = .ok (.refl b) := by
  constructor
  · intro h
    refine ⟨fun a => ?_, fun b => ?_⟩
    · obtain ⟨b, -, hlaws⟩ := h.source a trivial
      exact ⟨b, hlaws⟩
    · obtain ⟨a, -, hlaws⟩ := h.target b trivial
      exact ⟨a, hlaws⟩
  · rintro ⟨hsource, htarget⟩
    constructor
    · intro a _
      obtain ⟨b, hlaws⟩ := hsource a
      exact ⟨b, trivial, hlaws⟩
    · intro b _
      obtain ⟨a, hlaws⟩ := htarget b
      exact ⟨a, trivial, hlaws⟩

/-- **Checking decides lawfulness.** Let an equivalence consist of any functions, which may break
assertions and need not belong together. On finite carriers of which every value is listed, the
check goes through exactly if all laws hold at all values; and if no value is listed twice, the
carriers then have equally many. The same holds where only some values of a type occur, as the
well-formed tables, on lists of those that do. -/
theorem checkAll_decides_laws [DecidableEq α] [Display α] [DecidableEq β] [Display β]
    (e : AdjointEquiv α β) :
    (∀ [Enumerated α] [Enumerated β],
      (∀ a : α, a ∈ (elements : List α)) → (∀ b : β, b ∈ (elements : List β)) →
      (e.checkAll = .ok () ↔
        (∀ a, ∃ b, e.toFun a = .ok b ∧ e.inv b = .ok a ∧ e.sect a = .ok (.refl a) ∧
          e.adj a = .ok (.refl (.refl b))) ∧
        ∀ b, ∃ a, e.inv b = .ok a ∧ e.toFun a = .ok b ∧ e.retr b = .ok (.refl b) ∧
          ∀ given ∈ e.given, given b = .ok (.refl b)) ∧
      ((elements : List α).Nodup → (elements : List β).Nodup → e.checkAll = .ok () →
        cardinality α = cardinality β)) ∧
    ∀ {P : α → Prop} {Q : β → Prop} {as : List α} {bs : List β},
      (∀ a, a ∈ as ↔ P a) → (∀ b, b ∈ bs ↔ Q b) →
      (∀ a b, P a → e.toFun a = .ok b → Q b) → (∀ b a, Q b → e.inv b = .ok a → P a) →
      (e.check as bs = .ok () ↔ e.LawfulOn P Q) ∧
      (as.Nodup → bs.Nodup → e.check as bs = .ok () → as.length = bs.length) := by
  constructor
  · intro _ _ hα hβ
    have hall : ∀ a : α, a ∈ (elements : List α) ↔ True := fun a => iff_true_intro (hα a)
    have hall' : ∀ b : β, b ∈ (elements : List β) ↔ True := fun b => iff_true_intro (hβ b)
    have hdecides : e.checkAll = .ok () ↔ e.LawfulOn (fun _ => True) (fun _ => True) :=
      check_eq_ok_iff_lawfulOn hall hall' (fun _ _ _ _ => trivial) fun _ _ _ _ => trivial
    refine ⟨hdecides.trans lawfulOn_univ_iff, fun hnodup hnodup' h => ?_⟩
    exact (hdecides.mp h).length_eq hall hall' hnodup hnodup'
  · intro P Q as bs has hbs hfun hinv
    have hdecides := check_eq_ok_iff_lawfulOn has hbs hfun hinv
    exact ⟨hdecides, fun hnodup hnodup' h => (hdecides.mp h).length_eq has hbs hnodup hnodup'⟩

/-- Negation joined to the inverse data of the identity is refused, and the identity with a
function that breaks an assertion at `false` is accepted where only `true` occurs. -/
theorem checkAll_decides_laws_bool :
    (∀ b : Bool, b ∈ (elements : List Bool)) ∧
    (ofParts (fun b => .ok !b) (identity Bool).toAdjointInverse).checkAll ≠ .ok () ∧
    (ofParts (fun b => if b then .ok b else .error (.remark "false"))
      (identity Bool).toAdjointInverse).check [true] [true] = .ok () := by
  have hmem : ∀ b : Bool, b ∈ (elements : List Bool) := by decide
  refine ⟨hmem, fun h => ?_, ?_⟩
  · obtain ⟨hlaws, -⟩ := ((checkAll_decides_laws _).1 hmem hmem).1.mp h
    obtain ⟨b, hfun, hinv, -⟩ := hlaws true
    cases hfun
    cases hinv
  · have honly : ∀ b, b ∈ [true] ↔ b = true := fun b => List.mem_singleton
    refine ((checkAll_decides_laws _).2 honly honly ?_ ?_).1.mpr ⟨?_, ?_⟩
    · rintro _ b rfl ⟨⟩
      rfl
    · rintro _ a rfl ⟨⟩
      rfl
    · rintro _ rfl
      exact ⟨true, rfl, rfl, rfl, rfl, rfl⟩
    · rintro _ rfl
      exact ⟨true, rfl, rfl, rfl, rfl, nofun⟩

end AdjointEquiv

end PathAlgebra
