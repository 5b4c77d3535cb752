import PathAlgebra.Proofs.Equiv.RoundTrips

set_option autoImplicit false

/-! # Checking composites of given round trips

A composite is made from round trips, so what is given to it are two functions and two round trips
again. Its functions break no assertion if those of its parts do not. Its round trips may: each
concatenates the image of one part's round trip with that of the other part, and in the codomain
the derived ones are taken.

So its check breaks an assertion exactly where it takes a round trip whose paths do not meet
(`SectionsMeet`, `RetractionsMeet`). There a law of one of the parts is broken, which the check of
that part reports.
-/

namespace PathAlgebra

variable {α β γ : Type}

/-! ## Composites of given round trips -/

/-- Two functions and two round trips that break no assertion. Nothing else is known of them. -/
structure GivenRoundTrips (α β : Type) where
  /-- The function. -/
  toFun : α → β
  /-- Its inverse. -/
  inv : β → α
  /-- The round trip of the codomain. -/
  retr : β → Path β
  /-- The round trip of the domain. -/
  sect : α → Path α

namespace GivenRoundTrips

open AdjointEquiv (ofTotal ofFunctions IsGivenLaw)

/-- The three paths that the derived round trip at `b` concatenates meet. -/
def Meet (d : GivenRoundTrips α β) (b : β) : Prop :=
  d.retr (d.toFun (d.inv b)) = (d.sect (d.inv b)).map d.toFun ∧
    d.retr (d.toFun (d.inv b)) = d.retr b

/-- The image of the inner round trip of the domain meets the outer one at `a`. -/
def SectionsMeet (d : GivenRoundTrips α β) (d' : GivenRoundTrips β γ) (a : α) : Prop :=
  (d'.sect (d.toFun a)).map d.inv = d.sect a

/-- The derived round trips of the codomains are there, and the image of the inner one meets the
outer one at `c`. -/
def RetractionsMeet (d : GivenRoundTrips α β) (d' : GivenRoundTrips β γ) (c : γ) : Prop :=
  d.Meet (d'.inv c) ∧ d'.Meet c ∧ (d.retr (d'.inv c)).map d'.toFun = d'.retr c

section

variable [DecidableEq β] [Display β]

/-- The equivalence that is made of them. -/
def equiv (d : GivenRoundTrips α β) : AdjointEquiv α β := ofTotal d.toFun d.inv d.retr d.sect

theorem retr_equiv_eq_ok {d : GivenRoundTrips α β} {b : β} {p : Path β} :
    d.equiv.retr b = .ok p ↔ d.Meet b ∧ p = d.retr b := by
  show AdjointInverse.coherentRetr (fun a => .ok (d.toFun a)) (fun b => .ok (d.inv b))
    (fun b => .ok (d.retr b)) (fun a => .ok (d.sect a)) b = .ok p ↔ _
  simp only [AdjointInverse.coherentRetr, ok_bind, Path.inverse_eq, Path.mapM_eq_ok_map, bind_eq_ok,
    Path.concat_eq_ok, Meet]
  constructor
  · rintro ⟨start, ⟨hmiddle, rfl⟩, hlast, rfl⟩
    exact ⟨⟨hmiddle, hlast⟩, hlast⟩
  · rintro ⟨⟨hmiddle, hlast⟩, rfl⟩
    exact ⟨_, ⟨hmiddle, rfl⟩, hlast, hlast.symm⟩

end

variable [DecidableEq α] [Display α] [DecidableEq β] [Display β] [DecidableEq γ] [Display γ]
variable (d : GivenRoundTrips α β) (d' : GivenRoundTrips β γ)

theorem sect_compose_eq_ok {a : α} {p : Path α} :
    (d.equiv.compose d'.equiv).sect a = .ok p ↔ SectionsMeet d d' a ∧ p = d.sect a := by
  show (do
    let inner ← (d'.sect (d.toFun a)).mapM (fun b => .ok (d.inv b))
    inner.concat (d.sect a)) = .ok p ↔ _
  rw [Path.mapM_eq_ok_map, ok_bind, Path.concat_eq_ok]
  constructor
  · rintro ⟨hmeet, rfl⟩
    exact ⟨hmeet, hmeet⟩
  · rintro ⟨hmeet, rfl⟩
    exact ⟨hmeet, hmeet.symm⟩

theorem givenRetr_compose_eq_ok {c : γ} {p : Path γ} :
    (d.equiv.compose d'.equiv).givenRetr c = .ok p ↔ RetractionsMeet d d' c ∧ p = d'.retr c := by
  show (do
    let inner ← (← d.equiv.retr (d'.inv c)).mapM (fun b => .ok (d'.toFun b))
    inner.concat (← d'.equiv.retr c)) = .ok p ↔ _
  simp only [bind_eq_ok, retr_equiv_eq_ok, Path.mapM_eq_ok_map, Path.concat_eq_ok,
    Except.ok.injEq, RetractionsMeet]
  constructor
  · rintro ⟨_, ⟨hinner, rfl⟩, _, rfl, _, ⟨houter, rfl⟩, hmeet, rfl⟩
    exact ⟨⟨hinner, houter, hmeet⟩, hmeet⟩
  · rintro ⟨⟨hinner, houter, hmeet⟩, rfl⟩
    exact ⟨_, ⟨hinner, rfl⟩, _, rfl, _, ⟨houter, rfl⟩, hmeet, hmeet.symm⟩

/-- The parts of the composite that were given to it may break assertions, its functions may not. -/
theorem compose_eq_ofFunctions :
    d.equiv.compose d'.equiv =
      ofFunctions (fun a => d'.toFun (d.toFun a)) (fun c => d.inv (d'.inv c))
        (d.equiv.compose d'.equiv).givenRetr (d.equiv.compose d'.equiv).sect := rfl

theorem exists_sect_compose_eq_error {a : α} :
    (∃ breach, (d.equiv.compose d'.equiv).sect a = .error breach) ↔ ¬ SectionsMeet d d' a := by
  simp only [exists_eq_error_iff, sect_compose_eq_ok, exists_eq_right]

theorem exists_givenRetr_compose_eq_error {c : γ} :
    (∃ breach, (d.equiv.compose d'.equiv).givenRetr c = .error breach) ↔
      ¬ RetractionsMeet d d' c := by
  simp only [exists_eq_error_iff, givenRetr_compose_eq_ok, exists_eq_right]

/-- At a point of the domain the check breaks an assertion if the paths of the round trip there do
not meet, and if this round trip is accepted but the paths of the one at the image do not meet. -/
theorem exists_checkSource_compose_eq_broken {a : α} :
    (∃ breach, (d.equiv.compose d'.equiv).checkSource a = .error (.broken breach)) ↔
      ¬ SectionsMeet d d' a ∨
        (d.inv (d'.inv (d'.toFun (d.toFun a))) = a ∧ d.sect a = .refl a) ∧
          ¬ RetractionsMeet d d' (d'.toFun (d.toFun a)) := by
  rw [compose_eq_ofFunctions]
  simp only [AdjointEquiv.checkSource_ofFunctions_eq_broken, exists_or, exists_and_left,
    exists_sect_compose_eq_error, exists_givenRetr_compose_eq_error, sect_compose_eq_ok]
  by_cases hmeet : SectionsMeet d d' a
  · simp only [hmeet, true_and, eq_comm (a := Path.refl a)]
  · simp only [hmeet, not_false_eq_true, true_or]

/-- At a point of the codomain the round trip there comes first, then the one at the inverse
image. -/
theorem exists_checkTarget_compose_eq_broken {c : γ} :
    (∃ breach, (d.equiv.compose d'.equiv).checkTarget c = .error (.broken breach)) ↔
      ¬ RetractionsMeet d d' c ∨
        (d'.toFun (d.toFun (d.inv (d'.inv c))) = c ∧ d'.retr c = .refl c) ∧
          ¬ SectionsMeet d d' (d.inv (d'.inv c)) := by
  rw [compose_eq_ofFunctions]
  simp only [AdjointEquiv.checkTarget_ofFunctions_eq_broken, exists_or, exists_and_left,
    exists_sect_compose_eq_error, exists_givenRetr_compose_eq_error, givenRetr_compose_eq_ok]
  by_cases hmeet : RetractionsMeet d d' c
  · simp only [hmeet, true_and, eq_comm (a := Path.refl c)]
  · simp only [hmeet, not_false_eq_true, true_or]

/-- The check of a composite is refused only for one of the round trips that were given to it. -/
theorem isGivenLaw_of_check_compose {as : List α} {cs : List γ} {report : Report}
    (h : (d.equiv.compose d'.equiv).check as cs = .error (.refused report)) :
    IsGivenLaw report := by
  rw [compose_eq_ofFunctions] at h
  rcases AdjointEquiv.check_eq_error_iff.mp h with ⟨_, a, _, -, -, ha⟩ | ⟨_, c, _, -, -, hc⟩
  · exact AdjointEquiv.isGivenLaw_of_checkSource ha
  · exact AdjointEquiv.isGivenLaw_of_checkTarget hc

variable {d d'}

/-- A composite is accepted where its parts are. -/
theorem check_compose_eq_ok {as : List α} {cs : List γ}
    (h : d.equiv.check as (cs.map d'.inv) = .ok ())
    (h' : d'.equiv.check (as.map d.toFun) cs = .ok ()) :
    (d.equiv.compose d'.equiv).check as cs = .ok () := by
  obtain ⟨hsource, htarget⟩ := AdjointEquiv.check_ofTotal_eq_ok.mp h
  obtain ⟨hsource', htarget'⟩ := AdjointEquiv.check_ofTotal_eq_ok.mp h'
  refine AdjointEquiv.check_eq_ok_iff.mpr ⟨fun a ha => ?_, fun c hc => ?_⟩
  · have hinner := (hsource a ha).lawfulOn
    have houter := (hsource' (d.toFun a) (List.mem_map_of_mem ha)).lawfulOn
    exact (hinner.compose houter).checkSource_eq_ok rfl
  · have hinner := (htarget (d'.inv c) (List.mem_map_of_mem hc)).lawfulOn
    have houter := (htarget' c hc).lawfulOn
    exact (hinner.compose houter).checkTarget_eq_ok rfl

/-- **The verdict on composites.** Let each of two equivalences be made from functions and round
trips that break no assertion, and let nothing else be known of them. The check of the composite
breaks an assertion exactly if it comes to a listed point where paths that it concatenates do not
meet: those of the round trip at the point or, if this is accepted, those of the other one at its
image; everything listed before has then been accepted. Otherwise the check goes through or is
refused for one of the round trips that were given to the composite. A composite whose check breaks
an assertion has a part whose own check, at the values that are met on the way, is refused for one
of its laws. -/
theorem check_compose_verdict (d : GivenRoundTrips α β) (d' : GivenRoundTrips β γ) (as : List α)
    (cs : List γ) :
    ((∃ breach, (d.equiv.compose d'.equiv).check as cs = .error (.broken breach)) ↔
      (∃ before a after, as = before ++ a :: after ∧
        (d.equiv.compose d'.equiv).check before [] = .ok () ∧
        (¬ SectionsMeet d d' a ∨
          (d.inv (d'.inv (d'.toFun (d.toFun a))) = a ∧ d.sect a = .refl a) ∧
            ¬ RetractionsMeet d d' (d'.toFun (d.toFun a)))) ∨
      ∃ before c after, cs = before ++ c :: after ∧
        (d.equiv.compose d'.equiv).check as before = .ok () ∧
        (¬ RetractionsMeet d d' c ∨
          (d'.toFun (d.toFun (d.inv (d'.inv c))) = c ∧ d'.retr c = .refl c) ∧
            ¬ SectionsMeet d d' (d.inv (d'.inv c)))) ∧
    ((d.equiv.compose d'.equiv).check as cs = .ok () ∨
      (∃ report, (d.equiv.compose d'.equiv).check as cs = .error (.refused report) ∧
        IsGivenLaw report) ∨
      ∃ breach, (d.equiv.compose d'.equiv).check as cs = .error (.broken breach)) ∧
    ((∃ breach, (d.equiv.compose d'.equiv).check as cs = .error (.broken breach)) →
      (∃ report, d.equiv.check as (cs.map d'.inv) = .error (.refused report) ∧
        IsGivenLaw report) ∨
      ∃ report, d'.equiv.check (as.map d.toFun) cs = .error (.refused report) ∧
        IsGivenLaw report) := by
  refine ⟨⟨?_, ?_⟩, ?_, ?_⟩
  · rintro ⟨breach, h⟩
    rcases AdjointEquiv.check_eq_error_iff.mp h with
      ⟨before, a, after, has, hbefore, ha⟩ | ⟨before, c, after, hcs, hbefore, hc⟩
    · exact Or.inl ⟨before, a, after, has, hbefore,
        (exists_checkSource_compose_eq_broken d d').mp ⟨breach, ha⟩⟩
    · exact Or.inr ⟨before, c, after, hcs, hbefore,
        (exists_checkTarget_compose_eq_broken d d').mp ⟨breach, hc⟩⟩
  · rintro (⟨before, a, after, has, hbefore, ha⟩ | ⟨before, c, after, hcs, hbefore, hc⟩)
    · obtain ⟨breach, ha⟩ := (exists_checkSource_compose_eq_broken d d').mpr ha
      exact ⟨breach,
        AdjointEquiv.check_eq_error_iff.mpr (Or.inl ⟨before, a, after, has, hbefore, ha⟩)⟩
    · obtain ⟨breach, hc⟩ := (exists_checkTarget_compose_eq_broken d d').mpr hc
      exact ⟨breach,
        AdjointEquiv.check_eq_error_iff.mpr (Or.inr ⟨before, c, after, hcs, hbefore, hc⟩)⟩
  · match h : (d.equiv.compose d'.equiv).check as cs with
    | .ok _ => exact Or.inl rfl
    | .error (.refused report) =>
        exact Or.inr (Or.inl ⟨report, rfl, isGivenLaw_of_check_compose d d' h⟩)
    | .error (.broken breach) => exact Or.inr (Or.inr ⟨breach, rfl⟩)
  · rintro ⟨breach, h⟩
    rcases (AdjointEquiv.answers_check as (cs.map d'.inv)).eq_ok_or_refused with hpart | hpart
    · rcases (AdjointEquiv.answers_check (as.map d.toFun) cs).eq_ok_or_refused with hpart' | hpart'
      · cases h.symm.trans (check_compose_eq_ok hpart hpart')
      · exact Or.inr hpart'
    · exact Or.inl hpart

/-- The identity of the truth values. -/
def identity : GivenRoundTrips Bool Bool := ⟨id, id, .refl, .refl⟩

/-- The identity of the truth values, with a round trip of the domain that leads to `true`
everywhere. -/
def toTrue : GivenRoundTrips Bool Bool := ⟨id, id, .refl, fun _ => .refl true⟩

/-- Broken laws of a part need not be reported: the section law of the first part fails at `false`,
as its own check says, and the check of the composite breaks an assertion there. -/
theorem check_compose_toTrue :
    (toTrue.equiv.compose identity.equiv).check [false] [] =
      .error (.broken (.mismatch "false" "true")) ∧
    toTrue.equiv.check [false] [] =
      .error (.refused ⟨[.sectionLaw "false"], .wrongEnds "Refl(true)" "false" "false"⟩) :=
  ⟨rfl, rfl⟩

/-- Listed before `false`, the value `true` is accepted first. -/
theorem check_compose_verdict_toTrue :
    (toTrue.equiv.compose identity.equiv).check [true] [] = .ok () ∧
    (∃ breach, (toTrue.equiv.compose identity.equiv).check [true, false] [] =
      .error (.broken breach)) ∧
    ((∃ report, toTrue.equiv.check [true, false] [] = .error (.refused report) ∧
        IsGivenLaw report) ∨
      ∃ report, identity.equiv.check [true, false] [] = .error (.refused report) ∧
        IsGivenLaw report) := by
  have hbefore : (toTrue.equiv.compose identity.equiv).check [true] [] = .ok () := rfl
  obtain ⟨hbroken, -, hpart⟩ := check_compose_verdict toTrue identity [true, false] []
  have h := hbroken.mpr (Or.inl ⟨[true], false, [], rfl, hbefore, Or.inl nofun⟩)
  exact ⟨hbefore, h, hpart h⟩

end GivenRoundTrips

end PathAlgebra
