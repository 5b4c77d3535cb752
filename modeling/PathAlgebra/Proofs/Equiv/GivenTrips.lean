import PathAlgebra.Proofs.Equiv.Verdict
import PathAlgebra.Proofs.Sequencing

set_option autoImplicit false

/-! # Checking round trips that may break an assertion

Two functions that break no assertion and two round trips that may make an equivalence
(`ofFunctions`). Its check looks at nothing but what was given. It takes one round trip at a point
and, if this is accepted, the other one at the image of the point; the derived parts are then
lawful (`checkSource_ofFunctions`, `checkTarget_ofFunctions`). So it breaks an assertion exactly if
it takes a round trip that does, and a law that it reports is one of those that were given.
-/

namespace PathAlgebra

variable {α β : Type}

namespace AdjointEquiv

/-! ## Round trips that may break an assertion -/

/-- The report is about the round trip of the domain or about the given one of the codomain. -/
def IsGivenLaw (report : Report) : Prop :=
  ∃ point, report.contexts = [.sectionLaw point] ∨ report.contexts = [.roundTripLaw point]

section

variable [DecidableEq α] [Display α]

/-- Takes a round trip and checks that it runs from `start` to `x`. -/
def checkTrip (context : Context) (trip : Asserted (Path α)) (start x : α) : Outcome Unit :=
  Outcome.within context do (← trip).check start x

variable {context : Context} {trip : Asserted (Path α)} {start x : α}

theorem checkTrip_eq_ok {u : Unit} :
    checkTrip context trip start x = .ok u ↔ x = start ∧ trip = .ok (.refl x) := by
  simp only [checkTrip, Outcome.within_eq_ok, bind_eq_ok, liftM_asserted_eq_ok,
    liftM_fallible_eq_ok, Path.check_eq_ok_iff]
  constructor
  · rintro ⟨_, htrip, rfl, rfl⟩
    exact ⟨rfl, htrip⟩
  · rintro ⟨rfl, htrip⟩
    exact ⟨_, htrip, rfl, rfl⟩

theorem answers_checkTrip (context : Context) (p : Path α) (start x : α) :
    Outcome.Answers (fun report => report.contexts = [context])
      (checkTrip context (.ok p) start x) := by
  show Outcome.Answers _ (Outcome.within context (liftM (p.check start x)))
  apply Outcome.Answers.within
  unfold Path.check
  split
  · exact .accepted ()
  · exact .refused rfl

/-- Checking a path breaks no assertion, but taking it may. -/
theorem checkTrip_eq_broken {breach : Breach} :
    checkTrip context trip start x = .error (.broken breach) ↔ trip = .error breach := by
  cases trip with
  | ok p => simp only [(answers_checkTrip context p start x).ne_broken breach, reduceCtorEq]
  | error breach' =>
      show (Except.error (.broken breach') : Outcome Unit) = _ ↔ _
      simp only [Except.error.injEq, Failure.broken.injEq]

theorem contexts_of_checkTrip {report : Report}
    (h : checkTrip context trip start x = .error (.refused report)) :
    report.contexts = [context] := by
  cases trip with
  | ok p =>
      have hanswers := answers_checkTrip context p start x
      rw [h] at hanswers
      cases hanswers with
      | refused hcontexts => exact hcontexts
  | error breach => cases h

end

/-! ## The equivalence that they make -/

section

variable [DecidableEq β] [Display β]

/-- The equivalence of two functions that break no assertion and of two round trips that may. -/
def ofFunctions (f : α → β) (g : β → α) (retr : β → Asserted (Path β))
    (sect : α → Asserted (Path α)) : AdjointEquiv α β :=
  ofRoundTrips (fun a => .ok (f a)) (fun b => .ok (g b)) retr sect

variable {f : α → β} {g : β → α} {retr : β → Asserted (Path β)} {sect : α → Asserted (Path α)}

theorem lawfulOn_ofFunctions {a : α} {b : β} (hfun : f a = b) (hinv : g b = a)
    (hsect : sect a = .ok (.refl a)) (hretr : retr b = .ok (.refl b)) :
    (ofFunctions f g retr sect).LawfulOn (fun a' => a' = a) (fun b' => b' = b) := by
  apply LawfulRoundTrips.lawfulOn
  constructor
  · rintro _ rfl
    exact ⟨b, rfl, congrArg _ hfun, congrArg _ hinv, hsect⟩
  · rintro _ rfl
    exact ⟨a, rfl, congrArg _ hinv, congrArg _ hfun, hretr⟩

end

variable [DecidableEq α] [Display α] [DecidableEq β] [Display β]

omit [DecidableEq β] [Display β] in
theorem checkSection_eq_checkTrip {e : AdjointEquiv α β} {p : Path α} {b : β} {a a' : α}
    (hinv : e.inv b = .ok a') :
    e.checkSection p b a = checkTrip (.sectionLaw (display a)) (.ok p) a' a := by
  simp only [checkSection, hinv, checkTrip, Outcome.liftM_asserted_ok, ok_bind]

variable {f : α → β} {g : β → α} {retr : β → Asserted (Path β)} {sect : α → Asserted (Path α)}

theorem checkGiven_ofFunctions (b : β) :
    (ofFunctions f g retr sect).checkGiven retr b = (do
      checkTrip (.roundTripLaw (display b)) (retr b) (f (g b)) b
      checkTrip (.roundTripLaw (display (f (g b)))) (retr (f (g b))) (f (g (f (g b)))) (f (g b))
      checkTrip (.sectionLaw (display (g b))) (sect (g b)) (g (f (g b))) (g b)) := by
  have hdef : (ofFunctions f g retr sect).checkGiven retr b = (do
      checkTrip (.roundTripLaw (display b)) (retr b) (f (g b)) b
      checkTrip (.roundTripLaw (display (f (g b)))) (retr (f (g b))) (f (g (f (g b)))) (f (g b))
      (ofFunctions f g retr sect).checkSection (← sect (g b)) (f (g b)) (g b)) := rfl
  rw [hdef]
  cases sect (g b) with
  | error breach => rfl
  | ok p =>
      rw [Outcome.liftM_asserted_ok, ok_bind, checkSection_eq_checkTrip rfl]

/-- A point of the codomain is checked for the round trip there and for the one of the domain at its
inverse image. The checks that follow these look at derived parts and are accepted. -/
theorem checkTarget_ofFunctions (b : β) :
    (ofFunctions f g retr sect).checkTarget b = (do
      checkTrip (.roundTripLaw (display b)) (retr b) (f (g b)) b
      checkTrip (.sectionLaw (display (g b))) (sect (g b)) (g (f (g b))) (g b)) := by
  have hdef : (ofFunctions f g retr sect).checkTarget b = (do
      (ofFunctions f g retr sect).checkGiven retr b
      Outcome.within (.retractionLaw (display b))
        ((ofFunctions f g retr sect).checkRoundTrip (ofFunctions f g retr sect).retr b)) := rfl
  cases hretr : checkTrip (.roundTripLaw (display b)) (retr b) (f (g b)) b with
  | error failure =>
      rw [hdef, checkGiven_ofFunctions, hretr]
      rfl
  | ok _ =>
      obtain ⟨hfun, hstays⟩ := checkTrip_eq_ok.mp hretr
      -- the given round trip is checked at `b` once more
      have hagain : checkTrip (.roundTripLaw (display (f (g b)))) (retr (f (g b)))
          (f (g (f (g b)))) (f (g b)) = .ok () := by
        rw [← hfun, ← hfun]
        exact checkTrip_eq_ok.mpr ⟨rfl, hstays⟩
      cases hsect : checkTrip (.sectionLaw (display (g b))) (sect (g b)) (g (f (g b))) (g b) with
      | error failure =>
          rw [hdef, checkGiven_ofFunctions, hretr, hagain, hsect]
          rfl
      | ok _ =>
          obtain ⟨-, hsect⟩ := checkTrip_eq_ok.mp hsect
          exact (lawfulOn_ofFunctions hfun.symm rfl hsect hstays).checkTarget_eq_ok rfl

variable (f g retr sect) in
/-- The triangle law is looked at only after the other laws. -/
theorem exists_checkSource_ofFunctions (a : α) :
    ∃ triangle : Outcome Unit, (ofFunctions f g retr sect).checkSource a = (do
      checkTrip (.sectionLaw (display a)) (sect a) (g (f a)) a
      (ofFunctions f g retr sect).checkTarget (f a)
      triangle) := by
  obtain ⟨triangle, hdef⟩ : ∃ triangle : Path α → Outcome Unit,
      (ofFunctions f g retr sect).checkSource a = (do
        let p ← sect a
        (ofFunctions f g retr sect).checkSection p (f a) a
        (ofFunctions f g retr sect).checkTarget (f a)
        triangle p) := ⟨_, rfl⟩
  rw [hdef]
  cases sect a with
  | error breach => exact ⟨pure (), rfl⟩
  | ok p =>
      refine ⟨triangle p, ?_⟩
      rw [Outcome.liftM_asserted_ok, ok_bind, checkSection_eq_checkTrip rfl]

/-- A point of the domain is checked for the round trip there and for the one of the codomain at its
image. -/
theorem checkSource_ofFunctions (a : α) :
    (ofFunctions f g retr sect).checkSource a = (do
      checkTrip (.sectionLaw (display a)) (sect a) (g (f a)) a
      checkTrip (.roundTripLaw (display (f a))) (retr (f a)) (f (g (f a))) (f a)) := by
  obtain ⟨triangle, hdef⟩ := exists_checkSource_ofFunctions f g retr sect a
  cases hsect : checkTrip (.sectionLaw (display a)) (sect a) (g (f a)) a with
  | error failure =>
      rw [hdef, hsect]
      rfl
  | ok _ =>
      obtain ⟨hinv, hstays⟩ := checkTrip_eq_ok.mp hsect
      cases hretr : checkTrip (.roundTripLaw (display (f a))) (retr (f a)) (f (g (f a))) (f a) with
      | error failure =>
          rw [hdef, hsect, checkTarget_ofFunctions, hretr]
          rfl
      | ok _ =>
          obtain ⟨-, hretr⟩ := checkTrip_eq_ok.mp hretr
          exact (lawfulOn_ofFunctions rfl hinv.symm hstays hretr).checkSource_eq_ok rfl

/-! ## What is accepted and how it fails otherwise -/

theorem checkTarget_ofFunctions_eq_ok {b : β} :
    (ofFunctions f g retr sect).checkTarget b = .ok () ↔
      f (g b) = b ∧ retr b = .ok (.refl b) ∧ sect (g b) = .ok (.refl (g b)) := by
  simp only [checkTarget_ofFunctions, bind_eq_ok, checkTrip_eq_ok, exists_const]
  constructor
  · rintro ⟨⟨hfun, hretr⟩, -, hsect⟩
    exact ⟨hfun.symm, hretr, hsect⟩
  · rintro ⟨hfun, hretr, hsect⟩
    exact ⟨⟨hfun.symm, hretr⟩, congrArg g hfun.symm, hsect⟩

theorem checkSource_ofFunctions_eq_ok {a : α} :
    (ofFunctions f g retr sect).checkSource a = .ok () ↔
      g (f a) = a ∧ sect a = .ok (.refl a) ∧ retr (f a) = .ok (.refl (f a)) := by
  simp only [checkSource_ofFunctions, bind_eq_ok, checkTrip_eq_ok, exists_const]
  constructor
  · rintro ⟨⟨hinv, hsect⟩, -, hretr⟩
    exact ⟨hinv.symm, hsect, hretr⟩
  · rintro ⟨hinv, hsect, hretr⟩
    exact ⟨⟨hinv.symm, hsect⟩, congrArg f hinv.symm, hretr⟩

theorem checkSource_ofFunctions_eq_broken {a : α} {breach : Breach} :
    (ofFunctions f g retr sect).checkSource a = .error (.broken breach) ↔
      sect a = .error breach ∨
        (g (f a) = a ∧ sect a = .ok (.refl a)) ∧ retr (f a) = .error breach := by
  simp only [checkSource_ofFunctions, bind_eq_error, checkTrip_eq_broken, checkTrip_eq_ok,
    exists_const, eq_comm (a := a)]

theorem checkTarget_ofFunctions_eq_broken {b : β} {breach : Breach} :
    (ofFunctions f g retr sect).checkTarget b = .error (.broken breach) ↔
      retr b = .error breach ∨
        (f (g b) = b ∧ retr b = .ok (.refl b)) ∧ sect (g b) = .error breach := by
  simp only [checkTarget_ofFunctions, bind_eq_error, checkTrip_eq_broken, checkTrip_eq_ok,
    exists_const, eq_comm (a := b)]

theorem isGivenLaw_of_checkSource {a : α} {report : Report}
    (h : (ofFunctions f g retr sect).checkSource a = .error (.refused report)) :
    IsGivenLaw report := by
  rw [checkSource_ofFunctions, bind_eq_error] at h
  rcases h with h | ⟨_, -, h⟩
  · exact ⟨_, Or.inl (contexts_of_checkTrip h)⟩
  · exact ⟨_, Or.inr (contexts_of_checkTrip h)⟩

theorem isGivenLaw_of_checkTarget {b : β} {report : Report}
    (h : (ofFunctions f g retr sect).checkTarget b = .error (.refused report)) :
    IsGivenLaw report := by
  rw [checkTarget_ofFunctions, bind_eq_error] at h
  rcases h with h | ⟨_, -, h⟩
  · exact ⟨_, Or.inr (contexts_of_checkTrip h)⟩
  · exact ⟨_, Or.inl (contexts_of_checkTrip h)⟩

/-- A check fails at the first listed point at which it does; all before it have been accepted. -/
theorem check_eq_error_iff {e : AdjointEquiv α β} {as : List α} {bs : List β} {failure : Failure} :
    e.check as bs = .error failure ↔
      (∃ before a after, as = before ++ a :: after ∧ e.check before [] = .ok () ∧
        e.checkSource a = .error failure) ∨
      ∃ before b after, bs = before ++ b :: after ∧ e.check as before = .ok () ∧
        e.checkTarget b = .error failure := by
  rw [check, bind_eq_error]
  simp only [forM_eq_error, forM_eq_ok, check_eq_ok_iff, FirstFailure, exists_eq_ok_unit,
    exists_const, List.not_mem_nil, false_implies, implies_true, and_true]
  constructor
  · rintro (h | ⟨hsource, before, b, after, hbs, hbefore, hb⟩)
    · exact Or.inl h
    · exact Or.inr ⟨before, b, after, hbs, ⟨hsource, hbefore⟩, hb⟩
  · rintro (h | ⟨before, b, after, hbs, ⟨hsource, hbefore⟩, hb⟩)
    · exact Or.inl h
    · exact Or.inr ⟨hsource, before, b, after, hbs, hbefore, hb⟩

end AdjointEquiv

end PathAlgebra
