import PathAlgebra.Proofs.Equiv.GivenTrips

set_option autoImplicit false

/-! # Checking given round trips

Two functions and two round trips that break no assertion make an equivalence (`ofTotal`), whether
or not they obey the laws. Its derived parts may break assertions: the round trip in use
concatenates three of the given paths, and the triangle law asserts that two paths have the same
ends. The check looks at them only where it has found the given paths to be reflexivities at the
right values (`HoldsAt`), and there both are lawful. So whatever is given, the check answers, and
the law that it reports is one of those that were given.

The laws that are looked at treat both directions alike. An equivalence and its inverse are
therefore accepted on the same lists, though they are checked in different orders and at different
points.
-/

namespace PathAlgebra

variable {α β : Type}

namespace AdjointEquiv

/-- The given laws hold at two values which the two functions exchange. -/
structure HoldsAt (f : α → β) (g : β → α) (retr : β → Path β) (sect : α → Path α) (a : α)
    (b : β) : Prop where
  /-- The function leads from the one to the other. -/
  map_eq : f a = b
  /-- The inverse leads back. -/
  inv_eq : g b = a
  /-- The round trip of the domain stays. -/
  sect_eq : sect a = .refl a
  /-- The round trip of the codomain stays. -/
  retr_eq : retr b = .refl b

theorem HoldsAt.symm {f : α → β} {g : β → α} {retr : β → Path β} {sect : α → Path α} {a : α}
    {b : β} (h : HoldsAt f g retr sect a b) : HoldsAt g f sect retr b a :=
  ⟨h.inv_eq, h.map_eq, h.retr_eq, h.sect_eq⟩

theorem holdsAt_symm_iff {f : α → β} {g : β → α} {retr : β → Path β} {sect : α → Path α} {a : α}
    {b : β} : HoldsAt g f sect retr b a ↔ HoldsAt f g retr sect a b :=
  ⟨HoldsAt.symm, HoldsAt.symm⟩

section

variable [DecidableEq β] [Display β]

/-- The equivalence of two functions and two round trips that break no assertion. -/
def ofTotal (f : α → β) (g : β → α) (retr : β → Path β) (sect : α → Path α) :
    AdjointEquiv α β :=
  ofRoundTrips (fun a => .ok (f a)) (fun b => .ok (g b)) (fun b => .ok (retr b))
    (fun a => .ok (sect a))

theorem ofTotal_eq_ofFunctions (f : α → β) (g : β → α) (retr : β → Path β) (sect : α → Path α) :
    ofTotal f g retr sect =
      ofFunctions f g (fun b => .ok (retr b)) (fun a => .ok (sect a)) := rfl

variable {f : α → β} {g : β → α} {retr : β → Path β} {sect : α → Path α}

/-- Where the given laws hold, the equivalence is lawful, its derived parts included. -/
theorem HoldsAt.lawfulOn {a : α} {b : β} (h : HoldsAt f g retr sect a b) :
    (ofTotal f g retr sect).LawfulOn (fun a' => a' = a) (fun b' => b' = b) :=
  lawfulOn_ofFunctions h.map_eq h.inv_eq (congrArg _ h.sect_eq) (congrArg _ h.retr_eq)

end

variable [DecidableEq α] [Display α] [DecidableEq β] [Display β]
variable {f : α → β} {g : β → α} {retr : β → Path β} {sect : α → Path α} {a : α} {b : β}

/-! ## What is accepted -/

/-- A point of the codomain is accepted if the given laws are. -/
theorem checkTarget_ofTotal_eq_ok :
    (ofTotal f g retr sect).checkTarget b = .ok () ↔ HoldsAt f g retr sect (g b) b := by
  rw [ofTotal_eq_ofFunctions, checkTarget_ofFunctions_eq_ok]
  constructor
  · rintro ⟨hfun, hretr, hsect⟩
    exact ⟨hfun, rfl, Except.ok.inj hsect, Except.ok.inj hretr⟩
  · intro h
    exact ⟨h.map_eq, congrArg _ h.retr_eq, congrArg _ h.sect_eq⟩

theorem checkSource_ofTotal_eq_ok :
    (ofTotal f g retr sect).checkSource a = .ok () ↔ HoldsAt f g retr sect a (f a) := by
  rw [ofTotal_eq_ofFunctions, checkSource_ofFunctions_eq_ok]
  constructor
  · rintro ⟨hinv, hsect, hretr⟩
    exact ⟨rfl, hinv, Except.ok.inj hsect, Except.ok.inj hretr⟩
  · intro h
    exact ⟨h.inv_eq, congrArg _ h.sect_eq, congrArg _ h.retr_eq⟩

theorem check_ofTotal_eq_ok {as : List α} {bs : List β} :
    (ofTotal f g retr sect).check as bs = .ok () ↔
      (∀ a ∈ as, HoldsAt f g retr sect a (f a)) ∧ ∀ b ∈ bs, HoldsAt f g retr sect (g b) b := by
  simp only [check_eq_ok_iff, checkSource_ofTotal_eq_ok, checkTarget_ofTotal_eq_ok]

/-! ## What is reported -/

theorem answers_checkTarget (b : β) :
    Outcome.Answers IsGivenLaw ((ofTotal f g retr sect).checkTarget b) := by
  rw [ofTotal_eq_ofFunctions, checkTarget_ofFunctions]
  have hretr := answers_checkTrip (.roundTripLaw (display b)) (retr b) (f (g b)) b
  have hsect := answers_checkTrip (.sectionLaw (display (g b))) (sect (g b)) (g (f (g b))) (g b)
  refine (hretr.mono fun _ h => ⟨_, Or.inr h⟩).bind fun _ _ => ?_
  exact hsect.mono fun _ h => ⟨_, Or.inl h⟩

theorem answers_checkSource (a : α) :
    Outcome.Answers IsGivenLaw ((ofTotal f g retr sect).checkSource a) := by
  rw [ofTotal_eq_ofFunctions, checkSource_ofFunctions]
  have hsect := answers_checkTrip (.sectionLaw (display a)) (sect a) (g (f a)) a
  have hretr := answers_checkTrip (.roundTripLaw (display (f a))) (retr (f a)) (f (g (f a))) (f a)
  refine (hsect.mono fun _ h => ⟨_, Or.inl h⟩).bind fun _ _ => ?_
  exact hretr.mono fun _ h => ⟨_, Or.inr h⟩

theorem answers_check (as : List α) (bs : List β) :
    Outcome.Answers IsGivenLaw ((ofTotal f g retr sect).check as bs) := by
  refine Outcome.Answers.bind (.forM fun a _ => answers_checkSource a) fun _ _ => ?_
  exact .forM fun b _ => answers_checkTarget b

/-! ## The verdict, and the other direction -/

/-- **The verdict on given round trips.** Two functions and two round trips that break no assertion
are given, and nothing else is known of them. The equivalence that they make is accepted exactly
if, at each listed point of the domain together with its image, and at each listed point of the
codomain together with its inverse image, the functions are inverse to each other and both given
round trips stay. Otherwise it is refused for the round trip of the domain or for the given one of
the codomain: neither do the laws of the derived parts fail, nor do these break an assertion. -/
theorem check_ofTotal_verdict (f : α → β) (g : β → α) (retr : β → Path β) (sect : α → Path α)
    (as : List α) (bs : List β) :
    ((ofTotal f g retr sect).check as bs = .ok () ↔
      (∀ a ∈ as, g (f a) = a ∧ sect a = .refl a ∧ retr (f a) = .refl (f a)) ∧
      ∀ b ∈ bs, f (g b) = b ∧ retr b = .refl b ∧ sect (g b) = .refl (g b)) ∧
    ((ofTotal f g retr sect).check as bs = .ok () ∨
      ∃ report, (ofTotal f g retr sect).check as bs = .error (.refused report) ∧ ∃ point,
        report.contexts = [.sectionLaw point] ∨ report.contexts = [.roundTripLaw point]) := by
  refine ⟨?_, (answers_check as bs).eq_ok_or_refused⟩
  rw [check_ofTotal_eq_ok]
  constructor
  · rintro ⟨hsource, htarget⟩
    refine ⟨fun a ha => ?_, fun b hb => ?_⟩
    · have h := hsource a ha
      exact ⟨h.inv_eq, h.sect_eq, h.retr_eq⟩
    · have h := htarget b hb
      exact ⟨h.map_eq, h.retr_eq, h.sect_eq⟩
  · rintro ⟨hsource, htarget⟩
    refine ⟨fun a ha => ?_, fun b hb => ?_⟩
    · obtain ⟨hinv, hsect, hretr⟩ := hsource a ha
      exact ⟨rfl, hinv, hsect, hretr⟩
    · obtain ⟨hmap, hretr, hsect⟩ := htarget b hb
      exact ⟨hmap, rfl, hsect, hretr⟩

/-- A round trip that stays at the wrong value. -/
example : (ofTotal not not (fun b => .refl !b) .refl).check [] [true] =
    .error (.refused ⟨[.roundTripLaw "true"], .wrongEnds "Refl(false)" "true" "true"⟩) := rfl

/-- The inverse is made of the same data, with the given round trip and not the one in use. -/
theorem inverse_ofTotal (f : α → β) (g : β → α) (retr : β → Path β) (sect : α → Path α) :
    (ofTotal f g retr sect).inverse = ofTotal g f sect retr := rfl

/-- **Inverting given round trips.** Whatever the two functions and the two round trips are, the
check of the inverse breaks no assertion, and it accepts the same lists as that of the equivalence
itself, with domain and codomain exchanged. Inverting twice gives the equivalence back with all its
parts, so also the derived ones are the same functions and break the same assertions. -/
theorem inverse_duality (f : α → β) (g : β → α) (retr : β → Path β) (sect : α → Path α)
    (as : List α) (bs : List β) :
    (∀ breach, (ofTotal f g retr sect).inverse.check bs as ≠ .error (.broken breach)) ∧
    ((ofTotal f g retr sect).inverse.check bs as = .ok () ↔
      (ofTotal f g retr sect).check as bs = .ok ()) ∧
    (ofTotal f g retr sect).inverse.inverse = ofTotal f g retr sect := by
  rw [inverse_ofTotal, inverse_ofTotal]
  refine ⟨(answers_check bs as).ne_broken, ?_, rfl⟩
  simp only [check_ofTotal_eq_ok, holdsAt_symm_iff]
  exact and_comm

end AdjointEquiv

end PathAlgebra
