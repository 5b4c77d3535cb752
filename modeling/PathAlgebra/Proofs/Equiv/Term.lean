import PathAlgebra.Proofs.Table.Currying

set_option autoImplicit false

/-! # Expressions for equivalences

An expression takes lawful equivalences and lawful round trips as given, together with the
identity, the exchange of components, the equivalence of pairs of paths and paths of pairs, and
uncurrying, and it combines them by inverses, composites and products to any depth.

Every expression evaluates to a lawful equivalence between its domain and its codomain. A derived
round trip is made from the given one of the part below it, whether this was derived itself or
not; the induction goes through because lawfulness speaks of both.
-/

namespace PathAlgebra

variable {α β F : Type}

/-! ## Domains -/

/-- A type together with the values of it that occur. -/
structure Domain where
  /-- The type. -/
  Value : Type
  /-- Whether a value occurs. -/
  Occurs : Value → Prop
  [decidableEq : DecidableEq Value]
  [display : Display Value]

namespace Domain

attribute [instance] Domain.decidableEq Domain.display

/-- All values of a type occur. -/
def all (α : Type) [DecidableEq α] [Display α] : Domain := ⟨α, fun _ => True⟩

/-- A pair occurs if its components do. -/
def prod (A B : Domain) : Domain := ⟨A.Value × B.Value, fun z => A.Occurs z.1 ∧ B.Occurs z.2⟩

/-- A path occurs if its point does. -/
def path (A : Domain) : Domain := ⟨Path A.Value, fun p => A.Occurs p.source⟩

/-- The well-formed tables occur. -/
def table (α F : Type) [Enumerated α] [DecidableEq α] [Display α] [Family α F] [DecidableEq F]
    [Display F] : Domain :=
  ⟨Table α F, Table.WellFormed⟩

/-- The well-formed grids occur. -/
def grid (α β F : Type) [Enumerated α] [DecidableEq α] [Display α] [Enumerated β] [DecidableEq β]
    [Display β] [Family (α × β) F] [DecidableEq F] [Display F] : Domain :=
  ⟨Grid α β F, Grid.WellFormed⟩

end Domain

/-! ## Expressions and their values -/

/-- Expressions for equivalences between two domains. -/
inductive EquivTerm : Domain → Domain → Type 1 where
  /-- A lawful equivalence. -/
  | given {A B : Domain} (e : AdjointEquiv A.Value B.Value)
      (lawful : e.LawfulOn A.Occurs B.Occurs) : EquivTerm A B
  /-- A function and its inverse with lawful round trips. -/
  | roundTrips {A B : Domain} (toFun : A.Value → Asserted B.Value)
      (inv : B.Value → Asserted A.Value) (retr : B.Value → Asserted (Path B.Value))
      (sect : A.Value → Asserted (Path A.Value))
      (lawful : LawfulRoundTrips A.Occurs B.Occurs toFun inv retr sect) : EquivTerm A B
  /-- The identity. -/
  | identity (A : Domain) : EquivTerm A A
  /-- The exchange of components. -/
  | swap (A B : Domain) : EquivTerm (A.prod B) (B.prod A)
  /-- Pairs of paths and paths of pairs. -/
  | paths (A B : Domain) : EquivTerm (A.path.prod B.path) (A.prod B).path
  /-- Functions of two arguments and functions on pairs, on lawfully enumerated domains. -/
  | uncurry (α β F : Type) [Enumerated α] [LawfulEnumerated α] [DecidableEq α] [Display α]
      [Enumerated β] [LawfulEnumerated β] [DecidableEq β] [Display β] [DecidableEq F] [Display F]
      [Family (α × β) F] : EquivTerm (.grid α β F) (.table (α × β) F)
  /-- The equivalence in the other direction. -/
  | inverse {A B : Domain} (t : EquivTerm A B) : EquivTerm B A
  /-- One equivalence after the other. -/
  | compose {A B C : Domain} (t : EquivTerm A B) (t' : EquivTerm B C) : EquivTerm A C
  /-- Two equivalences componentwise. -/
  | prod {A A' B B' : Domain} (t : EquivTerm A A') (t' : EquivTerm B B') :
      EquivTerm (A.prod B) (A'.prod B')

namespace EquivTerm

/-- The equivalence for which an expression stands. -/
def eval {A B : Domain} : EquivTerm A B → AdjointEquiv A.Value B.Value
  | given e _ => e
  | roundTrips toFun inv retr sect _ => .ofRoundTrips toFun inv retr sect
  | identity A => .identity A.Value
  | swap A B => .swap A.Value B.Value
  | paths _ _ => .paths
  | uncurry α β F => .uncurry α β F
  | inverse t => t.eval.inverse
  | compose t t' => t.eval.compose t'.eval
  | prod t t' => t.eval.prod t'.eval

/-- The function and the inverse function for which an expression stands. -/
def maps {A B : Domain} :
    EquivTerm A B → (A.Value → Asserted B.Value) × (B.Value → Asserted A.Value)
  | given e _ => (e.toFun, e.inv)
  | roundTrips toFun inv _ _ _ => (toFun, inv)
  | identity _ => (fun a => .ok a, fun a => .ok a)
  | swap _ _ => (fun z => .ok (z.2, z.1), fun w => .ok (w.2, w.1))
  | paths _ _ => (fun pq => pq.1.pair pq.2, fun r => .ok r.unpair)
  | uncurry _ _ _ => (Grid.uncurry, Table.curry)
  | inverse t => t.maps.swap
  | compose t t' => (fun a => do t'.maps.1 (← t.maps.1 a), fun c => do t.maps.2 (← t'.maps.2 c))
  | prod t t' => (mapPair t.maps.1 t'.maps.1, mapPair t.maps.2 t'.maps.2)

variable {A B : Domain}

theorem lawfulOn_eval (t : EquivTerm A B) : t.eval.LawfulOn A.Occurs B.Occurs := by
  induction t with
  | given e lawful => exact lawful
  | roundTrips toFun inv retr sect lawful => exact lawful.lawfulOn
  | identity A => exact .identity A.Occurs
  | swap A B => exact .swap A.Occurs B.Occurs
  | paths A B => exact .paths A.Occurs B.Occurs
  | uncurry α β F => exact AdjointEquiv.LawfulOn.uncurry
  -- the operations keep lawfulness
  | inverse t ih => exact ih.inverse
  | compose t t' ih ih' => exact ih.compose ih'
  | prod t t' ih ih' => exact ih.prod ih'

theorem eval_maps (t : EquivTerm A B) : (t.eval.toFun, t.eval.inv) = t.maps := by
  induction t with
  | given e lawful => rfl
  | roundTrips toFun inv retr sect lawful => rfl
  | identity A => rfl
  | swap A B => rfl
  | paths A B => rfl
  | uncurry α β F => rfl
  | inverse t ih => rw [maps, ← ih]; rfl
  | compose t t' ih ih' => rw [maps, ← ih, ← ih']; rfl
  | prod t t' ih ih' => rw [maps, ← ih, ← ih']; rfl

/-- **Every expression is coherent**: it evaluates to a lawful equivalence, whose function and
inverse are those that the expression names and whose check goes through on all lists of values
that occur. -/
theorem coherent (t : EquivTerm A B) :
    t.eval.LawfulOn A.Occurs B.Occurs ∧
    t.eval.toFun = t.maps.1 ∧ t.eval.inv = t.maps.2 ∧
    ∀ (as : List A.Value) (bs : List B.Value), (∀ a ∈ as, A.Occurs a) → (∀ b ∈ bs, B.Occurs b) →
      t.eval.check as bs = .ok () := by
  have hlawful := t.lawfulOn_eval
  obtain ⟨hfun, hinv⟩ := Prod.mk.inj (t.eval_maps.trans (Prod.eta t.maps).symm)
  exact ⟨hlawful, hfun, hinv, fun as bs has hbs => hlawful.check_eq_ok has hbs⟩

/-- Negation of booleans, which is its own inverse. -/
def negation : EquivTerm (.all Bool) (.all Bool) :=
  .roundTrips (fun b => .ok !b) (fun b => .ok !b) (fun b => .ok (.refl b)) (fun b => .ok (.refl b))
    ⟨fun b _ => ⟨!b, trivial, rfl, congrArg Except.ok b.not_not, rfl⟩,
      fun b _ => ⟨!b, trivial, rfl, congrArg Except.ok b.not_not, rfl⟩⟩

/-- The check of `(negation ∘ negation)⁻¹ × uncurry` at a pair of a boolean and a grid. -/
theorem coherent_negation_uncurry :
    ((negation.compose negation).inverse.prod
      (.uncurry Unit Bool (Fiber (Unit × Bool) Bool))).eval.check
        [(true, ⟨[[⟨((), false), true⟩, ⟨((), true), true⟩]]⟩)]
        [(false, ⟨[⟨((), false), true⟩, ⟨((), true), false⟩]⟩)] = .ok () := by
  refine (coherent _).2.2.2 _ _ (fun z hz => ?_) (fun w hw => ?_)
  · cases List.mem_singleton.mp hz
    exact ⟨trivial, .cons (.cons rfl (.cons rfl .nil)) .nil⟩
  · cases List.mem_singleton.mp hw
    exact ⟨trivial, .cons rfl (.cons rfl .nil)⟩

end EquivTerm

end PathAlgebra
