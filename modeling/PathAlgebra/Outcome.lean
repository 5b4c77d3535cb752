import PathAlgebra.Report

set_option autoImplicit false

/-! # Outcomes

The ends of a path are not part of its type, so an operation that needs two ends to agree
asserts it. A computation can therefore end in three ways: with a value, with a report, because
a check was refused, or with a breach, because an assertion failed. A report is an answer about
the data; a breach is a mistake of the caller.

`Fallible` computations may be refused, `Asserted` computations may break an assertion, and
`Outcome` computations may do both; the first two are lifted to the third where they are used.
-/

namespace PathAlgebra

/-- A failed assertion. -/
inductive Breach where
  /-- Two values that have to coincide differ. -/
  | mismatch (left right : String)
  /-- A list has no entry at a position. -/
  | outOfBounds (length position : Nat)
  /-- A breach in free wording. -/
  | remark (text : String)
  deriving DecidableEq

/-- The wording of a breach. -/
def Breach.message : Breach → String
  | .mismatch left right => s!"«{left}» and «{right}» should coincide"
  | .outOfBounds length position =>
      s!"index out of bounds: the len is {length} but the index is {position}"
  | .remark text => text

/-- Computations that may break an assertion. -/
abbrev Asserted := Except Breach

/-- Computations that may be refused. -/
abbrev Fallible := Except Report

/-- The two ways in which a computation ends without a value. -/
inductive Failure where
  /-- A check was refused. -/
  | refused (report : Report)
  /-- An assertion failed. -/
  | broken (breach : Breach)
  deriving DecidableEq

/-- Computations that may be refused and may break an assertion. -/
abbrev Outcome := Except Failure

/-- Refuses a check. -/
def refuse {α : Type} (cause : Cause) : Fallible α := .error (Report.ofCause cause)

namespace Outcome

/-- A computation that is never refused, as an outcome. -/
def ofAsserted {α : Type} : Asserted α → Outcome α
  | .ok a => .ok a
  | .error breach => .error (.broken breach)

/-- A computation without assertions, as an outcome. -/
def ofFallible {α : Type} : Fallible α → Outcome α
  | .ok a => .ok a
  | .error report => .error (.refused report)

instance : MonadLift Asserted Outcome := ⟨ofAsserted⟩

instance : MonadLift Fallible Outcome := ⟨ofFallible⟩

/-- Puts the report of a refused check into one more context. A breach keeps its wording. -/
@[inline] def within {α : Type} (context : Context) : Outcome α → Outcome α
  | .ok a => .ok a
  | .error (.refused report) => .error (.refused (report.within context))
  | .error (.broken breach) => .error (.broken breach)

/-! ## How lifting acts on the three endings -/

@[simp] theorem liftM_asserted_ok {α : Type} (a : α) :
    (liftM (Except.ok a : Asserted α) : Outcome α) = .ok a := rfl

@[simp] theorem liftM_asserted_error {α : Type} (breach : Breach) :
    (liftM (Except.error breach : Asserted α) : Outcome α) = .error (.broken breach) := rfl

@[simp] theorem liftM_fallible_ok {α : Type} (a : α) :
    (liftM (Except.ok a : Fallible α) : Outcome α) = .ok a := rfl

@[simp] theorem liftM_fallible_error {α : Type} (report : Report) :
    (liftM (Except.error report : Fallible α) : Outcome α) = .error (.refused report) := rfl

@[simp] theorem within_ok {α : Type} (context : Context) (a : α) :
    within context (.ok a) = .ok a := rfl

theorem within_eq_ok {α : Type} {context : Context} {x : Outcome α} {a : α} :
    within context x = .ok a ↔ x = .ok a := by
  match x with
  | .ok _ => simp [within]
  | .error (.refused _) => simp [within]
  | .error (.broken _) => simp [within]

end Outcome

/-! ## When a sequence of computations ends with a value -/

theorem ok_bind {ε α β : Type} (a : α) (f : α → Except ε β) : (Except.ok a >>= f) = f a := rfl

theorem bind_eq_ok {ε α β : Type} {x : Except ε α} {f : α → Except ε β} {b : β} :
    (x >>= f) = .ok b ↔ ∃ a, x = .ok a ∧ f a = .ok b := by
  cases x <;> simp [bind, Except.bind]

theorem forM_eq_ok {ε α : Type} {l : List α} {f : α → Except ε Unit} {u : Unit} :
    l.forM f = .ok u ↔ ∀ x ∈ l, f x = .ok () := by
  induction l with
  | nil => simp [List.forM, pure, Except.pure]
  | cons x l ih =>
    show (f x >>= fun _ => l.forM f) = .ok u ↔ _
    rw [bind_eq_ok]
    simp only [ih, List.mem_cons, forall_eq_or_imp]
    exact ⟨fun ⟨_, hx, hl⟩ => ⟨hx, hl⟩, fun ⟨hx, hl⟩ => ⟨(), hx, hl⟩⟩

theorem liftM_asserted_eq_ok {α : Type} {x : Asserted α} {a : α} :
    (liftM x : Outcome α) = .ok a ↔ x = .ok a := by
  cases x <;> simp

theorem liftM_fallible_eq_ok {α : Type} {x : Fallible α} {a : α} :
    (liftM x : Outcome α) = .ok a ↔ x = .ok a := by
  cases x <;> simp

/-- Puts the report of a refused check into one more context. -/
def Fallible.within {α : Type} (context : Context) : Fallible α → Fallible α
  | .ok a => .ok a
  | .error report => .error (report.within context)

end PathAlgebra
