import Mathlib.Data.List.Forall2
import PathAlgebra.Outcome

set_option autoImplicit false

/-! # Sequences of computations

`mapM` over a list ends with values exactly when every single computation does, and the values
then stand in the order of the list. This is stated with `List.Forall₂`, which relates two lists
entry by entry; the two lists are also read by position. Otherwise it fails as the first of them
that fails does (`FirstFailure`), whatever the later ones would do.

`Outcome.Answers` says of a computation that it breaks no assertion and of what kind its report is
if it is refused. It is shown of a sequence step by step, and each step may rely on those before
it having ended with a value.
-/

namespace PathAlgebra

variable {ε α β : Type}

theorem mapM_eq_ok {f : α → Except ε β} {l : List α} {ys : List β} :
    l.mapM f = .ok ys ↔ List.Forall₂ (fun x y => f x = .ok y) l ys := by
  induction l generalizing ys with
  | nil => cases ys <;> simp [pure, Except.pure]
  | cons x l ih =>
      rw [List.mapM_cons, bind_eq_ok]
      constructor
      · rintro ⟨y, hy, hl⟩
        obtain ⟨zs, hzs, hys⟩ := bind_eq_ok.mp hl
        cases hys
        exact .cons hy (ih.mp hzs)
      · intro h
        cases h with
        | cons hy hl =>
            exact ⟨_, hy, bind_eq_ok.mpr ⟨_, ih.mpr hl, rfl⟩⟩

/-- Entries that can be chosen one by one can be chosen along a list. -/
theorem exists_forall₂ {R : α → β → Prop} {l : List α} (h : ∀ x ∈ l, ∃ y, R x y) :
    ∃ ys, List.Forall₂ R l ys := by
  induction l with
  | nil => exact ⟨[], .nil⟩
  | cons x l ih =>
      obtain ⟨y, hy⟩ := h x List.mem_cons_self
      obtain ⟨ys, hys⟩ := ih fun x' hx' => h x' (List.mem_cons_of_mem x hx')
      exact ⟨y :: ys, .cons hy hys⟩

/-- The values of a sequence are those that its steps give. -/
theorem mem_of_mapM_eq_ok {f : α → Except ε β} {l : List α} {ys : List β}
    (h : l.mapM f = .ok ys) {y : β} : y ∈ ys ↔ ∃ x ∈ l, f x = .ok y := by
  replace h := mapM_eq_ok.mp h
  induction h with
  | nil => simp
  | @cons x z l zs hx _ ih =>
      constructor
      · intro hy
        rcases List.mem_cons.mp hy with rfl | hy
        · exact ⟨x, List.mem_cons_self, hx⟩
        · obtain ⟨x', hx', hy⟩ := ih.mp hy
          exact ⟨x', List.mem_cons_of_mem x hx', hy⟩
      · rintro ⟨x', hx', hy⟩
        rcases List.mem_cons.mp hx' with rfl | hx'
        · rw [hx, Except.ok.injEq] at hy
          exact List.mem_cons.mpr (Or.inl hy.symm)
        · exact List.mem_cons_of_mem z (ih.mpr ⟨x', hx', hy⟩)

/-- Entries of related lists at one position are related. -/
theorem getElem?_of_forall₂ {R : α → β → Prop} {xs : List α} {ys : List β}
    (h : List.Forall₂ R xs ys) {i : Nat} {x : α} (hx : xs[i]? = some x) :
    ∃ y, ys[i]? = some y ∧ R x y := by
  induction h generalizing i with
  | nil => simp at hx
  | cons hr _ ih =>
      cases i with
      | zero =>
          rw [List.getElem?_cons_zero, Option.some_inj] at hx
          subst hx
          exact ⟨_, rfl, hr⟩
      | succ i => exact ih hx

/-- A loop over pairs is a loop over the rows of a loop over the columns. -/
theorem forM_pairs (as : List α) (bs : List β) (f : α × β → Except ε Unit) :
    (as.flatMap fun a => bs.map fun b => (a, b)).forM f =
      as.forM fun a => bs.forM fun b => f (a, b) := by
  simp only [List.forM_eq_forM]
  induction as with
  | nil => rfl
  | cons a as ih => rw [List.flatMap_cons, List.forM_append, List.forM_map, List.forM_cons, ih]

/-! ## The first computation that fails -/

theorem bind_eq_error {x : Except ε α} {f : α → Except ε β} {e : ε} :
    (x >>= f) = .error e ↔ x = .error e ∨ ∃ a, x = .ok a ∧ f a = .error e := by
  cases x <;> simp [bind, Except.bind]

theorem liftM_asserted_eq_error {x : Asserted α} {failure : Failure} :
    (liftM x : Outcome α) = .error failure ↔
      ∃ breach, x = .error breach ∧ failure = .broken breach := by
  cases x <;> simp [eq_comm]

theorem exists_eq_ok_unit {x : Except ε Unit} : (∃ u, x = .ok u) ↔ x = .ok () :=
  ⟨fun ⟨_, hx⟩ => hx, fun hx => ⟨(), hx⟩⟩

theorem exists_eq_error_iff {x : Except ε α} : (∃ e, x = .error e) ↔ ¬ ∃ a, x = .ok a := by
  cases x <;> simp

/-- The computation fails with `e` at an entry of the list, and at none of those before it. -/
def FirstFailure (f : α → Except ε β) (l : List α) (e : ε) : Prop :=
  ∃ before x after, l = before ++ x :: after ∧ (∀ y ∈ before, ∃ b, f y = .ok b) ∧ f x = .error e

theorem firstFailure_nil {f : α → Except ε β} {e : ε} : ¬ FirstFailure f [] e := by
  rintro ⟨before, x, after, h, -, -⟩
  exact List.append_ne_nil_of_right_ne_nil before (List.cons_ne_nil x after) h.symm

theorem firstFailure_cons {f : α → Except ε β} {x : α} {l : List α} {e : ε} :
    FirstFailure f (x :: l) e ↔ f x = .error e ∨ ∃ b, f x = .ok b ∧ FirstFailure f l e := by
  constructor
  · rintro ⟨before, y, after, h, hbefore, hy⟩
    cases before with
    | nil =>
        cases h
        exact Or.inl hy
    | cons z before =>
        cases h
        obtain ⟨b, hb⟩ := hbefore x List.mem_cons_self
        exact Or.inr ⟨b, hb, before, y, after, rfl,
          fun w hw => hbefore w (List.mem_cons_of_mem x hw), hy⟩
  · rintro (hx | ⟨b, hb, before, y, after, rfl, hbefore, hy⟩)
    · exact ⟨[], x, l, rfl, nofun, hx⟩
    · exact ⟨x :: before, y, after, rfl, List.forall_mem_cons.mpr ⟨⟨b, hb⟩, hbefore⟩, hy⟩

theorem mapM_eq_error {f : α → Except ε β} {l : List α} {e : ε} :
    l.mapM f = .error e ↔ FirstFailure f l e := by
  induction l with
  | nil => simp [pure, Except.pure, firstFailure_nil]
  | cons x l ih =>
      -- putting the first value in front of the others cannot fail
      simp only [List.mapM_cons, bind_eq_error, ih, firstFailure_cons, pure, Except.pure,
        reduceCtorEq, and_false, exists_false, or_false]

theorem forM_eq_error {f : α → Except ε Unit} {l : List α} {e : ε} :
    l.forM f = .error e ↔ FirstFailure f l e := by
  induction l with
  | nil => simp [pure, Except.pure, firstFailure_nil]
  | cons x l ih =>
      show (f x >>= fun _ => l.forM f) = .error e ↔ _
      rw [bind_eq_error, firstFailure_cons]
      simp only [ih]

/-- Some computation fails exactly if there is a first one that does. -/
theorem exists_firstFailure_iff {f : α → Except ε β} {l : List α} :
    (∃ e, FirstFailure f l e) ↔ ∃ x ∈ l, ∃ e, f x = .error e := by
  constructor
  · rintro ⟨e, before, x, after, rfl, -, hx⟩
    exact ⟨x, List.mem_append_right before List.mem_cons_self, e, hx⟩
  · rintro ⟨x, hx, e, he⟩
    simp only [← mapM_eq_error, exists_eq_error_iff]
    rintro ⟨ys, hys⟩
    obtain ⟨i, hi⟩ := List.mem_iff_getElem?.mp hx
    obtain ⟨y, -, hy⟩ := getElem?_of_forall₂ (mapM_eq_ok.mp hys) hi
    rw [he] at hy
    cases hy

/-- On pairs the first failure stands in the first row that has one, and there in the first such
column. -/
theorem firstFailure_pairs {γ : Type} {f : α × β → Except ε γ} {as : List α} {bs : List β} {e : ε} :
    FirstFailure f (as.flatMap fun a => bs.map fun b => (a, b)) e ↔
      ∃ as₁ a as₂ bs₁ b bs₂, as = as₁ ++ a :: as₂ ∧ bs = bs₁ ++ b :: bs₂ ∧
        (∀ a' ∈ as₁, ∀ b' ∈ bs, ∃ c, f (a', b') = .ok c) ∧ (∀ b' ∈ bs₁, ∃ c, f (a, b') = .ok c) ∧
        f (a, b) = .error e := by
  -- a loop that drops the values fails in the same way
  let g : α × β → Except ε Unit := fun z => f z >>= fun _ => .ok ()
  have hok (z : α × β) : g z = .ok () ↔ ∃ c, f z = .ok c := by
    simp only [g, bind_eq_ok, and_true]
  have herror (z : α × β) : g z = .error e ↔ f z = .error e := by
    simp only [g, bind_eq_error, reduceCtorEq, and_false, exists_false, or_false]
  have hloop : FirstFailure f (as.flatMap fun a => bs.map fun b => (a, b)) e ↔
      (as.flatMap fun a => bs.map fun b => (a, b)).forM g = .error e := by
    simp only [forM_eq_error, FirstFailure, herror, hok, exists_const]
  rw [hloop, forM_pairs]
  simp only [forM_eq_error, FirstFailure, forM_eq_ok, hok, herror, exists_const]
  constructor
  · rintro ⟨as₁, a, as₂, has, hbefore, bs₁, b, bs₂, hbs, hrow, he⟩
    exact ⟨as₁, a, as₂, bs₁, b, bs₂, has, hbs, hbefore, hrow, he⟩
  · rintro ⟨as₁, a, as₂, bs₁, b, bs₂, has, hbs, hbefore, hrow, he⟩
    exact ⟨as₁, a, as₂, has, hbefore, bs₁, b, bs₂, hbs, hrow, he⟩

/-! ## Computations that break no assertion -/

/-- The computation breaks no assertion, and if it is refused, then with a report of which `R`
holds. -/
inductive Outcome.Answers (R : Report → Prop) : Outcome α → Prop
  /-- It ends with a value. -/
  | accepted (a : α) : Answers R (.ok a)
  /-- It is refused. -/
  | refused {report : Report} (h : R report) : Answers R (.error (.refused report))

namespace Outcome.Answers

variable {R R' : Report → Prop}

theorem mono {x : Outcome α} (hx : Answers R x) (h : ∀ report, R report → R' report) :
    Answers R' x := by
  cases hx with
  | accepted a => exact .accepted a
  | refused hr => exact .refused (h _ hr)

/-- What follows a computation is run only where this ends with a value. -/
theorem bind {x : Outcome α} {f : α → Outcome β} (hx : Answers R x)
    (hf : ∀ a, x = .ok a → Answers R (f a)) : Answers R (x >>= f) := by
  cases hx with
  | accepted a => exact hf a rfl
  | refused hr => exact .refused hr

theorem forM {l : List α} {f : α → Outcome Unit} (h : ∀ x ∈ l, Answers R (f x)) :
    Answers R (l.forM f) := by
  induction l with
  | nil => exact .accepted ()
  | cons x l ih =>
      have hx := h x List.mem_cons_self
      have hl := ih fun y hy => h y (List.mem_cons_of_mem x hy)
      exact hx.bind fun _ _ => hl

theorem within {x : Outcome α} (context : Context)
    (hx : Answers (fun report => R (report.within context)) x) :
    Answers R (Outcome.within context x) := by
  cases hx with
  | accepted a => exact .accepted a
  | refused hr => exact .refused hr

theorem ne_broken {x : Outcome α} (hx : Answers R x) (breach : Breach) :
    x ≠ .error (.broken breach) := by
  cases hx with
  | accepted a => nofun
  | refused hr => nofun

theorem of_ne_broken {x : Outcome α} (h : ∀ breach, x ≠ .error (.broken breach)) :
    Answers (fun _ => True) x := by
  match x with
  | .ok a => exact .accepted a
  | .error (.refused _) => exact .refused trivial
  | .error (.broken breach) => exact absurd rfl (h breach)

theorem eq_ok_or_refused {x : Outcome Unit} (hx : Answers R x) :
    x = .ok () ∨ ∃ report, x = .error (.refused report) ∧ R report := by
  cases hx with
  | accepted a => exact Or.inl rfl
  | refused hr => exact Or.inr ⟨_, rfl, hr⟩

end Outcome.Answers

end PathAlgebra
