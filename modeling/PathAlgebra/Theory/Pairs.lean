import PathAlgebra.Theory.Basic
import PathAlgebra.Theory.PairChecks

set_option autoImplicit false

/-! # The theory of pair types

The statements about pair types, each with its check on sample carriers: among these are a
singleton factor, an empty factor, and the same carrier twice.
-/

namespace PathAlgebra.PairTheory

/-- A check of a statement about pairs on any two finite carriers. -/
abbrev PairCheck : Type 1 :=
  ∀ (α β : Type) [DecidableEq α] [Display α] [Enumerated α] [DecidableEq β] [Display β]
    [Enumerated β], Outcome Unit

/-- Runs a check on all sample carriers. -/
def onSamples (check : PairCheck) : Unit → Outcome Unit := fun _ => do
  Outcome.within (.carriers "bool × Fin 3") (check Bool (Fin 3))
  Outcome.within (.carriers "() × bool") (check Unit Bool)
  Outcome.within (.carriers "Fin 2 × Fin 2") (check (Fin 2) (Fin 2))
  Outcome.within (.carriers "Option bool × ()") (check (Option Bool) Unit)
  Outcome.within (.carriers "Empty × bool") (check Empty Bool)

/-- The obligations of the theory, in the order of declaration. -/
def obligations : List Obligation :=
  [⟨"unpack_prod", "P (fst u, snd u) → P u", onSamples unpackCheck⟩,
    ⟨"eta_prod", "(fst z, snd z) = z", onSamples pairEtaCheck⟩,
    ⟨"path_prod", "fst z = fst z' → snd z = snd z' → z = z'", onSamples ofComponentsCheck⟩,
    ⟨"path_prod_uncurried", "(fst z = fst z') × (snd z = snd z') → z = z'",
      onSamples ofComponentPairCheck⟩,
    ⟨"path_prod'", "x = x' → y = y' → (x, y) = (x', y')", onSamples pairCheck⟩,
    ⟨"ap_fst_path_prod", "ap fst (path_prod p q) = p", onSamples fstPairCheck⟩,
    ⟨"ap_snd_path_prod", "ap snd (path_prod p q) = q", onSamples sndPairCheck⟩,
    ⟨"eta_path_prod", "path_prod (ap fst r) (ap snd r) = r", onSamples pairUnpairCheck⟩,
    ⟨"equiv_path_prod", "(fst z = fst z') × (snd z = snd z') ≃ (z = z')",
      onSamples pathsCheck⟩,
    ⟨"transport_prod",
      "transport (P × Q) p z = (transport P p (fst z), transport Q p (snd z))",
      onSamples transportPairCheck⟩,
    ⟨"functor_prod", "functor_prod f g (a, b) = (f a, g b)", onSamples mapPairCheck⟩,
    ⟨"functor_prod_id", "functor_prod id id z = z", onSamples mapPairIdCheck⟩,
    ⟨"functor_prod_compose",
      "functor_prod (f2 ∘ f1) (g2 ∘ g1) z = functor_prod f2 g2 (functor_prod f1 g1 z)",
      onSamples fun α β => mapPairCompCheck α β⟩,
    ⟨"ap_functor_prod",
      "ap (functor_prod f g) (path_prod p q) = path_prod (ap f p) (ap g q)",
      onSamples mapPairNaturalCheck⟩,
    ⟨"equiv_functor_prod", "A ≃ A' → B ≃ B' → A × B ≃ A' × B'", onSamples prodCheck⟩,
    ⟨"equiv_prod_symm", "A × B ≃ B × A", onSamples swapCheck⟩,
    ⟨"equiv_prod_rect", "((a : A) → (b : B) → P (a, b)) ≃ ((z : A × B) → P z)",
      onSamples uncurryCheck⟩,
    ⟨"contr_prod", "Contr A → Contr B → Contr (A × B)", onSamples contractionCheck⟩,
    ⟨"hlevel_prod", "IsHLevel n A → IsHLevel n B → IsHLevel n (A × B)", onSamples levelCheck⟩,
    ⟨"hlevel_equiv", "A ≃ B → IsHLevel n A → IsHLevel n B", onSamples levelTransferCheck⟩]

/-- The theory of pair types. -/
def theory : Fallible (Theory NameTable Nat) := Theory.ofList obligations

end PathAlgebra.PairTheory
