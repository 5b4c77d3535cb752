import Mathlib.Algebra.BigOperators.Group.List.Basic
import Mathlib.Data.List.Basic
import Mathlib.Data.List.Forall2
import Mathlib.Tactic.Ring

set_option autoImplicit false

/-! # Selections from a list of fibers

A selection takes one value from each of several lists, the fibers. All selections are listed
lexicographically (`all`), and a selection has a number (`number`) whose digits are the
positions of its values in their fibers, the base of each digit being the size of its fiber.

The two are computed apart from each other, one from the last fiber forwards and the other from
the first: `number_eq_idxOf` joins them. Fibers may be of different sizes, and may be empty, in
which case there is no selection.
-/

namespace PathAlgebra.Selection

variable {F : Type}

/-- All selections, in lexicographic order. -/
def all : List (List F) → List (List F)
  | [] => [[]]
  | fiber :: fibers => fiber.flatMap fun u => (all fibers).map (u :: ·)

theorem mem_all {fibers : List (List F)} {us : List F} :
    us ∈ all fibers ↔ List.Forall₂ (fun fiber u => u ∈ fiber) fibers us := by
  induction fibers generalizing us with
  | nil => simp [all]
  | cons fiber fibers ih =>
      simp only [all, List.mem_flatMap, List.mem_map]
      constructor
      · rintro ⟨u, hu, vs, hvs, rfl⟩
        exact .cons hu (ih.mp hvs)
      · intro h
        cases h with
        | cons hu hus => exact ⟨_, hu, _, ih.mpr hus, rfl⟩

theorem length_all (fibers : List (List F)) :
    (all fibers).length = (fibers.map List.length).prod := by
  induction fibers with
  | nil => rfl
  | cons fiber fibers ih => simp [all, List.length_flatMap, ih]

variable [DecidableEq F]

/-! ## The lexicographic order -/

/-- One selection comes before another: where the two first differ, its value stands earlier in
the fiber. -/
inductive Precedes : List (List F) → List F → List F → Prop
  /-- The first values differ. -/
  | head {fiber : List F} {fibers : List (List F)} {u v : F} {us vs : List F}
      (h : fiber.idxOf u < fiber.idxOf v) : Precedes (fiber :: fibers) (u :: us) (v :: vs)
  /-- The first values are the same. -/
  | tail {fiber : List F} {fibers : List (List F)} {u : F} {us vs : List F}
      (h : Precedes fibers us vs) : Precedes (fiber :: fibers) (u :: us) (u :: vs)

theorem Precedes.ne {fibers : List (List F)} {us vs : List F} (h : Precedes fibers us vs) :
    us ≠ vs := by
  induction h with
  | head h =>
      rintro ⟨⟩
      exact absurd h (Nat.lt_irrefl _)
  | tail _ ih =>
      rintro ⟨⟩
      exact ih rfl

/-- In a list without repetitions the position grows along the list. -/
theorem pairwise_idxOf_lt {l : List F} (h : l.Nodup) :
    l.Pairwise fun u v => l.idxOf u < l.idxOf v := by
  refine List.pairwise_iff_getElem.mpr fun i j hi hj hij => ?_
  rwa [h.idxOf_getElem i hi, h.idxOf_getElem j hj]

/-- The selections are listed in lexicographic order. -/
theorem pairwise_all {fibers : List (List F)} (h : ∀ fiber ∈ fibers, fiber.Nodup) :
    (all fibers).Pairwise (Precedes fibers) := by
  induction fibers with
  | nil => exact List.pairwise_singleton _ _
  | cons fiber fibers ih =>
      have ih := ih fun fiber' hf => h fiber' (List.mem_cons_of_mem _ hf)
      refine List.pairwise_flatMap.mpr ⟨fun u _ => ?_, ?_⟩
      · -- selections with one first value are ordered as their rests
        exact List.pairwise_map.mpr (ih.imp fun hus => .tail hus)
      · -- selections with different first values are ordered as these
        refine (pairwise_idxOf_lt (h fiber List.mem_cons_self)).imp fun huv us hus vs hvs => ?_
        obtain ⟨us', -, rfl⟩ := List.mem_map.mp hus
        obtain ⟨vs', -, rfl⟩ := List.mem_map.mp hvs
        exact .head huv

theorem nodup_all {fibers : List (List F)} (h : ∀ fiber ∈ fibers, fiber.Nodup) :
    (all fibers).Nodup :=
  (pairwise_all h).imp Precedes.ne

/-! ## Numbers -/

/-- The number of a selection, continued from the number of the values before it. -/
def number : Nat → List (List F) → List F → Nat
  | n, fiber :: fibers, u :: us => number (n * fiber.length + fiber.idxOf u) fibers us
  | n, _, _ => n

theorem idxOf_map_cons (rest : List (List F)) (u : F) (us : List F) :
    (rest.map (u :: ·)).idxOf (u :: us) = rest.idxOf us := by
  induction rest with
  | nil => rfl
  | cons vs rest ih => simp [List.idxOf_cons, ih]

/-- Prepending a value: the rows of the values before it are passed over. -/
theorem idxOf_cons_flatMap {fiber : List F} {rest : List (List F)} {u : F} {us : List F}
    (hu : u ∈ fiber) (hus : us ∈ rest) :
    (fiber.flatMap fun v => rest.map (v :: ·)).idxOf (u :: us)
      = fiber.idxOf u * rest.length + rest.idxOf us := by
  induction fiber with
  | nil => simp at hu
  | cons v fiber ih =>
      rw [List.flatMap_cons, List.idxOf_append]
      by_cases hvu : v = u
      · subst hvu
        rw [if_pos (List.mem_map.mpr ⟨us, hus, rfl⟩), idxOf_map_cons, List.idxOf_cons_self,
          Nat.zero_mul, Nat.zero_add]
      · have hmem : u :: us ∉ rest.map (v :: ·) := by
          intro h
          obtain ⟨vs, -, hvs⟩ := List.mem_map.mp h
          exact hvu (List.cons.inj hvs).1
        have hu' : u ∈ fiber := (List.mem_cons.mp hu).resolve_left (Ne.symm hvu)
        rw [if_neg hmem, ih hu', List.idxOf_cons_ne _ hvu, List.length_map, Nat.succ_mul]
        omega

/-- **The number of a selection is its position**, after the selections of a prefix with the
number `n`. -/
theorem number_eq_idxOf {fibers : List (List F)} {us : List F} (n : Nat)
    (h : us ∈ all fibers) :
    number n fibers us = n * (all fibers).length + (all fibers).idxOf us := by
  induction fibers generalizing n us with
  | nil =>
      rw [all, List.mem_singleton] at h
      subst h
      simp [number, all]
  | cons fiber fibers ih =>
      obtain ⟨u, hu, h⟩ := List.mem_flatMap.mp h
      obtain ⟨us, hus, rfl⟩ := List.mem_map.mp h
      have hlen : (all (fiber :: fibers)).length
          = fiber.length * (all fibers).length := by
        simp [length_all]
      calc number n (fiber :: fibers) (u :: us)
          = (n * fiber.length + fiber.idxOf u) * (all fibers).length
            + (all fibers).idxOf us := ih _ hus
        _ = n * (fiber.length * (all fibers).length)
            + (fiber.idxOf u * (all fibers).length + (all fibers).idxOf us) := by ring
        _ = n * (all (fiber :: fibers)).length
            + (all (fiber :: fibers)).idxOf (u :: us) := by
          rw [hlen, all, idxOf_cons_flatMap hu hus]

end PathAlgebra.Selection
