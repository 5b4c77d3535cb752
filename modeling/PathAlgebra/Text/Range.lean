set_option autoImplicit false

/-! # Ranges of characters

A property of characters is given by closed ranges of code points, ascending and apart.
-/

namespace PathAlgebra.Text

/-- Whether the code point of a character lies in one of the ranges, given by their first and last
code points. -/
def inRanges (ranges : List (Nat × Nat)) (c : Char) : Bool :=
  ranges.any fun r => r.1 ≤ c.toNat && c.toNat ≤ r.2

/-- A character is in the ranges exactly when its code point lies between the ends of one. -/
theorem inRanges_iff {ranges : List (Nat × Nat)} {c : Char} :
    inRanges ranges c = true ↔ ∃ r ∈ ranges, r.1 ≤ c.toNat ∧ c.toNat ≤ r.2 := by
  simp [inRanges]

/-- A character between `lo` and `hi` is in no ranges that all lie outside of them. -/
theorem inRanges_eq_false {ranges : List (Nat × Nat)} {lo hi : Nat} {c : Char}
    (outside : ranges.all (fun r => r.2 < lo || hi < r.1) = true) (above : lo ≤ c.toNat)
    (below : c.toNat ≤ hi) : inRanges ranges c = false := by
  rw [Bool.eq_false_iff]
  intro inside
  obtain ⟨r, mem, start, stop⟩ := inRanges_iff.1 inside
  have := List.all_eq_true.1 outside r mem
  simp only [Bool.or_eq_true, decide_eq_true_eq] at this
  omega

end PathAlgebra.Text
