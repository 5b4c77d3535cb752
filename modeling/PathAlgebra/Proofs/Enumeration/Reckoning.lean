import PathAlgebra.Proofs.Enumeration

set_option autoImplicit false

/-! # Reckonings

The number of a value is found from numbers that are read off its parts, by products with the size
of a part and by sums. A `Reckoning` is such a computation with all its steps. `Below` bounds every
number on the way and not only the result, which is what a machine with words of a fixed width
needs: if the bound fits into a word, then no step overflows (`Below.checked_eq`).

The bounds are found step by step, as the numbers are: what is below `m` with its row and below
`size` with its column is below `m * size` with all the steps to it (`Below.row`).
-/

namespace PathAlgebra

/-- A computation of a number, with its steps. -/
inductive Reckoning where
  /-- A number that is read off. -/
  | number (n : Nat)
  /-- The product with a size. -/
  | scaled (d : Reckoning) (size : Nat)
  /-- A sum. -/
  | sum (d e : Reckoning)

namespace Reckoning

/-- The number that is computed. -/
def value : Reckoning → Nat
  | number n => n
  | scaled d size => d.value * size
  | sum d e => d.value + e.value

/-- Every number that is read off, every product and every sum is below the bound, and no size
exceeds it. -/
def Below (bound : Nat) : Reckoning → Prop
  | number n => n < bound
  | scaled d size => d.Below bound ∧ size ≤ bound ∧ d.value * size < bound
  | sum d e => d.Below bound ∧ e.Below bound ∧ d.value + e.value < bound

variable {d e : Reckoning} {m n size bound : Nat}

theorem Below.value_lt (h : d.Below bound) : d.value < bound := by
  cases d with
  | number n => exact h
  | scaled d size => exact h.2.2
  | sum d e => exact h.2.2

theorem Below.mono (h : d.Below m) (hmn : m ≤ n) : d.Below n := by
  induction d with
  | number k => exact Nat.lt_of_lt_of_le h hmn
  | scaled d size ih =>
      obtain ⟨hd, hsize, hproduct⟩ := h
      exact ⟨ih hd, Nat.le_trans hsize hmn, Nat.lt_of_lt_of_le hproduct hmn⟩
  | sum d e ihd ihe =>
      obtain ⟨hd, he, hsum⟩ := h
      exact ⟨ihd hd, ihe he, Nat.lt_of_lt_of_le hsum hmn⟩

/-! ## The formulas for positions -/

/-- The number of a value that comes after one other. -/
def succ (d : Reckoning) : Reckoning := sum (number 1) d

/-- The number of the value in column `e` of row `d`, where each row has `size` values. -/
def row (d : Reckoning) (size : Nat) (e : Reckoning) : Reckoning := sum (scaled d size) e

@[simp] theorem value_succ : d.succ.value = 1 + d.value := rfl

@[simp] theorem value_row : (d.row size e).value = d.value * size + e.value := rfl

theorem Below.succ (h : d.Below bound) : d.succ.Below (bound + 1) := by
  have hvalue := h.value_lt
  refine ⟨?_, h.mono (Nat.le_succ bound), ?_⟩
  · show 1 < bound + 1
    omega
  · show 1 + d.value < bound + 1
    omega

/-- All steps to a number in `m` rows of `size` values are below `m * size`: the row is one of `m`,
and the column is one of `size`, so neither number is 0. -/
theorem Below.row (hd : d.Below m) (he : e.Below size) : (d.row size e).Below (m * size) := by
  have hrow : d.value < m := hd.value_lt
  have hcolumn : e.value < size := he.value_lt
  have hle : m ≤ m * size := Nat.le_mul_of_pos_right m (by omega)
  have hsize : size ≤ m * size := Nat.le_mul_of_pos_left size (by omega)
  have hvalue : d.value * size + e.value < m * size := by
    calc d.value * size + e.value
        < d.value * size + size := Nat.add_lt_add_left hcolumn _
      _ = (d.value + 1) * size := (Nat.succ_mul _ _).symm
      _ ≤ m * size := Nat.mul_le_mul_right size hrow
  have hproduct : d.value * size < m * size := by omega
  exact ⟨⟨hd.mono hle, hsize, hproduct⟩, he.mono hsize, hvalue⟩

/-! ## Words of 64 bits -/

/-- A number as a word, if it fits. -/
def word (n : Nat) : Option UInt64 := if n < UInt64.size then some (.ofNat n) else none

/-- The computation in words that stops at the first number that does not fit. -/
def checked : Reckoning → Option UInt64
  | number n => word n
  | scaled d size => do
      let v ← d.checked
      let k ← word size
      word (v.toNat * k.toNat)
  | sum d e => do
      let v ← d.checked
      let w ← e.checked
      word (v.toNat + w.toNat)

/-- The computation in words that leaves out what does not fit. -/
def wrapping : Reckoning → UInt64
  | number n => .ofNat n
  | scaled d size => d.wrapping * .ofNat size
  | sum d e => d.wrapping + e.wrapping

theorem word_eq_some (h : n < UInt64.size) : word n = some (.ofNat n) := if_pos h

theorem toNat_word (h : n < UInt64.size) : (UInt64.ofNat n).toNat = n := UInt64.toNat_ofNat_of_lt' h

theorem wrapping_eq (d : Reckoning) : d.wrapping = .ofNat d.value := by
  induction d with
  | number n => rfl
  | scaled d size ih => rw [wrapping, value, ih, UInt64.ofNat_mul]
  | sum d e ihd ihe => rw [wrapping, value, ihd, ihe, UInt64.ofNat_add]

/-- If the bound of all steps fits into a word, then nothing overflows. -/
theorem Below.checked_eq (h : d.Below bound) (hbound : bound < UInt64.size) :
    d.checked = some (.ofNat d.value) := by
  induction d with
  | number n => exact word_eq_some (Nat.lt_trans h hbound)
  | scaled d size ih =>
      obtain ⟨hd, hsize, hproduct⟩ := h
      have hd' : d.value < UInt64.size := Nat.lt_trans hd.value_lt hbound
      have hsize' : size < UInt64.size := Nat.lt_of_le_of_lt hsize hbound
      have hproduct' : d.value * size < UInt64.size := Nat.lt_trans hproduct hbound
      simp only [checked, ih hd, word_eq_some hsize', Option.bind_eq_bind, Option.bind_some,
        toNat_word hd', toNat_word hsize', word_eq_some hproduct', value]
  | sum d e ihd ihe =>
      obtain ⟨hd, he, hsum⟩ := h
      have hd' : d.value < UInt64.size := Nat.lt_trans hd.value_lt hbound
      have he' : e.value < UInt64.size := Nat.lt_trans he.value_lt hbound
      have hsum' : d.value + e.value < UInt64.size := Nat.lt_trans hsum hbound
      simp only [checked, ihd hd, ihe he, Option.bind_eq_bind, Option.bind_some,
        toNat_word hd', toNat_word he', word_eq_some hsum', value]

/-- The computation has the result `n` and stays below the bound. -/
structure Computes (d : Reckoning) (n bound : Nat) : Prop where
  /-- The result. -/
  value_eq : d.value = n
  /-- No step reaches the bound. -/
  below : d.Below bound
  /-- If the bound fits into a word, then no step overflows, so it makes no difference whether this
  is looked at, and the result in words is exact. -/
  exists_word : bound < UInt64.size → ∃ w, d.checked = some w ∧ d.wrapping = w ∧ w.toNat = n

theorem Below.computes (h : d.Below bound) : d.Computes d.value bound where
  value_eq := rfl
  below := h
  exists_word hbound :=
    ⟨_, h.checked_eq hbound, wrapping_eq d, toNat_word (Nat.lt_trans h.value_lt hbound)⟩

end Reckoning

end PathAlgebra
