import PathAlgebra.Text.Quoted

set_option autoImplicit false

/-! # Quoted strings are visible

A quoted string is a text for the eye. Visible ASCII characters stand for themselves, and an escape
is made of these alone, digits included, so whatever the string holds, nothing in its quoted text
lacks a visible form or merges with its neighbour (`isPlain_of_mem_quoted`).
-/

namespace PathAlgebra.Text

/-- The space and the visible ASCII characters stand for themselves. -/
theorem isPlain_of_ascii {c : Char} (lo : 0x20 ≤ c.toNat) (hi : c.toNat ≤ 0x7E) :
    isPlain c = true := by
  have printable : isPrintable c = true := by
    simp [isPrintable, @inRanges_eq_false unprintableRanges 0x20 0x7E c (by decide +kernel) lo hi]
  have alone : isExtender c = false :=
    @inRanges_eq_false extenderRanges 0x20 0x7E c (by decide +kernel) lo hi
  simp [isPlain, printable, alone]

theorem isPlain_of_mem_ascii {l : List Char} {c : Char}
    (hl : l.all (fun c => 0x20 ≤ c.toNat && c.toNat ≤ 0x7E) = true) (h : c ∈ l) :
    isPlain c = true := by
  have hc := List.all_eq_true.mp hl c h
  rw [Bool.and_eq_true, decide_eq_true_eq, decide_eq_true_eq] at hc
  exact isPlain_of_ascii hc.1 hc.2

theorem isPlain_digitChar {d : Nat} (h : d < 16) : isPlain (Nat.digitChar d) = true := by
  have hascii : ∀ d < 16, 0x20 ≤ (Nat.digitChar d).toNat ∧ (Nat.digitChar d).toNat ≤ 0x7E := by
    decide
  exact isPlain_of_ascii (hascii d h).1 (hascii d h).2

/-- Hexadecimal digits stand for themselves. -/
theorem isPlain_of_mem_toDigits {n : Nat} {c : Char} (h : c ∈ Nat.toDigits 16 n) :
    isPlain c = true := by
  -- the last digit is split off
  induction n using Nat.strongRecOn with
  | ind n ih =>
      rw [Nat.toDigits_eq_if (by decide)] at h
      split at h
      next hn =>
        obtain rfl := List.mem_singleton.mp h
        exact isPlain_digitChar hn
      next hn =>
        rcases List.mem_append.mp h with h | h
        · exact ih (n / 16) (by omega) h
        · obtain rfl := List.mem_singleton.mp h
          exact isPlain_digitChar (Nat.mod_lt n (by decide))

theorem isPlain_of_mem_quoteChar {c x : Char} (h : x ∈ quoteChar c) : isPlain x = true := by
  unfold quoteChar at h
  split at h
  case h_7 =>
    -- the character has no letter of its own
    split at h
    next hplain =>
      obtain rfl := List.mem_singleton.mp h
      exact hplain
    next =>
      rcases List.mem_append.mp h with h | h
      · rcases List.mem_append.mp h with h | h
        · exact isPlain_of_mem_ascii (by decide) h
        · exact isPlain_of_mem_toDigits h
      · exact isPlain_of_mem_ascii (by decide) h
  all_goals exact isPlain_of_mem_ascii (by decide) h

/-- **Quoted strings are visible.** Whatever a string holds, between quotes it is written with
characters that stand for themselves. -/
theorem isPlain_of_mem_quoted {text : String} {x : Char} (h : x ∈ (quoted text).toList) :
    isPlain x = true := by
  rw [quoted, String.toList_ofList, List.mem_append, List.mem_cons, List.mem_flatMap] at h
  rcases h with (rfl | ⟨c, -, h⟩) | h
  · exact isPlain_of_ascii (by decide) (by decide)
  · exact isPlain_of_mem_quoteChar h
  · exact isPlain_of_mem_ascii (by decide) h

end PathAlgebra.Text
