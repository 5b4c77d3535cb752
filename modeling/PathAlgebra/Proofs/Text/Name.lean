import Mathlib.Data.List.TakeWhile
import PathAlgebra.Text.Name

set_option autoImplicit false

/-! # Names between blanks

A text is read as a name exactly if it is a name between blanks, and the name is then what is left
of the text after trimming (`wholeName_eq_ok`). No character of a name is blank, so neither
skipping blanks nor trimming takes anything away from it, and blanks end it.

What is skipped and what is read are both longest runs of characters of a class: they stop at the
end of the text or at a character outside the class (`IsLongestRun`).
-/

namespace PathAlgebra.Text

/-! ## Longest runs -/

/-- A text begins with a run of characters of a class, after which comes the end or a character
outside the class. -/
structure IsLongestRun (p : Char → Bool) (text run rest : List Char) : Prop where
  /-- The run and the rest make up the text. -/
  append_eq : text = run ++ rest
  /-- The run has only characters of the class. -/
  all_mem : ∀ c ∈ run, p c = true
  /-- The rest does not begin with one. -/
  stops : ∀ c ∈ rest.head?, p c = false

theorem isLongestRun_takeWhile (p : Char → Bool) (text : List Char) :
    IsLongestRun p text (text.takeWhile p) (text.dropWhile p) := by
  refine ⟨List.takeWhile_append_dropWhile.symm, fun c => List.mem_takeWhile_imp, fun c hc => ?_⟩
  have hstop := List.head?_dropWhile_not p text
  rw [hc] at hstop
  exact hstop

namespace IsLongestRun

variable {p : Char → Bool} {text run rest : List Char}

/-- There is one longest run at the start of a text. -/
theorem eq_takeWhile (h : IsLongestRun p text run rest) :
    run = text.takeWhile p ∧ rest = text.dropWhile p := by
  -- the class ends where the rest begins
  have hstop : rest.takeWhile p = [] ∧ rest.dropWhile p = rest := by
    cases rest with
    | nil => exact ⟨rfl, rfl⟩
    | cons c rest =>
        have hc : p c = false := h.stops c rfl
        rw [List.takeWhile_cons, List.dropWhile_cons, hc]
        exact ⟨rfl, rfl⟩
  rw [h.append_eq, List.takeWhile_append_of_pos h.all_mem, List.dropWhile_append_of_pos h.all_mem,
    hstop.1, hstop.2, List.append_nil]
  exact ⟨rfl, rfl⟩

/-- It is the longest: any other run of the class at the start of the text is the start of it. -/
theorem prefix_run (h : IsLongestRun p text run rest) {other : List Char} (hother : other <+: text)
    (hall : ∀ c ∈ other, p c = true) : other <+: run := by
  obtain ⟨tail, rfl⟩ := hother
  rw [h.eq_takeWhile.1, List.takeWhile_append_of_pos hall]
  exact List.prefix_append other _

end IsLongestRun

/-! ## Blanks -/

/-- All characters of a text are blank. -/
def AllBlank (text : List Char) : Prop := ∀ c ∈ text, isBlank c = true

/-- A text does not begin with a blank. -/
def StartsVisible (text : List Char) : Prop := ∀ c ∈ text.head?, isBlank c = false

theorem AllBlank.reverse {text : List Char} (h : AllBlank text) : AllBlank text.reverse :=
  fun c hc => h c (List.mem_reverse.mp hc)

theorem StartsVisible.append {text : List Char} (h : StartsVisible text) (hne : text ≠ [])
    (rest : List Char) : StartsVisible (text ++ rest) := by
  cases text with
  | nil => exact absurd rfl hne
  | cons c text => exact h

theorem skipBlanks_append {left : List Char} (h : AllBlank left) (text : List Char) :
    skipBlanks (left ++ text) = skipBlanks text :=
  List.dropWhile_append_of_pos h

theorem skipBlanks_eq_self {text : List Char} (h : StartsVisible text) :
    skipBlanks text = text := by
  cases text with
  | nil => rfl
  | cons c text =>
      have hc : isBlank c = false := h c rfl
      rw [skipBlanks, List.dropWhile_cons, hc]
      rfl

/-- Skipping blanks leaves what follows the longest run of blanks. -/
theorem skipBlanks_eq_iff {text rest : List Char} :
    skipBlanks text = rest ↔ ∃ run, IsLongestRun isBlank text run rest := by
  constructor
  · rintro rfl
    exact ⟨_, isLongestRun_takeWhile isBlank text⟩
  · rintro ⟨run, h⟩
    exact h.eq_takeWhile.2.symm

theorem skipBlanks_eq_nil {text : List Char} : skipBlanks text = [] ↔ AllBlank text :=
  List.dropWhile_eq_nil_iff

/-- What is skipped is blank. -/
theorem exists_eq_append_skipBlanks (text : List Char) :
    ∃ left, AllBlank left ∧ text = left ++ skipBlanks text :=
  ⟨text.takeWhile isBlank, fun _ => List.mem_takeWhile_imp,
    List.takeWhile_append_dropWhile.symm⟩

/-- Trimming takes away the blanks around a text that neither begins nor ends with one. -/
theorem trim_append {left text right : List Char} (hleft : AllBlank left)
    (hright : AllBlank right) (hstart : StartsVisible text)
    (hend : StartsVisible text.reverse) : trim (left ++ text ++ right) = text := by
  by_cases hnil : text = []
  · rw [hnil, List.append_nil, trim, skipBlanks_append hleft, skipBlanks_eq_nil.mpr hright]
    rfl
  · rw [trim, List.append_assoc, skipBlanks_append hleft,
      skipBlanks_eq_self (hstart.append hnil right), List.reverse_append,
      skipBlanks_append hright.reverse, skipBlanks_eq_self hend, List.reverse_reverse]

/-! ## Names -/

/-- One or more characters that may stand in a name. -/
def IsName (name : List Char) : Prop := name ≠ [] ∧ ∀ c ∈ name, isNameChar c = true

/-- A text does not begin with a name. -/
def StartsNoName (text : List Char) : Prop := ∀ c ∈ text.head?, isNameChar c = false

/-- A name makes up a text apart from blanks around it. -/
def IsPadded (name text : List Char) : Prop :=
  ∃ left right, text = left ++ name ++ right ∧ AllBlank left ∧ IsName name ∧ AllBlank right

/-- A name with blanks before and after it. -/
def IsPaddedName (text : String) : Prop :=
  ∃ left name right, text.toList = left ++ name ++ right ∧ AllBlank left ∧ IsName name ∧
    AllBlank right

/-- The characters of names are the ASCII letters, the ASCII digits, the underscore and the
prime. -/
theorem isNameChar_iff {c : Char} :
    isNameChar c = true ↔
      ('A' ≤ c ∧ c ≤ 'Z') ∨ ('a' ≤ c ∧ c ≤ 'z') ∨ ('0' ≤ c ∧ c ≤ '9') ∨ c = '_' ∨ c = '\'' := by
  -- letters and digits are ranges of code points
  change (((decide ('A' ≤ c ∧ c ≤ 'Z') || (decide ('a' ≤ c) && decide (c ≤ 'z'))) ||
    (decide ('0' ≤ c) && decide (c ≤ '9'))) || c == '_' || c == '\'') = true ↔ _
  simp only [Bool.or_eq_true, Bool.and_eq_true, decide_eq_true_eq, beq_iff_eq, or_assoc]

theorem ascii_of_isNameChar {c : Char} (h : isNameChar c = true) :
    0x21 ≤ c.toNat ∧ c.toNat ≤ 0x7E := by
  have hrange : ∀ {first last : Char}, first ≤ c ∧ c ≤ last → 0x21 ≤ first.toNat →
      last.toNat ≤ 0x7E → 0x21 ≤ c.toNat ∧ c.toNat ≤ 0x7E :=
    fun ⟨lo, hi⟩ hfirst hlast => ⟨Nat.le_trans hfirst lo, Nat.le_trans hi hlast⟩
  rcases isNameChar_iff.mp h with hupper | hlower | hdigit | rfl | rfl
  · exact hrange hupper (by decide) (by decide)
  · exact hrange hlower (by decide) (by decide)
  · exact hrange hdigit (by decide) (by decide)
  · decide
  · decide

/-- The characters of names are among the visible ASCII characters, of which none is blank. -/
theorem isBlank_eq_false {c : Char} (h : isNameChar c = true) : isBlank c = false := by
  obtain ⟨lo, hi⟩ := ascii_of_isNameChar h
  exact inRanges_eq_false (by decide) lo hi

theorem IsName.startsVisible {name : List Char} (h : IsName name) : StartsVisible name :=
  fun c hc => isBlank_eq_false (h.2 c (List.mem_of_mem_head? hc))

theorem IsName.reverse {name : List Char} (h : IsName name) : IsName name.reverse :=
  ⟨fun hnil => h.1 (List.reverse_eq_nil_iff.mp hnil), fun c hc => h.2 c (List.mem_reverse.mp hc)⟩

/-- The name that is read is the longest one: it is followed by nothing, or by a character that
cannot stand in a name. -/
theorem readName?_eq_some_iff {text name rest : List Char} :
    readName? text = some (name, rest) ↔
      text = name ++ rest ∧ IsName name ∧ StartsNoName rest := by
  have hlongest := isLongestRun_takeWhile isNameChar text
  unfold readName?
  constructor
  · intro h
    split at h
    · cases h
    · next hne =>
      cases h
      exact ⟨hlongest.append_eq, ⟨hne, hlongest.all_mem⟩, hlongest.stops⟩
  · rintro ⟨htext, ⟨hne, hname⟩, hrest⟩
    obtain ⟨hrun, hdrop⟩ := IsLongestRun.eq_takeWhile ⟨htext, hname, hrest⟩
    rw [← hrun, ← hdrop]
    cases name with
    | nil => exact absurd rfl hne
    | cons c name => rfl

theorem IsName.not_startsNoName {name : List Char} (h : IsName name) (rest : List Char) :
    ¬ StartsNoName (name ++ rest) := by
  obtain ⟨hne, hall⟩ := h
  intro hstop
  cases name with
  | nil => exact hne rfl
  | cons c name =>
      have hc : isNameChar c = true := hall c List.mem_cons_self
      rw [hstop c rfl] at hc
      cases hc

/-- No name is read only where the text does not begin with one. -/
theorem readName?_eq_none_iff {text : List Char} : readName? text = none ↔ StartsNoName text := by
  constructor
  · intro h
    have hlongest := isLongestRun_takeWhile isNameChar text
    unfold readName? at h
    split at h
    · next hnil =>
      rw [hnil] at hlongest
      have htext : text = text.dropWhile isNameChar := hlongest.append_eq
      rw [htext]
      exact hlongest.stops
    · cases h
  · intro h
    cases hread : readName? text with
    | none => rfl
    | some split =>
        obtain ⟨name, rest⟩ := split
        obtain ⟨rfl, hname, -⟩ := readName?_eq_some_iff.mp hread
        exact absurd h (hname.not_startsNoName rest)

theorem AllBlank.startsNoName {text : List Char} (h : AllBlank text) : StartsNoName text := by
  intro c hc
  rw [Bool.eq_false_iff]
  intro hname
  have hblank := h c (List.mem_of_mem_head? hc)
  rw [isBlank_eq_false hname] at hblank
  cases hblank

/-- Reading a whole text as a name takes the name from between blanks, and in no other way. -/
theorem readWholeName_eq_ok {text name : List Char} :
    (readWholeName text).1 = .ok name ↔ IsPadded name text := by
  constructor
  · intro h
    obtain ⟨left, hleft, htext⟩ := exists_eq_append_skipBlanks text
    rw [readWholeName] at h
    cases hread : readName? (skipBlanks text) with
    | none => rw [hread] at h; cases h
    | some split =>
        obtain ⟨found, rest⟩ := split
        rw [hread] at h
        obtain ⟨hstart, hname, -⟩ := readName?_eq_some_iff.mp hread
        -- reading the end goes through only if nothing but blanks follows the name
        obtain ⟨rfl, hrest⟩ : found = name ∧ skipBlanks rest = [] := by
          cases hend : skipBlanks rest with
          | nil => simpa [hend, readEnd, Except.map] using h
          | cons c cs => simp [hend, readEnd, Except.map] at h
        refine ⟨left, rest, ?_, hleft, hname, skipBlanks_eq_nil.mp hrest⟩
        rw [List.append_assoc, ← hstart]
        exact htext
  · rintro ⟨left, right, rfl, hleft, hname, hright⟩
    have hstart : skipBlanks (left ++ name ++ right) = name ++ right := by
      rw [List.append_assoc, skipBlanks_append hleft,
        skipBlanks_eq_self (hname.startsVisible.append hname.1 right)]
    have hread : readName? (name ++ right) = some (name, right) :=
      readName?_eq_some_iff.mpr ⟨rfl, hname, hright.startsNoName⟩
    rw [readWholeName, hstart, hread]
    simp only [skipBlanks_eq_nil.mpr hright, readEnd, Except.map]

/-- **A text is read as a name exactly if it is a name between blanks**, and what is read is the
text without these. -/
theorem wholeName_eq_ok {text name : String} :
    wholeName text = .ok name ↔ IsPaddedName text ∧ name = trimmed text := by
  have htrim : ∀ {left found right : List Char}, text.toList = left ++ found ++ right →
      AllBlank left → IsName found → AllBlank right → trimmed text = String.ofList found := by
    intro left found right htext hleft hfound hright
    rw [trimmed, htext, trim_append hleft hright hfound.startsVisible hfound.reverse.startsVisible]
  constructor
  · intro h
    cases hread : (readWholeName text.toList).1 with
    | error report => rw [wholeName, hread] at h; cases h
    | ok found =>
        obtain ⟨left, right, htext, hleft, hfound, hright⟩ := readWholeName_eq_ok.mp hread
        rw [wholeName, hread] at h
        cases h
        exact ⟨⟨left, found, right, htext, hleft, hfound, hright⟩,
          (htrim htext hleft hfound hright).symm⟩
  · rintro ⟨⟨left, found, right, htext, hleft, hfound, hright⟩, rfl⟩
    have hread := readWholeName_eq_ok.mpr ⟨left, right, htext, hleft, hfound, hright⟩
    rw [wholeName, hread, htrim htext hleft hfound hright]
    rfl

/-- Any other text is refused. -/
theorem exists_wholeName_eq_error {text : String} (h : ¬ IsPaddedName text) :
    ∃ report, wholeName text = .error report := by
  cases hread : wholeName text with
  | error report => exact ⟨report, rfl⟩
  | ok name => exact absurd (wholeName_eq_ok.mp hread).1 h

end PathAlgebra.Text
