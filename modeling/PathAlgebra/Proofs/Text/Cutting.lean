import PathAlgebra.Proofs.Text.Name

set_option autoImplicit false

/-! # Cutting a text into pieces

Reading takes two kinds of pieces off the start of a text: blanks, which are skipped, and names.
Each piece is as long as it can be where it is cut off (`Piece.IsCut`), and a sequence of pieces is
cut off one after the other (`CutInto`). The pieces and the rest make up the text, and between any
two of them stands a position of the text at which no character is cut apart
(`CutInto.exists_pos`): positions count bytes, and a character may take several.
-/

namespace PathAlgebra.Text

/-! ## Pieces -/

/-- A piece that is taken off the start of a text. -/
inductive Piece where
  /-- Blanks, which may be none. -/
  | blanks (run : List Char)
  /-- A name. -/
  | name (letters : List Char)

namespace Piece

/-- The characters of a piece. -/
def chars : Piece → List Char
  | blanks run => run
  | name letters => letters

/-- A piece consists of what its kind asks for. -/
def IsSound : Piece → Prop
  | blanks run => AllBlank run
  | name letters => IsName letters

/-- A piece is as long as it can be at the start of a text, and `rest` follows it. -/
def IsCut : Piece → List Char → List Char → Prop
  | blanks run, text, rest => IsLongestRun isBlank text run rest
  | name letters, text, rest => letters ≠ [] ∧ IsLongestRun isNameChar text letters rest

variable {piece : Piece} {text rest : List Char}

theorem IsCut.append_eq (h : piece.IsCut text rest) : text = piece.chars ++ rest := by
  cases piece with
  | blanks run => exact IsLongestRun.append_eq h
  | name letters => exact h.2.append_eq

theorem IsCut.isSound (h : piece.IsCut text rest) : piece.IsSound := by
  cases piece with
  | blanks run => exact IsLongestRun.all_mem h
  | name letters => exact ⟨h.1, h.2.all_mem⟩

/-- Skipping blanks cuts off a piece of blanks. -/
theorem exists_isCut_iff : (∃ run, (blanks run).IsCut text rest) ↔ skipBlanks text = rest :=
  skipBlanks_eq_iff.symm

/-- Blanks can be cut off every text. -/
theorem exists_isCut_skipBlanks (text : List Char) :
    ∃ run, (blanks run).IsCut text (skipBlanks text) :=
  exists_isCut_iff.mpr rfl

/-- Exactly the names that are cut off are read. -/
theorem isCut_name_iff {letters : List Char} :
    (name letters).IsCut text rest ↔ readName? text = some (letters, rest) := by
  rw [readName?_eq_some_iff]
  exact ⟨fun ⟨hne, h⟩ => ⟨h.append_eq, ⟨hne, h.all_mem⟩, h.stops⟩,
    fun ⟨h, ⟨hne, hall⟩, hstop⟩ => ⟨hne, h, hall, hstop⟩⟩

end Piece

/-! ## Sequences of pieces -/

/-- The pieces are cut off the start of a text, one after the other, and `rest` is left. -/
inductive CutInto : List Char → List Piece → List Char → Prop
  /-- Nothing is cut off. -/
  | nil (text : List Char) : CutInto text [] text
  /-- One more piece is cut off before the others. -/
  | cons {text middle rest : List Char} {piece : Piece} {pieces : List Piece}
      (first : piece.IsCut text middle) (others : CutInto middle pieces rest) :
      CutInto text (piece :: pieces) rest

namespace CutInto

variable {text middle rest : List Char} {piece : Piece} {pieces pieces' : List Piece}

theorem cons_iff : CutInto text (piece :: pieces) rest ↔
    ∃ middle, piece.IsCut text middle ∧ CutInto middle pieces rest := by
  constructor
  · intro h
    cases h with
    | cons first others => exact ⟨_, first, others⟩
  · rintro ⟨middle, first, others⟩
    exact .cons first others

theorem single_iff : CutInto text [piece] rest ↔ piece.IsCut text rest := by
  constructor
  · intro h
    obtain ⟨_, first, ⟨⟩⟩ := cons_iff.mp h
    exact first
  · intro h
    exact .cons h (.nil rest)

theorem append (h : CutInto text pieces middle) (h' : CutInto middle pieces' rest) :
    CutInto text (pieces ++ pieces') rest := by
  induction h with
  | nil text => exact h'
  | cons first _ ih => exact .cons first (ih h')

/-- The pieces and the rest make up the text. -/
theorem append_eq (h : CutInto text pieces rest) :
    text = pieces.flatMap Piece.chars ++ rest := by
  induction h with
  | nil text => rfl
  | cons first _ ih => rw [List.flatMap_cons, List.append_assoc, ← ih, ← first.append_eq]

theorem isSound (h : CutInto text pieces rest) : ∀ piece ∈ pieces, piece.IsSound := by
  induction h with
  | nil text =>
      intro piece hpiece
      exact absurd hpiece List.not_mem_nil
  | cons first _ ih =>
      intro piece hpiece
      rcases List.mem_cons.mp hpiece with rfl | hpiece
      · exact first.isSound
      · exact ih piece hpiece

/-- Wherever a piece begins or ends there is a position of the text, in bytes, at which the text
can be sliced. -/
theorem exists_pos (h : CutInto text pieces rest) {before after : List Piece}
    (hsplit : pieces = before ++ after) :
    ∃ pos : (String.ofList text).Pos,
      pos.Splits (String.ofList (before.flatMap Piece.chars))
        (String.ofList (after.flatMap Piece.chars ++ rest)) := by
  have htext : String.ofList text = String.ofList (before.flatMap Piece.chars) ++
      String.ofList (after.flatMap Piece.chars ++ rest) := by
    rw [← String.ofList_append, ← List.append_assoc, ← List.flatMap_append, ← hsplit, ← h.append_eq]
  have hvalid : String.Pos.Raw.IsValid (String.ofList text)
      (String.ofList (before.flatMap Piece.chars)).rawEndPos :=
    String.Pos.Raw.isValid_iff_exists_append.mpr ⟨_, _, htext, rfl⟩
  exact ⟨⟨_, hvalid⟩, htext, rfl⟩

end CutInto

end PathAlgebra.Text
