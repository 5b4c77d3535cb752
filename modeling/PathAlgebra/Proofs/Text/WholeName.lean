import PathAlgebra.Proofs.Text.Cutting

set_option autoImplicit false

/-! # Reading a whole name

Reading a whole name cuts at most three pieces off a text: blanks, a name and blanks. What is
answered depends on the shape of the text alone. `ReadsWholeName` lists the three shapes, with the
answer and the rest that belong to each, and says nothing of how the text is gone through;
`readWholeName` does exactly what it says (`readWholeName_eq_iff`). So every text has one of the
shapes, and only one.
-/

namespace PathAlgebra.Text

/-- What is answered and what is left when a text is read as a whole name, and the pieces that are
cut off it. -/
inductive ReadsWholeName : List Char → Fallible (List Char) → List Piece → List Char → Prop
  /-- A name between blanks makes up the text. -/
  | name {text left name right : List Char}
      (cut : CutInto text [.blanks left, .name name, .blanks right] []) :
      ReadsWholeName text (.ok name) [.blanks left, .name name, .blanks right] []
  /-- After the blanks comes no name. -/
  | noName {text left rest : List Char} (cut : CutInto text [.blanks left] rest)
      (stops : StartsNoName rest) :
      ReadsWholeName text (.error (expected "identifier" rest)) [.blanks left] rest
  /-- A name is read, but the text goes on after the blanks behind it. -/
  | goesOn {text left name right rest : List Char}
      (cut : CutInto text [.blanks left, .name name, .blanks right] rest) (more : rest ≠ []) :
      ReadsWholeName text (.error (expected "end" rest))
        [.blanks left, .name name, .blanks right] rest

/-! ## The three shapes are read -/

section

variable {text left name right rest : List Char}

theorem readEnd_of_ne_nil (h : text ≠ []) : readEnd text = .error (expected "end" text) := by
  cases text with
  | nil => exact absurd rfl h
  | cons c text => rfl

theorem readWholeName_of_noName (cut : CutInto text [.blanks left] rest)
    (stops : StartsNoName rest) :
    readWholeName text = (.error (expected "identifier" rest), rest) := by
  have hskip : skipBlanks text = rest :=
    Piece.exists_isCut_iff.mp ⟨left, CutInto.single_iff.mp cut⟩
  have hread : readName? rest = none := readName?_eq_none_iff.mpr stops
  simp only [readWholeName, hskip, hread]

/-- Once a name has been read between blanks, it is answered if nothing is left. -/
theorem readWholeName_of_name (cut : CutInto text [.blanks left, .name name, .blanks right] rest) :
    readWholeName text = ((readEnd rest).map fun _ => name, rest) := by
  obtain ⟨start, hleft, cut⟩ := CutInto.cons_iff.mp cut
  obtain ⟨behind, hname, cut⟩ := CutInto.cons_iff.mp cut
  have hskip : skipBlanks text = start := Piece.exists_isCut_iff.mp ⟨left, hleft⟩
  have hread : readName? start = some (name, behind) := Piece.isCut_name_iff.mp hname
  have hskip' : skipBlanks behind = rest :=
    Piece.exists_isCut_iff.mp ⟨right, CutInto.single_iff.mp cut⟩
  simp only [readWholeName, hskip, hread, hskip']

end

/-- Every text has one of the three shapes. -/
theorem exists_readsWholeName (text : List Char) :
    ∃ answer pieces rest, ReadsWholeName text answer pieces rest := by
  obtain ⟨left, hleft⟩ := Piece.exists_isCut_skipBlanks text
  cases hread : readName? (skipBlanks text) with
  | none =>
      have hcut := CutInto.single_iff.mpr hleft
      exact ⟨_, _, _, .noName hcut (readName?_eq_none_iff.mp hread)⟩
  | some split =>
      obtain ⟨name, behind⟩ := split
      have hname : (Piece.name name).IsCut (skipBlanks text) behind :=
        Piece.isCut_name_iff.mpr hread
      obtain ⟨right, hright⟩ := Piece.exists_isCut_skipBlanks behind
      have hcut := CutInto.cons hleft (.cons hname (CutInto.single_iff.mpr hright))
      by_cases hend : skipBlanks behind = []
      · rw [hend] at hcut
        exact ⟨_, _, _, .name hcut⟩
      · exact ⟨_, _, _, .goesOn hcut hend⟩

theorem ReadsWholeName.eq_readWholeName {text rest : List Char} {answer : Fallible (List Char)}
    {pieces : List Piece} (h : ReadsWholeName text answer pieces rest) :
    readWholeName text = (answer, rest) := by
  cases h with
  | name cut => exact readWholeName_of_name cut
  | noName cut stops => exact readWholeName_of_noName cut stops
  | goesOn cut more =>
      rw [readWholeName_of_name cut, readEnd_of_ne_nil more]
      rfl

theorem readWholeName_eq_iff {text rest : List Char} {answer : Fallible (List Char)} :
    readWholeName text = (answer, rest) ↔ ∃ pieces, ReadsWholeName text answer pieces rest := by
  constructor
  · intro h
    obtain ⟨answer', pieces, rest', hreads⟩ := exists_readsWholeName text
    -- what is read has an answer and a rest that belong to the shape of the text
    have heq := hreads.eq_readWholeName.symm.trans h
    cases heq
    exact ⟨pieces, hreads⟩
  · rintro ⟨pieces, h⟩
    exact h.eq_readWholeName

/-! ## The grammar -/

theorem isPadded_of_cutInto {text left name right : List Char}
    (cut : CutInto text [.blanks left, .name name, .blanks right] []) : IsPadded name text := by
  have htext : text = left ++ (name ++ (right ++ [])) ++ [] := cut.append_eq
  refine ⟨left, right, by simpa using htext, ?_, ?_, ?_⟩
  · exact cut.isSound (.blanks left) (by simp)
  · exact cut.isSound (.name name) (by simp)
  · exact cut.isSound (.blanks right) (by simp)

/-- **A text is read as a whole name by its grammar.** Names are made of ASCII letters, ASCII
digits, underscores and primes. A name is answered exactly if it makes up the text apart from
blanks around it; there is at most one such name, and nothing is left then. Any other text has a
start behind its blanks. Either no name stands there: then an identifier was expected, and the
start is left. Or a longest name does, and after the blanks behind it the text goes on: then its
end was expected, and what goes on is left. Both reports quote what is left. -/
theorem readWholeName_by_grammar (text : List Char) :
    (∀ c, isNameChar c = true ↔
      ('A' ≤ c ∧ c ≤ 'Z') ∨ ('a' ≤ c ∧ c ≤ 'z') ∨ ('0' ≤ c ∧ c ≤ '9') ∨ c = '_' ∨ c = '\'') ∧
    (∀ name, (readWholeName text).1 = .ok name ↔ IsPadded name text) ∧
    (∀ name name', IsPadded name text → IsPadded name' text → name = name') ∧
    (∀ name, (readWholeName text).1 = .ok name → (readWholeName text).2 = []) ∧
    ((¬ ∃ name, IsPadded name text) →
      ∃ left start, text = left ++ start ∧ AllBlank left ∧ StartsVisible start ∧
        ((StartsNoName start ∧
          readWholeName text = (.error (expected "identifier" start), start)) ∨
        ∃ name right rest, start = name ++ (right ++ rest) ∧ IsName name ∧
          StartsNoName (right ++ rest) ∧ AllBlank right ∧ StartsVisible rest ∧ rest ≠ [] ∧
          readWholeName text = (.error (expected "end" rest), rest))) ∧
    (∀ what rest, (expected what rest).text =
      "expected " ++ what ++ " instead of: " ++ String.ofList rest) := by
  obtain ⟨answer, pieces, rest, hreads⟩ := exists_readsWholeName text
  have heq := hreads.eq_readWholeName
  refine ⟨fun c => isNameChar_iff, fun name => readWholeName_eq_ok, fun name name' h h' => ?_,
    fun name h => ?_, fun hnot => ?_, fun what rest => rfl⟩
  · have hok := readWholeName_eq_ok.mpr h
    rw [readWholeName_eq_ok.mpr h'] at hok
    exact (Except.ok.inj hok).symm
  · rw [heq] at h ⊢
    cases hreads with
    | name cut => rfl
    | noName cut stops => cases h
    | goesOn cut more => cases h
  · cases hreads with
    | name cut => exact absurd ⟨_, isPadded_of_cutInto cut⟩ hnot
    | noName cut stops =>
        have hleft := CutInto.single_iff.mp cut
        exact ⟨_, rest, hleft.append_eq, hleft.isSound, IsLongestRun.stops hleft,
          Or.inl ⟨stops, heq⟩⟩
    | goesOn cut more =>
        obtain ⟨start, hleft, cut⟩ := CutInto.cons_iff.mp cut
        obtain ⟨behind, hname, cut⟩ := CutInto.cons_iff.mp cut
        have hright := CutInto.single_iff.mp cut
        obtain rfl : behind = _ ++ rest := hright.append_eq
        exact ⟨_, start, hleft.append_eq, hleft.isSound, IsLongestRun.stops hleft,
          Or.inr ⟨_, _, rest, hname.append_eq, hname.isSound, hname.2.stops,
            hright.isSound, IsLongestRun.stops hright, more, heq⟩⟩

/-- Two names with an ideographic space before them and a no-break space between them: the second
one is quoted where the end was expected, and is left. A letter outside ASCII is no name. -/
theorem readWholeName_by_grammar_blanks :
    readWholeName ['\u3000', 'p', '\'', '\u00A0', 'q'] = (.error (expected "end" ['q']), ['q']) ∧
    (¬ ∃ name, IsPadded name ['\u3000', 'p', '\'', '\u00A0', 'q']) ∧
    (expected "end" ['q']).text = "expected end instead of: q" ∧
    ¬ IsPadded ['é'] ['é'] := by
  have hread : readWholeName ['\u3000', 'p', '\'', '\u00A0', 'q'] =
      (.error (expected "end" ['q']), ['q']) := rfl
  obtain ⟨-, hgrammar, -, -, -, htext⟩ :=
    readWholeName_by_grammar ['\u3000', 'p', '\'', '\u00A0', 'q']
  refine ⟨hread, ?_, htext "end" ['q'], fun h => ?_⟩
  · rintro ⟨name, h⟩
    have hok := (hgrammar name).mpr h
    rw [hread] at hok
    cases hok
  · have hok := ((readWholeName_by_grammar ['é']).2.1 ['é']).mpr h
    have herror : (readWholeName ['é']).1 = .error (expected "identifier" ['é']) := rfl
    rw [herror] at hok
    cases hok

end PathAlgebra.Text
