import PathAlgebra.Proofs.Text.WholeName

set_option autoImplicit false

/-! # Sequences of reading steps

Whatever steps are run one after the other, also after refusals, the text only loses pieces at its
start. `Step.Reads` lists what each kind of step may do to a text: the answer, the pieces that it
cuts off, and the rest. `Step.run` does exactly that (`Step.run_eq_iff`). A refused step may have
cut off pieces as well: where a whole name is read and the text goes on behind it, the name is gone.

`Step.ReadsAll` is the same for a sequence of steps, each of which starts at the rest that the step
before it left. The pieces taken up to a step are cut off the text in their order
(`Step.ReadsAll.cutInto`), so everything that holds of pieces holds after every step of every run.
-/

namespace PathAlgebra.Text

/-! ## Longest names -/

/-- A name with which a text begins, and no longer one does. -/
structure IsLongestName (name text : List Char) : Prop where
  /-- It is a name. -/
  isName : IsName name
  /-- The text begins with it. -/
  prefix_text : name <+: text
  /-- Any other name with which the text begins is the start of it. -/
  longest : ∀ other, IsName other → other <+: text → other <+: name

theorem startsNoName_iff {text : List Char} :
    StartsNoName text ↔ ¬ ∃ name, IsName name ∧ name <+: text := by
  constructor
  · rintro h ⟨name, hname, rest, rfl⟩
    exact hname.not_startsNoName rest h
  · intro h
    cases hread : readName? text with
    | none => exact readName?_eq_none_iff.mp hread
    | some split =>
        obtain ⟨name, rest⟩ := split
        have hcut : (Piece.name name).IsCut text rest := Piece.isCut_name_iff.mpr hread
        exact absurd ⟨name, hcut.isSound, rest, hcut.append_eq.symm⟩ h

/-- The name that is cut off a text is its longest one. -/
theorem isCut_name_iff_isLongestName {text name rest : List Char} :
    (Piece.name name).IsCut text rest ↔ IsLongestName name text ∧ text = name ++ rest := by
  constructor
  · intro h
    have htext : text = name ++ rest := h.append_eq
    refine ⟨⟨h.isSound, ⟨rest, htext.symm⟩, fun other hother hprefix => ?_⟩, htext⟩
    exact h.2.prefix_run hprefix hother.2
  · rintro ⟨⟨hname, -, hlongest⟩, rfl⟩
    refine ⟨hname.1, rfl, hname.2, fun c hc => ?_⟩
    rw [Bool.eq_false_iff]
    intro hc'
    obtain ⟨tail, rfl⟩ : ∃ tail, rest = c :: tail := List.head?_eq_some_iff.mp hc
    -- otherwise the name could go on by that character
    have hlonger : IsName (name ++ [c]) := by
      refine ⟨by simp, fun c' hmem => ?_⟩
      rcases List.mem_append.mp hmem with hmem | hmem
      · exact hname.2 c' hmem
      · rw [List.mem_singleton.mp hmem]
        exact hc'
    have hshort := (hlongest _ hlonger ⟨tail, by simp⟩).length_le
    rw [List.length_append, List.length_singleton] at hshort
    omega

/-! ## One step -/

theorem ReadsWholeName.cutInto {text rest : List Char} {answer : Fallible (List Char)}
    {pieces : List Piece} (h : ReadsWholeName text answer pieces rest) :
    CutInto text pieces rest := by
  cases h with
  | name cut => exact cut
  | noName cut stops => exact cut
  | goesOn cut more => exact cut

namespace Step

/-- What a step may answer about a text, the pieces that it cuts off, and what it leaves. -/
inductive Reads : Step → List Char → Fallible (Option (List Char)) → List Piece → List Char → Prop
  /-- Blanks are cut off. -/
  | skipBlanks {text run rest : List Char} (cut : (Piece.blanks run).IsCut text rest) :
      Reads .skipBlanks text (.ok none) [.blanks run] rest
  /-- A name is cut off and answered. -/
  | tryName {text name rest : List Char} (cut : (Piece.name name).IsCut text rest) :
      Reads .tryName text (.ok (some name)) [.name name] rest
  /-- There is no name, and that is no refusal. -/
  | noName {text : List Char} (stops : StartsNoName text) : Reads .tryName text (.ok none) [] text
  /-- Pieces are cut off as the shape of the text has it. -/
  | wholeName {text rest : List Char} {answer : Fallible (List Char)} {pieces : List Piece}
      (reads : ReadsWholeName text answer pieces rest) :
      Reads .wholeName text (answer.map some) pieces rest
  /-- The text has ended. -/
  | finish : Reads .finish [] (.ok none) [] []
  /-- The text has not ended. -/
  | goesOn {text : List Char} (more : text ≠ []) :
      Reads .finish text (.error (Text.expected "end" text)) [] text
  /-- What is there is refused. -/
  | expected (what : String) (text : List Char) :
      Reads (.expected what) text (.error (Text.expected what text)) [] text
  /-- Whatever is there is refused. -/
  | fail (cause : Cause) (text : List Char) : Reads (.fail cause) text (refuse cause) [] text

variable {step : Step} {text rest : List Char} {answer : Fallible (Option (List Char))}
  {pieces : List Piece}

theorem exists_reads (step : Step) (text : List Char) :
    ∃ answer pieces rest, step.Reads text answer pieces rest := by
  cases step with
  | skipBlanks =>
      obtain ⟨run, cut⟩ := Piece.exists_isCut_skipBlanks text
      exact ⟨_, _, _, .skipBlanks cut⟩
  | tryName =>
      cases hread : readName? text with
      | none => exact ⟨_, _, _, .noName (readName?_eq_none_iff.mp hread)⟩
      | some split => exact ⟨_, _, _, .tryName (Piece.isCut_name_iff.mpr hread)⟩
  | wholeName =>
      obtain ⟨answer, pieces, rest, reads⟩ := exists_readsWholeName text
      exact ⟨_, _, _, .wholeName reads⟩
  | finish =>
      by_cases hend : text = []
      · rw [hend]
        exact ⟨_, _, _, .finish⟩
      · exact ⟨_, _, _, .goesOn hend⟩
  | expected what => exact ⟨_, _, _, .expected what text⟩
  | fail cause => exact ⟨_, _, _, .fail cause text⟩

theorem Reads.eq_run (h : step.Reads text answer pieces rest) : step.run text = (answer, rest) := by
  cases h with
  | skipBlanks cut => rw [run, Piece.exists_isCut_iff.mp ⟨_, cut⟩]
  | tryName cut => simp only [run, Piece.isCut_name_iff.mp cut]
  | noName stops => simp only [run, readName?_eq_none_iff.mpr stops]
  | wholeName reads => simp only [run, reads.eq_readWholeName]
  | finish => rfl
  | goesOn more =>
      rw [run, readEnd_of_ne_nil more]
      rfl
  | expected what => rfl
  | fail cause => rfl

theorem run_eq_iff :
    step.run text = (answer, rest) ↔ ∃ pieces, step.Reads text answer pieces rest := by
  constructor
  · intro h
    obtain ⟨answer', pieces, rest', hreads⟩ := exists_reads step text
    -- a step has one answer and one rest, whichever way it goes
    have heq := hreads.eq_run.symm.trans h
    cases heq
    exact ⟨pieces, hreads⟩
  · rintro ⟨pieces, h⟩
    exact h.eq_run

theorem Reads.cutInto (h : step.Reads text answer pieces rest) : CutInto text pieces rest := by
  cases h with
  | skipBlanks cut => exact CutInto.single_iff.mpr cut
  | tryName cut => exact CutInto.single_iff.mpr cut
  | wholeName reads => exact reads.cutInto
  | noName | finish | goesOn | expected | fail => exact .nil _

/-! ### What single steps do -/

section

variable {name : List Char}

theorem run_tryName_eq_some_iff :
    tryName.run text = (.ok (some name), rest) ↔ (Piece.name name).IsCut text rest := by
  rw [run_eq_iff]
  constructor
  · rintro ⟨pieces, h⟩
    cases h with
    | tryName cut => exact cut
  · intro cut
    exact ⟨_, .tryName cut⟩

theorem run_tryName_eq_none_iff :
    tryName.run text = (.ok none, rest) ↔ StartsNoName text ∧ rest = text := by
  rw [run_eq_iff]
  constructor
  · rintro ⟨pieces, h⟩
    cases h with
    | noName stops => exact ⟨stops, rfl⟩
  · rintro ⟨stops, rfl⟩
    exact ⟨_, .noName stops⟩

/-- Looking for a name is never refused. -/
theorem exists_run_tryName_eq_ok (text : List Char) :
    ∃ name? rest, tryName.run text = (.ok name?, rest) := by
  obtain ⟨answer, pieces, rest, h⟩ := exists_reads tryName text
  cases h with
  | tryName cut => exact ⟨_, _, run_tryName_eq_some_iff.mpr cut⟩
  | noName stops => exact ⟨_, _, run_tryName_eq_none_iff.mpr ⟨stops, rfl⟩⟩

/-- Behind a name there is no other. -/
theorem run_tryName_rest (h : tryName.run text = (.ok (some name), rest)) :
    tryName.run rest = (.ok none, rest) :=
  run_tryName_eq_none_iff.mpr ⟨(run_tryName_eq_some_iff.mp h).2.stops, rfl⟩

/-- Once a whole name has been read, the text has ended. -/
theorem rest_of_run_wholeName {name? : Option (List Char)}
    (h : wholeName.run text = (.ok name?, rest)) : rest = [] := by
  obtain ⟨pieces, h⟩ := run_eq_iff.mp h
  generalize hanswer : Except.ok name? = answer at h
  cases h with
  | wholeName reads =>
      cases reads with
      | name cut => rfl
      | noName cut stops => cases hanswer
      | goesOn cut more => cases hanswer

end

/-! ## Sequences of steps -/

/-- What a sequence of steps answers about a text and leaves after each step, and the pieces that
each step cuts off. -/
inductive ReadsAll : List Step → List Char → List (Fallible (Option (List Char)) × List Char) →
    List (List Piece) → Prop
  /-- Without a step nothing happens. -/
  | nil (text : List Char) : ReadsAll [] text [] []
  /-- A step is followed by others, which start at the rest that it leaves. -/
  | cons {step : Step} {text middle : List Char} {answer : Fallible (Option (List Char))}
      {pieces : List Piece} {steps : List Step}
      {results : List (Fallible (Option (List Char)) × List Char)} {taken : List (List Piece)}
      (first : step.Reads text answer pieces middle) (others : ReadsAll steps middle results taken) :
      ReadsAll (step :: steps) text ((answer, middle) :: results) (pieces :: taken)

variable {steps : List Step} {results : List (Fallible (Option (List Char)) × List Char)}
  {taken : List (List Piece)} {i : Nat}

theorem exists_readsAll (steps : List Step) (text : List Char) :
    ∃ taken, ReadsAll steps text (runAll steps text) taken := by
  induction steps generalizing text with
  | nil => exact ⟨[], .nil text⟩
  | cons step steps ih =>
      obtain ⟨answer, pieces, rest, hreads⟩ := exists_reads step text
      obtain ⟨taken, hothers⟩ := ih rest
      rw [runAll, hreads.eq_run]
      exact ⟨pieces :: taken, .cons hreads hothers⟩

/-- The pieces that are taken up to a step are cut off the text, and its rest is left. -/
theorem ReadsAll.cutInto (h : ReadsAll steps text results taken)
    (hi : results[i]? = some (answer, rest)) : CutInto text (taken.take (i + 1)).flatten rest := by
  induction h generalizing i with
  | nil text => cases hi
  | cons first others ih =>
      rw [List.take_succ_cons, List.flatten_cons]
      cases i with
      | zero =>
          cases hi
          simpa using first.cutInto
      | succ i => exact first.cutInto.append (ih hi)

/-- Every step of a sequence is run on some text. -/
theorem exists_getElem?_runAll (text : List Char) (hstep : steps[i]? = some step) :
    ∃ start, (runAll steps text)[i]? = some (step.run start) := by
  induction steps generalizing text i with
  | nil => cases hstep
  | cons first steps ih =>
      cases i with
      | zero =>
          obtain rfl : first = step := Option.some.inj hstep
          exact ⟨text, rfl⟩
      | succ i => exact ih (first.run text).2 hstep

/-- The next step starts at the rest that the step before it has left. -/
theorem getElem?_runAll_succ (hi : (runAll steps text)[i]? = some (answer, rest))
    (hnext : steps[i + 1]? = some step) : (runAll steps text)[i + 1]? = some (step.run rest) := by
  induction steps generalizing text i with
  | nil => cases hi
  | cons first steps ih =>
      cases i with
      | zero =>
          have hrest : first.run text = (answer, rest) := Option.some.inj hi
          cases steps with
          | nil => cases hnext
          | cons second steps =>
              obtain rfl : second = step := Option.some.inj hnext
              rw [runAll, hrest]
              rfl
      | succ i => exact ih hi hnext

/-! ## What runs take -/

/-- **Steps only take pieces off the start of a text, in whatever order they are run.** The pieces
are those that the steps of the run cut off, blanks that are skipped and names that are read. After
each step, refused or not, the rest is the end of the text, and the pieces so far are what stands
before it; each of them begins and ends between two characters of the text, also counted in bytes.
Looking for a name answers the longest one there is and leaves what follows it; it answers none
exactly if the text does not begin with one, and leaves the text then. Asking for the end and
refusing leave the text. Once a whole name has been read nothing is left. Behind a name that has
been looked for the next step does not find another. -/
theorem runAll_takes_pieces (steps : List Step) (text : List Char) :
    (∃ taken, ReadsAll steps text (runAll steps text) taken ∧
      ∀ i answer rest, (runAll steps text)[i]? = some (answer, rest) →
        rest <:+ text ∧
        text = (taken.take (i + 1)).flatten.flatMap Piece.chars ++ rest ∧
        (∀ piece ∈ (taken.take (i + 1)).flatten, piece.IsSound) ∧
        ∀ before after, (taken.take (i + 1)).flatten = before ++ after →
          ∃ pos : (String.ofList text).Pos,
            pos.Splits (String.ofList (before.flatMap Piece.chars))
              (String.ofList (after.flatMap Piece.chars ++ rest))) ∧
    (∀ start name rest, tryName.run start = (.ok (some name), rest) ↔
      IsLongestName name start ∧ start = name ++ rest) ∧
    (∀ start rest, tryName.run start = (.ok none, rest) ↔
      (¬ ∃ name, IsName name ∧ name <+: start) ∧ rest = start) ∧
    (∀ start, ∃ name? rest, tryName.run start = (.ok name?, rest)) ∧
    (∀ start, (finish.run start).2 = start ∧
      (∀ what, ((Step.expected what).run start).2 = start) ∧
      ∀ cause, ((fail cause).run start).2 = start) ∧
    (∀ start name? rest, wholeName.run start = (.ok name?, rest) → rest = []) ∧
    (∀ i name rest, steps[i]? = some tryName → steps[i + 1]? = some tryName →
      (runAll steps text)[i]? = some (.ok (some name), rest) →
      (runAll steps text)[i + 1]? = some (.ok none, rest)) := by
  obtain ⟨taken, hreads⟩ := exists_readsAll steps text
  refine ⟨⟨taken, hreads, fun i answer rest hi => ?_⟩, fun start name rest => ?_,
    fun start rest => ?_, exists_run_tryName_eq_ok, fun start => ⟨rfl, fun _ => rfl, fun _ => rfl⟩,
    fun start name? rest => rest_of_run_wholeName, fun i name rest hstep hnext hi => ?_⟩
  · have cut : CutInto text (taken.take (i + 1)).flatten rest := hreads.cutInto hi
    exact ⟨⟨_, cut.append_eq.symm⟩, cut.append_eq, cut.isSound, fun _ _ => cut.exists_pos⟩
  · rw [run_tryName_eq_some_iff, isCut_name_iff_isLongestName]
  · rw [run_tryName_eq_none_iff, startsNoName_iff]
  · obtain ⟨start, hstart⟩ := exists_getElem?_runAll text hstep
    have hread : tryName.run start = (.ok (some name), rest) :=
      Option.some.inj (hstart.symm.trans hi)
    rw [getElem?_runAll_succ hi hnext, run_tryName_rest hread]

/-- A whole name is refused where a letter outside ASCII follows it: the ideographic space and the
name before that letter are gone, and the steps after the refusal leave the letter. Of two names
with a space between them the second one is not found at once. -/
theorem runAll_takes_pieces_refused :
    ((∃ pieces : List Piece, ['\u3000', 'p', 'é'] = pieces.flatMap Piece.chars ++ ['é'] ∧
        ∀ piece ∈ pieces, piece.IsSound) ∧
      tryName.run ['é'] = (.ok none, ['é'])) ∧
    (runAll [tryName, tryName] ['p', ' ', 'q'])[1]? = some (.ok none, [' ', 'q']) := by
  obtain ⟨⟨taken, -, hpieces⟩, -, hnone, -⟩ :=
    runAll_takes_pieces [wholeName, finish] ['\u3000', 'p', 'é']
  obtain ⟨-, -, -, -, -, -, htwice⟩ := runAll_takes_pieces [tryName, tryName] ['p', ' ', 'q']
  obtain ⟨-, htext, hsound, -⟩ := hpieces 1 (.error (Text.expected "end" ['é'])) ['é'] rfl
  refine ⟨⟨⟨_, htext, hsound⟩, (hnone ['é'] ['é']).mpr ⟨?_, rfl⟩⟩, ?_⟩
  · exact startsNoName_iff.mp fun c hc => by cases hc; decide
  · exact htwice 0 ['p'] [' ', 'q'] rfl rfl rfl

end Step

end PathAlgebra.Text
