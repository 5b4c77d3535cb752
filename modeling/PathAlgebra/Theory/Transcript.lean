import PathAlgebra.Theory.Basic

set_option autoImplicit false

/-! # Transcripts

What a run of the checker prints: the obligations of a theory, a line for each, and after an
empty line their number once all are checked. A failure ends the transcript early.
-/

namespace PathAlgebra

/-- The lines that a run prints, and how it ends. -/
structure Transcript where
  /-- The lines, in order. -/
  lines : List String
  /-- How the run ends. -/
  ending : Outcome Unit

namespace Transcript

/-- The run of the checker on a theory, or on the reason why there is none. -/
def ofTheory {σ κ : Type} [SymbolTable σ κ] : Fallible (Theory σ κ) → Transcript
  | .error report => ⟨[], .error (.refused report)⟩
  | .ok theory =>
      let listing := theory.obligations.map fun o => o.name ++ " : " ++ o.statement
      let ending := theory.check
      let closing :=
        match ending with
        | .ok () => [toString theory.obligations.length ++ " lemmas checked"]
        | .error _ => []
      ⟨listing ++ [""] ++ closing, ending⟩

/-- The printed text; every line is ended. -/
def text (transcript : Transcript) : String :=
  String.join (transcript.lines.map fun line => line ++ "\n")

/-- Whether the run ends without a failure. -/
def succeeds (transcript : Transcript) : Bool := transcript.ending.isOk

end Transcript

end PathAlgebra
