import PathAlgebra.Theory.Pairs
import PathAlgebra.Theory.Transcript

set_option autoImplicit false

/-! # The checker

Lists and checks the theory of pair types. A refused check ends the program with code 1, a broken
assertion with code 101.
-/

open PathAlgebra

/-- Prints the transcript of the theory of pair types, and a failure on the error stream. -/
def main : IO UInt32 := do
  let transcript := Transcript.ofTheory PairTheory.theory
  (← IO.getStdout).putStr transcript.text
  match transcript.ending with
  | .ok () => return 0
  | .error (.refused report) =>
      (← IO.getStderr).putStrLn ("Error: " ++ report.text)
      return 1
  | .error (.broken breach) =>
      (← IO.getStderr).putStrLn breach.message
      return 101
