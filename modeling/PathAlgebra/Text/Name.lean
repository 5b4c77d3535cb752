import PathAlgebra.Outcome
import PathAlgebra.Text.Blank

set_option autoImplicit false

/-! # Reading names

A name is a non-empty run of ASCII letters, ASCII digits, underscores and primes. Reading goes
through a text from the left; a step answers and leaves the rest of the text, also when it is
refused. `readWholeName` reads a name that makes up the whole text, apart from blanks around it.
-/

namespace PathAlgebra.Text

/-- Whether a character may stand in a name. -/
def isNameChar (c : Char) : Bool := c.isAlphanum || c == '_' || c == '\''

/-- The report that something else was expected before the rest of a text. -/
def expected (what : String) (rest : List Char) : Report :=
  .ofCause (.expected what (String.ofList rest))

/-- Refuses a text that goes on. -/
def readEnd : List Char → Fallible Unit
  | [] => .ok ()
  | rest => .error (expected "end" rest)

/-- The longest name at the start of a text, and what follows it. -/
def readName? (text : List Char) : Option (List Char × List Char) :=
  match text.takeWhile isNameChar with
  | [] => none
  | name => some (name, text.dropWhile isNameChar)

/-- The name that makes up a text apart from blanks around it, and the rest of the text: nothing
after a name, and otherwise what was found in place of a name or of the end. -/
def readWholeName (text : List Char) : Fallible (List Char) × List Char :=
  let start := skipBlanks text
  match readName? start with
  | none => (.error (expected "identifier" start), start)
  | some (name, rest) =>
      let rest := skipBlanks rest
      ((readEnd rest).map fun _ => name, rest)

/-- The name that makes up a string apart from blanks around it. -/
def wholeName (text : String) : Fallible String :=
  (readWholeName text.toList).1.map String.ofList

/-! ## Steps -/

/-- One step of reading. -/
inductive Step where
  /-- Skips blanks. -/
  | skipBlanks
  /-- Reads a name, if there is one. -/
  | tryName
  /-- Reads a name that makes up the rest of the text. -/
  | wholeName
  /-- Refuses a text that goes on. -/
  | finish
  /-- Refuses, for want of something at this place. -/
  | expected (what : String)
  /-- Refuses for a cause. -/
  | fail (cause : Cause)

/-- What a step answers, which is at most a name, and the rest of the text after it. -/
def Step.run : Step → List Char → Fallible (Option (List Char)) × List Char
  | skipBlanks, text => (.ok none, Text.skipBlanks text)
  | tryName, text =>
      match readName? text with
      | none => (.ok none, text)
      | some (name, rest) => (.ok (some name), rest)
  | wholeName, text =>
      let (answer, rest) := readWholeName text
      (answer.map some, rest)
  | finish, text => ((readEnd text).map fun _ => none, text)
  | expected what, text => (.error (Text.expected what text), text)
  | fail cause, text => (refuse cause, text)

/-- The answers of a sequence of steps, and the rest of the text after each. -/
def Step.runAll : List Step → List Char → List (Fallible (Option (List Char)) × List Char)
  | [], _ => []
  | step :: steps, text =>
      let answer := step.run text
      answer :: runAll steps answer.2

end PathAlgebra.Text
