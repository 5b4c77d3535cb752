set_option autoImplicit false

/-! # Reports

A check that does not go through is refused with a report: a cause, and the contexts in which
the cause arose, outermost first. Values enter a report by their display text, so reports about
different carriers have one type.

`Cause.message` and `Context.message` fix the wording. The text of a report is its messages,
outermost first, joined by a colon. `combine` merges independent reports: one report is kept as
it is, several become a single message that lists their texts.
-/

namespace PathAlgebra

/-- Why a check is refused. -/
inductive Cause where
  /-- Two different values are not joined by a path. -/
  | noPath (left right : String)
  /-- A path does not run between the given ends. -/
  | wrongEnds (path left right : String)
  /-- A number is no element of an initial segment. -/
  | outOfRange (value bound : Nat)
  /-- A table entry lies in the wrong fiber. -/
  | wrongFiber (value index : String)
  /-- A grid entry lies in the wrong fiber. -/
  | wrongFiberPair (value first second : String)
  /-- A point has no inverse. -/
  | notAPath (cell : String)
  /-- Two cells do not meet. -/
  | cannotConcat (left right : String)
  /-- Cells of different dimensions have no pair. -/
  | dimensionMismatch (left right : String)
  /-- The center of a contraction is missing from the space it should contract. -/
  | centerOutside (center : String)
  /-- A contraction answers with a cell that does not lead from the center to the given cell. -/
  | wrongContraction (answer center cell : String)
  /-- Level 0 is no level of a proposition. -/
  | propositionLevel (level : Nat)
  /-- Levels 0 and 1 are no levels of a set. -/
  | setLevel (level : Nat)
  /-- Level 0 needs a contraction. -/
  | noContraction
  /-- Level 0 of a pair type needs a contraction of both factors. -/
  | noContractions
  /-- A text does not go on as it should. -/
  | expected (what rest : String)
  /-- A lemma name is used twice. -/
  | duplicateLemma (name : String)
  /-- Several reports at once, given by their texts. -/
  | several (texts : List String)
  /-- A cause in free wording. -/
  | remark (text : String)
  deriving DecidableEq

/-- The wording of a cause. -/
def Cause.message : Cause → String
  | .noPath left right => s!"no path between «{left}» and «{right}»"
  | .wrongEnds path left right => s!"path «{path}» does not have type «{left}» = «{right}»"
  | .outOfRange value bound => s!"{value} is out of range for Fin<{bound}>"
  | .wrongFiber value index => s!"value «{value}» does not lie over «{index}»"
  | .wrongFiberPair value first second =>
      s!"value «{value}» does not lie over «{first}», «{second}»"
  | .notAPath cell => s!"«{cell}» is not a path"
  | .cannotConcat left right => s!"cannot concatenate «{left}» and «{right}»"
  | .dimensionMismatch left right => s!"cells «{left}» and «{right}» have different dimensions"
  | .centerOutside center => s!"center «{center}» is not in the space"
  | .wrongContraction answer center cell =>
      s!"«{answer}» is not a path from «{center}» to «{cell}»"
  | .propositionLevel level => s!"a proposition only has level 1 or above, not {level}"
  | .setLevel level => s!"a set only has level 2 or above, not {level}"
  | .noContraction => "level 0 requires a contractibility witness"
  | .noContractions => "level 0 requires contractibility witnesses for both factors"
  | .expected what rest => s!"expected {what} instead of: {rest}"
  | .duplicateLemma name => s!"lemma «{name}» is declared twice"
  | .several texts => toString texts.length ++ " errors:\n\n" ++ "\n\n".intercalate texts
  | .remark text => text

theorem Cause.message_several (texts : List String) : (several texts).message =
    toString texts.length ++ " errors:\n\n" ++ "\n\n".intercalate texts := rfl

/-- Where a cause arose. -/
inductive Context where
  /-- The round trip through the inverse, at a point of the domain. -/
  | sectionLaw (point : String)
  /-- The triangle law, at a point of the domain. -/
  | adjointnessLaw (point : String)
  /-- The round trip that was handed in, at a point of the codomain. -/
  | roundTripLaw (point : String)
  /-- The round trip in use, at a point of the codomain. -/
  | retractionLaw (point : String)
  /-- The contraction of a cell. -/
  | contracting (cell : String)
  /-- The path space between two cells. -/
  | pathsBetween (start finish : String)
  /-- The name of a lemma, as it was written. -/
  | lemmaName (written : String)
  /-- The check of a lemma. -/
  | lemmaCheck (name statement : String)
  /-- A choice of carriers. -/
  | carriers (names : String)
  /-- The paths with two given ends. -/
  | fixedEnds (left right : String)
  /-- A context in free wording. -/
  | remark (text : String)
  deriving DecidableEq

/-- The wording of a context. -/
def Context.message : Context → String
  | .sectionLaw point => s!"section law fails at «{point}»"
  | .adjointnessLaw point => s!"adjointness law fails at «{point}»"
  | .roundTripLaw point => s!"round-trip law fails at «{point}»"
  | .retractionLaw point => s!"retraction law fails at «{point}»"
  | .contracting cell => s!"cannot contract «{cell}»"
  | .pathsBetween start finish => s!"paths from «{start}» to «{finish}»"
  | .lemmaName written => s!"invalid lemma name «{written}»"
  | .lemmaCheck name statement => s!"failed to check «{name}» ({statement})"
  | .carriers names => s!"on «{names}»"
  | .fixedEnds left right => s!"between «{left}» and «{right}»"
  | .remark text => text

/-- A refused check: what went wrong, and in which contexts, outermost first. -/
structure Report where
  /-- The contexts, outermost first. -/
  contexts : List Context
  /-- What went wrong inside all of them. -/
  cause : Cause
  deriving DecidableEq

namespace Report

/-- The report of a cause that arose in no particular context. -/
def ofCause (cause : Cause) : Report := ⟨[], cause⟩

/-- Puts a report into one more context, outside those it has. -/
def within (context : Context) (report : Report) : Report :=
  { report with contexts := context :: report.contexts }

/-- All messages of a report, outermost first; the cause comes last. -/
def messages (report : Report) : List String :=
  report.contexts.map Context.message ++ [report.cause.message]

/-- The outermost message alone. -/
def headline (report : Report) : String :=
  match report.contexts with
  | [] => report.cause.message
  | context :: _ => context.message

/-- The messages joined by a colon and a blank. -/
def text (report : Report) : String := ": ".intercalate report.messages

/-- Merges independent reports. A single report is kept with its contexts; any other number
becomes one cause that lists the texts. -/
def combine : List Report → Report
  | [report] => report
  | reports => ofCause (.several (reports.map text))

@[simp] theorem messages_ofCause (cause : Cause) :
    (ofCause cause).messages = [cause.message] := rfl

@[simp] theorem messages_within (context : Context) (report : Report) :
    (report.within context).messages = context.message :: report.messages := rfl

@[simp] theorem combine_singleton (report : Report) : combine [report] = report := rfl

end Report

/-! ## Nested reports

A nested report is built from causes by contexts and merging, in any order. -/

/-- A report together with the way it came about. -/
inductive ReportTree where
  /-- A single cause. -/
  | leaf (cause : Cause)
  /-- A nested report in one more context. -/
  | inside (context : Context) (tree : ReportTree)
  /-- Several nested reports merged into one. -/
  | merged (trees : List ReportTree)

namespace ReportTree

mutual

/-- The report that a nested report amounts to. -/
def report : ReportTree → Report
  | leaf cause => Report.ofCause cause
  | inside context tree => tree.report.within context
  | merged trees => Report.combine (reports trees)

/-- The reports that nested reports amount to, in order. -/
def reports : List ReportTree → List Report
  | [] => []
  | tree :: trees => tree.report :: reports trees

end

theorem reports_eq_map (trees : List ReportTree) : reports trees = trees.map report := by
  induction trees with
  | nil => simp [reports]
  | cons tree trees ih => simp [reports, ih]

/-- Induction on nested reports: of merged ones every part is smaller. -/
@[elab_as_elim, induction_eliminator]
theorem induction {motive : ReportTree → Prop} (leaf : ∀ cause, motive (leaf cause))
    (inside : ∀ context tree, motive tree → motive (inside context tree))
    (merged : ∀ trees, (∀ tree ∈ trees, motive tree) → motive (merged trees)) :
    ∀ tree, motive tree
  | .leaf cause => leaf cause
  | .inside context tree => inside context tree (induction leaf inside merged tree)
  | .merged trees => merged trees fun tree _ => induction leaf inside merged tree

end ReportTree

end PathAlgebra
