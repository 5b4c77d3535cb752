import PathAlgebra.Text.Name
import PathAlgebra.Text.Symbol
import PathAlgebra.Theory.TaskRunner

set_option autoImplicit false

/-! # Theories

A theory is a collection of named obligations, each with a statement for the reader and a check
that discharges it. Names are read from what is declared, without the blanks around them, and no
name is used twice. A theory keeps names as symbols and has a table for these, which grows with
every name that is declared or looked up. All obligations are checked even if one is refused, and
all refusals are reported.
-/

namespace PathAlgebra

/-- A named statement with the check that discharges it. -/
structure Obligation where
  /-- The name. -/
  name : String
  /-- What is to be shown. -/
  statement : String
  /-- Shows it. -/
  check : Unit → Outcome Unit

/-- An obligation of a theory, which is named by a symbol. -/
structure Entry (κ : Type) where
  /-- The symbol of the name. -/
  symbol : κ
  /-- What is to be shown. -/
  statement : String
  /-- Shows it. -/
  check : Unit → Outcome Unit

/-- A collection of obligations, and the table of their symbols. -/
structure Theory (σ κ : Type) where
  /-- The table of symbols. -/
  symbols : σ
  /-- The obligations, in the order of declaration. -/
  entries : List (Entry κ)

namespace Theory

variable {σ κ : Type} [SymbolTable σ κ]

/-- The name of an obligation. -/
def displayName (theory : Theory σ κ) (e : Entry κ) : String :=
  SymbolTable.resolve theory.symbols e.symbol

/-- The obligations under their names. -/
def obligations (theory : Theory σ κ) : List Obligation :=
  theory.entries.map fun e => ⟨theory.displayName e, e.statement, e.check⟩

/-- The obligation with a name, which has to match exactly, and the theory after looking for it.
The table then has the name, also if no obligation does. -/
def find? [DecidableEq κ] (theory : Theory σ κ) (name : String) :
    Option (Entry κ) × Theory σ κ :=
  let interned := SymbolTable.intern name theory.symbols
  (theory.entries.find? fun e => e.symbol = interned.1, { theory with symbols := interned.2 })

/-- Adds an obligation under the name that is read from the declared one. -/
def declare [DecidableEq κ] (theory : Theory σ κ) (o : Obligation) : Fallible (Theory σ κ) := do
  let name ← Fallible.within (.lemmaName o.name) (Text.wholeName o.name)
  let interned := SymbolTable.intern name theory.symbols
  if theory.entries.any fun e => e.symbol = interned.1 then
    refuse (.duplicateLemma name)
  else
    return ⟨interned.2, theory.entries ++ [⟨interned.1, Text.trimmed o.statement, o.check⟩]⟩

/-- The theory of a list of declared obligations; the first bad declaration is reported. -/
def ofList [DecidableEq κ] (declared : List Obligation) : Fallible (Theory σ κ) :=
  declared.foldlM declare ⟨SymbolTable.empty, []⟩

/-- The report of an obligation whose check is refused, in the context of its name. -/
def refusal (o : Obligation) : Asserted (Option Report) :=
  match Outcome.within (.lemmaCheck o.name o.statement) (o.check ()) with
  | .ok () => .ok none
  | .error (.refused report) => .ok (some report)
  | .error (.broken breach) => .error breach

/-- Checks all obligations and reports every refusal. -/
def check [TaskRunner] (theory : Theory σ κ) : Outcome Unit := do
  match ← TaskRunner.collect refusal theory.obligations with
  | [] => return ()
  | reports => .error (.refused (Report.combine reports))

end Theory

end PathAlgebra
