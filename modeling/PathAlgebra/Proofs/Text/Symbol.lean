import Mathlib.Data.List.Basic
import Mathlib.Data.List.Induction
import PathAlgebra.Text.Symbol

set_option autoImplicit false

/-! # Lawful symbol tables

The state of a symbol table is told by the names that it was asked for, one after the other. A table
is lawful if the symbols that it gives at any two times are equal exactly if the names are, and if
a symbol is resolved to its name at any later time. So a symbol stands for one name only, and
keeps on doing so while the table grows (`Issued`).
-/

namespace PathAlgebra

variable {κ : Type}

namespace SymbolTable

section

variable (σ : Type) [SymbolTable σ κ]

/-- The table after it was asked for names, from the first to the last. -/
def after (names : List String) : σ :=
  names.foldl (fun table name => (intern name table).2) empty

/-- The symbol of a name in the table that was asked for others before. -/
def symbolAfter (names : List String) (name : String) : κ := (intern name (after σ names)).1

theorem after_concat (names : List String) (name : String) :
    after σ (names ++ [name]) = (intern name (after σ names)).2 :=
  List.foldl_concat _ _ _ _

end

end SymbolTable

open SymbolTable

/-- Symbols stand for names, whenever they are asked for. -/
class LawfulSymbolTable (σ : Type) {κ : outParam Type} [SymbolTable σ κ] : Prop where
  /-- Two symbols of one table are equal exactly if the names are. -/
  symbol_eq_iff : ∀ (earlier between : List String) (name name' : String),
    symbolAfter σ (earlier ++ name :: between) name' = symbolAfter σ earlier name ↔ name' = name
  /-- A symbol is resolved to its name from then on. -/
  resolve_symbol : ∀ (earlier later : List String) (name : String),
    resolve (after σ (earlier ++ name :: later)) (symbolAfter σ earlier name) = name

/-! ## Symbols in use -/

/-- The symbol was given to the name while the table was asked for the names of `history`. -/
def Issued (σ : Type) [SymbolTable σ κ] (history : List String) (symbol : κ) (name : String) :
    Prop :=
  ∃ earlier later, history = earlier ++ name :: later ∧ symbol = symbolAfter σ earlier name

section

variable {σ : Type} [SymbolTable σ κ]

theorem issued_concat (history : List String) (name : String) :
    Issued σ (history ++ [name]) (symbolAfter σ history name) name :=
  ⟨history, [], rfl, rfl⟩

namespace Issued

variable {history : List String} {symbol : κ} {name : String}

theorem append (h : Issued σ history symbol name) (more : List String) :
    Issued σ (history ++ more) symbol name := by
  obtain ⟨earlier, later, rfl, rfl⟩ := h
  exact ⟨earlier, later ++ more, by rw [List.append_assoc, List.cons_append], rfl⟩

variable [LawfulSymbolTable σ]

theorem symbolAfter_eq_iff (h : Issued σ history symbol name) (name' : String) :
    symbol = symbolAfter σ history name' ↔ name = name' := by
  obtain ⟨earlier, later, rfl, rfl⟩ := h
  rw [eq_comm, LawfulSymbolTable.symbol_eq_iff, eq_comm]

theorem resolve_eq (h : Issued σ history symbol name) :
    resolve (after σ history) symbol = name := by
  obtain ⟨earlier, later, rfl, rfl⟩ := h
  exact LawfulSymbolTable.resolve_symbol earlier later name

end Issued

end

/-! ## Lists of names -/

namespace NameTable

/-- The names of the table after it was asked for some. -/
def namesAfter (history : List String) : List String := (after NameTable history).names

theorem symbolAfter_eq (history : List String) (name : String) :
    symbolAfter NameTable history name = (namesAfter history).idxOf name := rfl

theorem namesAfter_concat (history : List String) (name : String) :
    namesAfter (history ++ [name]) =
      if name ∈ namesAfter history then namesAfter history else namesAfter history ++ [name] := by
  rw [namesAfter, after_concat]
  show (if name ∈ namesAfter history then after NameTable history
    else ⟨namesAfter history ++ [name]⟩ : NameTable).names = _
  split
  · rfl
  · rfl

/-- Names are only ever added at the end. -/
theorem exists_namesAfter_append (history later : List String) :
    ∃ added, namesAfter (history ++ later) = namesAfter history ++ added := by
  induction later using List.reverseRecOn with
  | nil => exact ⟨[], by rw [List.append_nil, List.append_nil]⟩
  | append_singleton later name ih =>
      obtain ⟨added, hadded⟩ := ih
      rw [← List.append_assoc, namesAfter_concat, hadded]
      split
      · exact ⟨added, rfl⟩
      · exact ⟨added ++ [name], List.append_assoc _ _ _⟩

/-- A name that was asked for is in the table, and where it stood or was added before. -/
theorem idxOf_namesAfter (earlier later : List String) (name : String) :
    name ∈ namesAfter (earlier ++ name :: later) ∧
      (namesAfter (earlier ++ name :: later)).idxOf name = (namesAfter earlier).idxOf name := by
  obtain ⟨added, hadded⟩ := exists_namesAfter_append (earlier ++ [name]) later
  have hhere : name ∈ namesAfter (earlier ++ [name]) ∧
      (namesAfter (earlier ++ [name])).idxOf name = (namesAfter earlier).idxOf name := by
    rw [namesAfter_concat]
    by_cases hmem : name ∈ namesAfter earlier
    · rw [if_pos hmem]
      exact ⟨hmem, rfl⟩
    · -- a name that is not in the table has as its position the one at which it is added
      rw [if_neg hmem, List.idxOf_append_of_notMem hmem, List.idxOf_cons_self,
        List.idxOf_of_notMem hmem]
      exact ⟨List.mem_append_right _ List.mem_cons_self, rfl⟩
  rw [List.append_assoc, List.singleton_append] at hadded
  rw [hadded]
  exact ⟨List.mem_append_left _ hhere.1, (List.idxOf_append_of_mem hhere.1).trans hhere.2⟩

instance : LawfulSymbolTable NameTable where
  symbol_eq_iff earlier between name name' := by
    obtain ⟨hmem, hidx⟩ := idxOf_namesAfter earlier between name
    rw [symbolAfter_eq, symbolAfter_eq, ← hidx, eq_comm, List.idxOf_inj hmem, eq_comm]
  resolve_symbol earlier later name := by
    obtain ⟨hmem, hidx⟩ := idxOf_namesAfter earlier later name
    rw [symbolAfter_eq, ← hidx]
    show ((namesAfter (earlier ++ name :: later))[_]?).getD "" = name
    rw [List.getElem?_idxOf hmem]
    rfl

end NameTable

end PathAlgebra
