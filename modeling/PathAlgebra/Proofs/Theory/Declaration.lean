import Mathlib.Data.List.Find
import Mathlib.Data.List.Forall2
import Mathlib.Data.List.Induction
import Mathlib.Data.List.Nodup
import PathAlgebra.Proofs.Sequencing
import PathAlgebra.Proofs.Text.Name
import PathAlgebra.Proofs.Text.Symbol
import PathAlgebra.Theory.Basic

set_option autoImplicit false

/-! # Declaring and looking up obligations

A theory is made by declaring one obligation after the other and is then asked for names, and each
of these steps extends the table of symbols. What the table was asked for so far is the history of
the theory. `Theory.Represents` is the invariant: the symbols in use were issued in the course of
the history, each for the name of the declared obligation at its place. Declaring and looking up
keep it, so symbols can be read as the names that they stand for: an obligation is refused exactly
if its name cannot be read or is the name of an earlier one, and looking for a name compares it
with the names of all obligations (`Theory.construction_and_lookup`).
-/

namespace PathAlgebra

open SymbolTable

/-- A declared obligation without the blanks around its name and its statement. -/
def Obligation.trimmed (o : Obligation) : Obligation :=
  ⟨Text.trimmed o.name, Text.trimmed o.statement, o.check⟩

namespace Theory

/-! ## Admissible declarations -/

/-- All names can be read, and they differ without the blanks around them. -/
def Admissible (declared : List Obligation) : Prop :=
  (∀ o ∈ declared, Text.IsPaddedName o.name) ∧ (declared.map fun o => o.trimmed.name).Nodup

/-- The reasons to refuse an obligation after others, with the report of each. -/
inductive Refuses (earlier : List Obligation) (o : Obligation) : Report → Prop
  /-- The name is none, as reading it reports. -/
  | unreadable {report : Report} (invalid : ¬ Text.IsPaddedName o.name)
      (read : Text.wholeName o.name = .error report) :
      Refuses earlier o (report.within (.lemmaName o.name))
  /-- The name is that of an earlier obligation. -/
  | repeated (valid : Text.IsPaddedName o.name)
      (mem : o.trimmed.name ∈ earlier.map fun o => o.trimmed.name) :
      Refuses earlier o (.ofCause (.duplicateLemma o.trimmed.name))

theorem admissible_concat {declared : List Obligation} {o : Obligation} :
    Admissible (declared ++ [o]) ↔ Admissible declared ∧ Text.IsPaddedName o.name ∧
      o.trimmed.name ∉ declared.map fun o => o.trimmed.name := by
  rw [Admissible, Admissible, List.map_append, List.forall_mem_append, List.forall_mem_singleton,
    List.map_singleton, ← List.concat_eq_append, List.nodup_concat, and_assoc, and_assoc]
  tauto

theorem admissible_or_refuses {declared : List Obligation} (h : Admissible declared)
    (o : Obligation) : Admissible (declared ++ [o]) ∨ ∃ report, Refuses declared o report := by
  by_cases hvalid : Text.IsPaddedName o.name
  · by_cases hmem : o.trimmed.name ∈ declared.map fun o => o.trimmed.name
    · exact Or.inr ⟨_, .repeated hvalid hmem⟩
    · exact Or.inl (admissible_concat.mpr ⟨h, hvalid, hmem⟩)
  · obtain ⟨report, hread⟩ := Text.exists_wholeName_eq_error hvalid
    exact Or.inr ⟨_, .unreadable hvalid hread⟩

/-! ## The invariant -/

section

variable {σ κ : Type} [SymbolTable σ κ]

/-- The entry is that of the declared obligation, under a symbol that was issued for its name. -/
structure EntryOf (σ : Type) {κ : Type} [SymbolTable σ κ] (history : List String) (e : Entry κ)
    (o : Obligation) : Prop where
  issued : Issued σ history e.symbol o.trimmed.name
  statement_eq : e.statement = o.trimmed.statement
  check_eq : e.check = o.check

/-- The theory has an entry for each declared obligation, in order, and its table was asked for
the names of `history`. -/
structure Represents (theory : Theory σ κ) (declared : List Obligation) (history : List String) :
    Prop where
  symbols_eq : theory.symbols = after σ history
  entries : List.Forall₂ (EntryOf σ history) theory.entries declared

theorem represents_empty : (⟨empty, []⟩ : Theory σ κ).Represents [] [] :=
  ⟨rfl, .nil⟩

theorem EntryOf.append {history : List String} {e : Entry κ} {o : Obligation}
    (h : EntryOf σ history e o) (more : List String) : EntryOf σ (history ++ more) e o :=
  ⟨h.issued.append more, h.statement_eq, h.check_eq⟩

namespace Represents

variable {theory : Theory σ κ} {declared : List Obligation} {history : List String}

/-- The invariant is kept while the table grows. -/
theorem intern (h : theory.Represents declared history) (name : String) :
    (⟨(SymbolTable.intern name theory.symbols).2, theory.entries⟩ : Theory σ κ).Represents declared
      (history ++ [name]) := by
  constructor
  · rw [h.symbols_eq, after_concat]
  · exact h.entries.imp fun _ _ he => he.append [name]

theorem symbol_intern (h : theory.Represents declared history) (name : String) :
    (SymbolTable.intern name theory.symbols).1 = symbolAfter σ history name := by
  rw [h.symbols_eq]
  rfl

variable [LawfulSymbolTable σ]

/-- The display name of an entry is that of the declared obligation. -/
theorem displayName_eq (h : theory.Represents declared history) {e : Entry κ} {o : Obligation}
    (he : EntryOf σ history e o) : theory.displayName e = o.trimmed.name := by
  rw [displayName, h.symbols_eq]
  exact he.issued.resolve_eq

/-- The obligations are listed as they were declared. -/
theorem obligations_eq (h : theory.Represents declared history) :
    theory.obligations = declared.map Obligation.trimmed := by
  rw [obligations, ← List.forall₂_eq_eq_eq, List.forall₂_map_left_iff, List.forall₂_map_right_iff]
  refine h.entries.imp fun e o he => ?_
  rw [h.displayName_eq he, he.statement_eq, he.check_eq]
  rfl

theorem names_eq (h : theory.Represents declared history) :
    theory.entries.map theory.displayName = declared.map fun o => o.trimmed.name := by
  have hnames := congrArg (List.map Obligation.name) h.obligations_eq
  rw [obligations, List.map_map, List.map_map] at hnames
  exact hnames

/-- Comparing symbols is comparing names. -/
theorem symbol_eq_iff (h : theory.Represents declared history) {e : Entry κ}
    (he : e ∈ theory.entries) (name : String) :
    e.symbol = (SymbolTable.intern name theory.symbols).1 ↔ theory.displayName e = name := by
  -- the symbol of the entry was issued in the history, the one it is compared with comes next
  obtain ⟨i, hi⟩ := List.getElem?_of_mem he
  obtain ⟨o, -, heo⟩ := getElem?_of_forall₂ h.entries hi
  rw [h.symbol_intern, h.displayName_eq heo]
  exact heo.issued.symbolAfter_eq_iff name

end Represents

/-! ## Looking up -/

variable [DecidableEq κ]

namespace Represents

variable {theory : Theory σ κ} {declared : List Obligation} {history : List String}

/-- Looking for a name only makes the table grow. -/
theorem find? (h : theory.Represents declared history) (name : String) :
    (theory.find? name).2.Represents declared (history ++ [name]) :=
  h.intern name

variable [LawfulSymbolTable σ]

/-- An obligation is found by its display name. -/
theorem find?_eq (h : theory.Represents declared history) (name : String) :
    (theory.find? name).1 = theory.entries.find? fun e => theory.displayName e = name :=
  List.find?_congr fun _ he => decide_eq_decide.mpr (h.symbol_eq_iff he name)

theorem find?_eq_none (h : theory.Represents declared history) {name : String} :
    (theory.find? name).1 = none ↔ name ∉ declared.map fun o => o.trimmed.name := by
  rw [h.find?_eq, List.find?_eq_none, ← h.names_eq, List.mem_map]
  simp only [decide_eq_true_eq, not_exists, not_and]

/-- As names are used once, there is at most one obligation of a name. -/
theorem find?_eq_some (h : theory.Represents declared history)
    (hnodup : (declared.map fun o => o.trimmed.name).Nodup) {name : String} {e : Entry κ} :
    (theory.find? name).1 = some e ↔ e ∈ theory.entries ∧ theory.displayName e = name := by
  rw [h.find?_eq]
  constructor
  · intro hfound
    exact ⟨List.mem_of_find?_eq_some hfound, by simpa using List.find?_some hfound⟩
  · rintro ⟨he, hname⟩
    rw [← h.names_eq] at hnodup
    -- looking by name finds an entry, which is `e` because it has the same name
    obtain ⟨e', hfound⟩ : ∃ e', theory.entries.find? (fun e => theory.displayName e = name) =
        some e' := by
      rw [← Option.isSome_iff_exists, List.find?_isSome]
      exact ⟨e, he, decide_eq_true hname⟩
    have hname' : theory.displayName e' = name := by simpa using List.find?_some hfound
    rw [hfound, List.inj_on_of_nodup_map hnodup (List.mem_of_find?_eq_some hfound) he
      (hname'.trans hname.symm)]

end Represents

/-- The theory after looking for names, from the first to the last. -/
def asked (theory : Theory σ κ) (names : List String) : Theory σ κ :=
  names.foldl (fun theory name => (theory.find? name).2) theory

theorem entries_asked (theory : Theory σ κ) (names : List String) :
    (theory.asked names).entries = theory.entries := by
  induction names generalizing theory with
  | nil => rfl
  | cons name names ih => exact ih _

theorem Represents.asked {theory : Theory σ κ} {declared : List Obligation}
    {history : List String} (h : theory.Represents declared history) (names : List String) :
    (theory.asked names).Represents declared (history ++ names) := by
  induction names generalizing theory history with
  | nil => rwa [List.append_nil]
  | cons name names ih =>
      have hstep := ih (h.find? name)
      rwa [List.append_assoc, List.singleton_append] at hstep

/-! ## Declaring -/

theorem declare_of_error {theory : Theory σ κ} {o : Obligation} {report : Report}
    (hread : Text.wholeName o.name = .error report) :
    theory.declare o = .error (report.within (.lemmaName o.name)) := by
  rw [declare, hread]
  rfl

theorem ofList_append (before after : List Obligation) :
    (ofList (before ++ after) : Fallible (Theory σ κ)) =
      ofList before >>= fun theory => after.foldlM declare theory :=
  List.foldlM_append

variable [LawfulSymbolTable σ]

section

variable {theory : Theory σ κ} {declared : List Obligation} {history : List String}
  {o : Obligation}

/-- A name is taken exactly if it is among the declared ones. -/
theorem Represents.any_symbol (h : theory.Represents declared history) (name : String) :
    theory.entries.any (fun e => e.symbol = (SymbolTable.intern name theory.symbols).1) = true ↔
      name ∈ declared.map fun o => o.trimmed.name := by
  rw [← h.names_eq, List.mem_map, List.any_eq_true]
  refine exists_congr fun e => and_congr_right fun he => ?_
  rw [decide_eq_true_eq, h.symbol_eq_iff he]

/-- Declaring under a name that can be read is refused if the name is taken, and otherwise adds the
obligation. -/
theorem Represents.declare_of_ok (h : theory.Represents declared history) {name : String}
    (hread : Text.wholeName o.name = .ok name) :
    theory.declare o =
      if name ∈ declared.map fun o => o.trimmed.name then refuse (.duplicateLemma name)
      else .ok ⟨(SymbolTable.intern name theory.symbols).2, theory.entries ++
        [⟨(SymbolTable.intern name theory.symbols).1, Text.trimmed o.statement, o.check⟩]⟩ := by
  rw [declare, hread, Fallible.within, ok_bind]
  exact if_congr (h.any_symbol name) rfl rfl

/-- Declaring an admissible obligation adds it under its name. -/
theorem Represents.declare (h : theory.Represents declared history)
    (hadmissible : Admissible (declared ++ [o])) :
    ∃ theory', theory.declare o = .ok theory' ∧
      theory'.Represents (declared ++ [o]) (history ++ [o.trimmed.name]) := by
  obtain ⟨-, hvalid, hnew⟩ := admissible_concat.mp hadmissible
  have hread : Text.wholeName o.name = .ok o.trimmed.name :=
    Text.wholeName_eq_ok.mpr ⟨hvalid, rfl⟩
  have hgrown := h.intern o.trimmed.name
  refine ⟨_, (h.declare_of_ok hread).trans (if_neg hnew), hgrown.symbols_eq, ?_⟩
  refine List.rel_append hgrown.entries (.cons ⟨?_, rfl, rfl⟩ .nil)
  rw [h.symbol_intern]
  exact issued_concat history o.trimmed.name

/-- Declaring is refused for the reasons that there are, and reports them. -/
theorem Represents.declare_eq_error (h : theory.Represents declared history) {report : Report} :
    theory.declare o = .error report ↔ Refuses declared o report := by
  constructor
  · intro hdeclare
    cases hread : Text.wholeName o.name with
    | error cause =>
        rw [declare_of_error hread] at hdeclare
        cases hdeclare
        have hinvalid : ¬ Text.IsPaddedName o.name := by
          intro hvalid
          rw [Text.wholeName_eq_ok.mpr ⟨hvalid, rfl⟩] at hread
          cases hread
        exact .unreadable hinvalid hread
    | ok name =>
        -- a name that can be read is refused only for being taken
        obtain ⟨hvalid, rfl⟩ := Text.wholeName_eq_ok.mp hread
        rw [h.declare_of_ok hread] at hdeclare
        split at hdeclare
        next hmem =>
          cases hdeclare
          exact .repeated hvalid hmem
        next => cases hdeclare
  · intro hrefuses
    cases hrefuses with
    | unreadable _ hread => exact declare_of_error hread
    | repeated hvalid hmem =>
        have hread : Text.wholeName o.name = .ok o.trimmed.name :=
          Text.wholeName_eq_ok.mpr ⟨hvalid, rfl⟩
        exact (h.declare_of_ok hread).trans (if_pos hmem)

end

/-! ## Declaring a list -/

/-- A list of admissible declarations makes a theory, which then represents it. -/
theorem exists_ofList_eq_ok {declared : List Obligation} (h : Admissible declared) :
    ∃ theory : Theory σ κ, ofList declared = .ok theory ∧
      theory.Represents declared (declared.map fun o => o.trimmed.name) := by
  -- declaring goes from the left, so the induction takes away the last declaration
  induction declared using List.reverseRecOn with
  | nil => exact ⟨_, rfl, represents_empty⟩
  | append_singleton declared o ih =>
      obtain ⟨theory, hlist, hrep⟩ := ih (admissible_concat.mp h).1
      obtain ⟨theory', hdeclare, hrep'⟩ := hrep.declare h
      refine ⟨theory', ?_, by rwa [List.map_append]⟩
      rw [ofList_append, hlist, ok_bind, List.foldlM_cons, hdeclare]
      rfl

/-- The first declaration that is not admissible is reported, whatever follows it. -/
theorem ofList_of_refuses {before : List Obligation} (h : Admissible before) {o : Obligation}
    {report : Report} (hrefuses : Refuses before o report) (after : List Obligation) :
    (ofList (before ++ o :: after) : Fallible (Theory σ κ)) = .error report := by
  obtain ⟨theory, hlist, hrep⟩ := exists_ofList_eq_ok (σ := σ) h
  rw [ofList_append, hlist, ok_bind, List.foldlM_cons, hrep.declare_eq_error.mpr hrefuses]
  rfl

/-- Declarations are admissible, or there is a first one that is refused. -/
theorem admissible_or_first_refused (declared : List Obligation) :
    Admissible declared ∨ ∃ before o after report, declared = before ++ o :: after ∧
      Admissible before ∧ Refuses before o report := by
  induction declared using List.reverseRecOn with
  | nil => exact Or.inl ⟨fun _ h => absurd h List.not_mem_nil, List.nodup_nil⟩
  | append_singleton declared o ih =>
      rcases ih with h | ⟨before, o', after, report, rfl, hbefore, hrefuses⟩
      · rcases admissible_or_refuses h o with h' | ⟨report, hrefuses⟩
        · exact Or.inl h'
        · exact Or.inr ⟨declared, o, [], report, rfl, h, hrefuses⟩
      · exact Or.inr ⟨before, o', after ++ [o], report, List.append_assoc _ _ _, hbefore, hrefuses⟩

theorem ofList_eq_error {declared : List Obligation} {report : Report} :
    (ofList declared : Fallible (Theory σ κ)) = .error report ↔
      ∃ before o after, declared = before ++ o :: after ∧ Admissible before ∧
        Refuses before o report := by
  constructor
  · intro hlist
    rcases admissible_or_first_refused declared with
      h | ⟨before, o, after, report', rfl, hbefore, hrefuses⟩
    · obtain ⟨theory, hok, -⟩ := exists_ofList_eq_ok (σ := σ) h
      rw [hok] at hlist
      cases hlist
    · rw [ofList_of_refuses hbefore hrefuses] at hlist
      cases hlist
      exact ⟨before, o, after, rfl, hbefore, hrefuses⟩
  · rintro ⟨before, o, after, rfl, hbefore, hrefuses⟩
    exact ofList_of_refuses hbefore hrefuses after

theorem ofList_eq_ok {declared : List Obligation} {theory : Theory σ κ}
    (h : ofList declared = .ok theory) :
    Admissible declared ∧ theory.Represents declared (declared.map fun o => o.trimmed.name) := by
  rcases admissible_or_first_refused declared with
    hadmissible | ⟨before, o, after, report, rfl, hbefore, hrefuses⟩
  · obtain ⟨theory', hok, hrep⟩ := exists_ofList_eq_ok (σ := σ) hadmissible
    rw [hok] at h
    cases h
    exact ⟨hadmissible, hrep⟩
  · rw [ofList_of_refuses hbefore hrefuses] at h
    cases h

end

/-- **Declarations make a theory exactly if their names can be read and differ without the blanks
around them**; otherwise the first one that is refused is reported. The theory lists the
obligations as they were declared, without the blanks around names and statements. Whatever it was
asked for before, looking for a name gives the one obligation with this display name, and nothing
if it is the name of none. -/
theorem construction_and_lookup {σ κ : Type} [SymbolTable σ κ] [LawfulSymbolTable σ]
    [DecidableEq κ] (declared : List Obligation) :
    ((∃ theory : Theory σ κ, ofList declared = .ok theory) ↔ Admissible declared) ∧
    (∀ report, (ofList declared : Fallible (Theory σ κ)) = .error report ↔
      ∃ before o after, declared = before ++ o :: after ∧ Admissible before ∧
        Refuses before o report) ∧
    ∀ theory : Theory σ κ, ofList declared = .ok theory → ∀ queries : List String,
      (theory.asked queries).entries = theory.entries ∧
      (theory.asked queries).obligations = declared.map Obligation.trimmed ∧
      ∀ name,
        (∀ e, ((theory.asked queries).find? name).1 = some e ↔
          e ∈ theory.entries ∧ (theory.asked queries).displayName e = name) ∧
        (((theory.asked queries).find? name).1 = none ↔
          ∀ o ∈ declared, o.trimmed.name ≠ name) := by
  refine ⟨⟨?_, ?_⟩, fun report => ofList_eq_error, ?_⟩
  · rintro ⟨theory, hlist⟩
    exact (ofList_eq_ok hlist).1
  · intro hadmissible
    obtain ⟨theory, hlist, -⟩ := exists_ofList_eq_ok (σ := σ) hadmissible
    exact ⟨theory, hlist⟩
  · intro theory hlist queries
    obtain ⟨⟨-, hnodup⟩, hrep⟩ := ofList_eq_ok hlist
    have hasked := hrep.asked queries
    have hentries := theory.entries_asked queries
    refine ⟨hentries, hasked.obligations_eq, fun name => ⟨fun e => ?_, ?_⟩⟩
    · rw [hasked.find?_eq_some hnodup, hentries]
    · rw [hasked.find?_eq_none, List.mem_map]
      simp only [not_exists, not_and, ne_eq]

/-- Names with blanks around them are declared and found without these. -/
theorem construction_and_lookup_padded :
    LawfulSymbolTable NameTable ∧ ∃ theory : Theory NameTable Nat,
      ofList [⟨" eta_prod\t", " (fst z, snd z) = z ", fun _ => .ok ()⟩,
        ⟨"path_prod'", "(x, y) = (x', y')", fun _ => .ok ()⟩] = .ok theory ∧
      theory.obligations = [⟨"eta_prod", "(fst z, snd z) = z", fun _ => .ok ()⟩,
        ⟨"path_prod'", "(x, y) = (x', y')", fun _ => .ok ()⟩] ∧
      ((theory.asked ["path_prod"]).find? "path_prod'").1 =
        some ⟨1, "(x, y) = (x', y')", fun _ => .ok ()⟩ ∧
      ((theory.asked ["path_prod"]).find? " eta_prod\t").1 = none := by
  obtain ⟨-, -, hlookup⟩ := construction_and_lookup (σ := NameTable)
    [⟨" eta_prod\t", " (fst z, snd z) = z ", fun _ => .ok ()⟩,
      ⟨"path_prod'", "(x, y) = (x', y')", fun _ => .ok ()⟩]
  have hlist : ofList [⟨" eta_prod\t", " (fst z, snd z) = z ", fun _ => .ok ()⟩,
      ⟨"path_prod'", "(x, y) = (x', y')", fun _ => .ok ()⟩] =
    .ok (⟨⟨["eta_prod", "path_prod'"]⟩, [⟨0, "(fst z, snd z) = z", fun _ => .ok ()⟩,
      ⟨1, "(x, y) = (x', y')", fun _ => .ok ()⟩]⟩ : Theory NameTable Nat) := rfl
  obtain ⟨-, hobligations, -⟩ := hlookup _ hlist []
  obtain ⟨-, -, hfind⟩ := hlookup _ hlist ["path_prod"]
  refine ⟨inferInstance, _, hlist, hobligations.trans rfl, ?_, ?_⟩
  · exact ((hfind "path_prod'").1 _).mpr ⟨List.mem_cons_of_mem _ List.mem_cons_self, rfl⟩
  · exact (hfind " eta_prod\t").2.mpr (by decide)

end Theory

end PathAlgebra
