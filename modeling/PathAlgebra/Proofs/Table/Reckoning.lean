import PathAlgebra.Proofs.Enumeration.Reckoning
import PathAlgebra.Proofs.Table.Listing

set_option autoImplicit false

/-! # The steps to the number of a table

A table is numbered by a fold over its values. Each step passes over as many rows as have been
counted so far, of the size of the next fiber, before anything is known of the later fibers. The
invariant of the fold is that all steps are below the number of ways to choose from the fibers seen
so far (`Table.digits_below`). The bound that is asked for is the number of all tables. It is at
least as large, because a fiber that has the value of a table is not empty.

The well-formed tables of listed values are a carrier themselves (`ListedTable`), and can be parts
of other ones. So `Carrier` takes a carrier as a type with an enumeration, and not as an expression
as `CarrierTerm` does, which has no tables. Its `reckoning` follows the formula for positions of
each constructor.
-/

namespace PathAlgebra

open Enumerated (position cardinality)

variable {α F : Type}

/-! ## Tables -/

namespace Table

open Family (fiber)

variable [DecidableEq α] [Family α F] [Enumerated F] [DecidableEq F]

/-- One more digit: the number so far is the row, and the column is the place of the value in its
fiber. -/
def digit (d : Reckoning) (z : α × F) : Reckoning :=
  d.row (fiber F z.1).length (.number ((fiber F z.1).idxOf z.2))

/-- The digits of some values, each over its index. -/
def digits (d : Reckoning) (zs : List (α × F)) : Reckoning := zs.foldl digit d

theorem value_digits (d : Reckoning) (as : List α) (us : List F) :
    (digits d (as.zip us)).value = Selection.number d.value (as.map (fiber F)) us := by
  induction as generalizing d us with
  | nil => rfl
  | cons a as ih =>
      cases us with
      | nil => rfl
      | cons u us => exact ih (digit d (a, u)) us

/-- The invariant of the fold: all steps are below the number of ways to choose from the fibers. -/
theorem digits_below {zs : List (α × F)} (hzs : ∀ z ∈ zs, z.2 ∈ fiber F z.1) {d : Reckoning}
    {m : Nat} (hd : d.Below m) :
    (digits d zs).Below (m * (zs.map fun z => (fiber F z.1).length).prod) := by
  induction zs generalizing d m with
  | nil =>
      rw [List.map_nil, List.prod_nil, Nat.mul_one]
      exact hd
  | cons z zs ih =>
      have hcolumn : (fiber F z.1).idxOf z.2 < (fiber F z.1).length :=
        List.idxOf_lt_length_iff.mpr (hzs z List.mem_cons_self)
      have hdigit : (digit d z).Below (m * (fiber F z.1).length) := hd.row hcolumn
      have hrest := ih (fun z' hz' => hzs z' (List.mem_cons_of_mem z hz')) hdigit
      rw [List.map_cons, List.prod_cons, ← Nat.mul_assoc]
      exact hrest

variable [Enumerated α]

/-- The steps to the number of a table. -/
def reckoning (f : Table α F) : Reckoning :=
  digits (.number 0) ((Enumerated.elements : List α).zip f.values)

theorem value_reckoning (f : Table α F) :
    f.reckoning.value = Selection.number 0 (fibers α F) f.values :=
  value_digits (.number 0) Enumerated.elements f.values

theorem WellFormed.reckoning_below {f : Table α F} (hf : f.WellFormed) (hl : f.Listed) :
    f.reckoning.Below (Selection.all (fibers α F)).length := by
  have hmem : ∀ z ∈ (Enumerated.elements : List α).zip f.values, z.2 ∈ fiber F z.1 := by
    rintro ⟨a, u⟩ hz
    have hindex : Family.index u = .ok a := (List.forall₂_iff_zip.mp hf).2 hz
    exact Family.mem_fiber.mpr ⟨hl u (List.of_mem_zip hz).2, hindex⟩
  have hfst : ((Enumerated.elements : List α).zip f.values).map Prod.fst = Enumerated.elements :=
    List.map_fst_zip (Nat.le_of_eq hf.length_eq)
  have hsizes : ((Enumerated.elements : List α).zip f.values).map (fun z => (fiber F z.1).length) =
      (fibers α F).map List.length := by
    calc ((Enumerated.elements : List α).zip f.values).map (fun z => (fiber F z.1).length)
        = (((Enumerated.elements : List α).zip f.values).map Prod.fst).map
            (List.length ∘ fiber F) := by
          rw [List.map_map]
          rfl
      _ = (Enumerated.elements : List α).map (List.length ∘ fiber F) := by rw [hfst]
      _ = (fibers α F).map List.length := List.map_map.symm
  have hbelow := digits_below (d := .number 0) hmem Nat.zero_lt_one
  rw [Nat.one_mul, hsizes] at hbelow
  rw [Selection.length_all]
  exact hbelow

end Table

/-- The well-formed tables of listed values. -/
def ListedTable (α F : Type) [Enumerated α] [Family α F] [Enumerated F] : Type :=
  { f : Table α F // f.WellFormed ∧ f.Listed }

section

variable [Enumerated α] [DecidableEq α] [Family α F] [Enumerated F] [DecidableEq F]

instance : Enumerated (ListedTable α F) where
  elements := (Selection.all (Table.fibers α F)).attach.map fun values =>
    ⟨⟨values.1⟩, Table.mem_all_fibers.mp values.2⟩
  position f := Selection.number 0 (Table.fibers α F) f.1.values

theorem ListedTable.cardinality_eq :
    cardinality (ListedTable α F) = (Selection.all (Table.fibers α F)).length := by
  rw [cardinality]
  exact (List.length_map _).trans List.length_attach

/-- Where the tables are listed, they are listed and numbered as the carrier `ListedTable`. -/
theorem ListedTable.of_elements_eq_ok {tables : List (Table α F)}
    (h : Table.elements α F = .ok tables) :
    (Enumerated.elements : List (ListedTable α F)).map Subtype.val = tables ∧
    ∀ f : ListedTable α F, f.1.position = .ok (position f) := by
  have hval : (Enumerated.elements : List (ListedTable α F)).map Subtype.val =
      (Selection.all (Table.fibers α F)).map fun values => ⟨values⟩ := by
    show ((Selection.all (Table.fibers α F)).attach.map _).map _ = _
    rw [List.map_map]
    exact List.attach_map_val
  rw [hval]
  rcases Table.eq_nil_or_indexed_of_elements_eq_ok h with hnil | hindexed
  · have hfibers : Table.fibers α F = [] := by rw [Table.fibers, hnil, List.map_nil]
    rw [Table.elements, hnil] at h
    cases h
    refine ⟨by rw [hfibers]; rfl, fun f => ?_⟩
    show Table.position f.1 = .ok (Selection.number 0 (Table.fibers α F) f.1.values)
    rw [Table.position, hnil, hfibers]
    rfl
  · rw [Table.elements_eq_ok hindexed] at h
    exact ⟨Except.ok.inj h, fun f => Table.position_eq_ok hindexed f.1⟩

end

/-! ## Carriers with tables -/

/-- The carriers that are built from the constructors of the library, each with the enumeration
that it has by its type. -/
inductive Carrier : (α : Type) → [Enumerated α] → Type 1 where
  /-- The empty type. -/
  | empty : Carrier Empty
  /-- The unit. -/
  | unit : Carrier Unit
  /-- The truth values. -/
  | bool : Carrier Bool
  /-- The numbers below a bound. -/
  | fin (bound : Nat) : Carrier (Fin bound)
  /-- The values of a carrier, or none. -/
  | option {α : Type} [Enumerated α] (c : Carrier α) : Carrier (Option α)
  /-- Pairs. -/
  | prod {α β : Type} [Enumerated α] [Enumerated β] (c : Carrier α) (d : Carrier β) :
      Carrier (α × β)
  /-- Paths. -/
  | path {α : Type} [Enumerated α] (c : Carrier α) : Carrier (Path α)
  /-- The total space of the family over the first carrier whose fibers are all the second. -/
  | fiber {α β : Type} [Enumerated α] [Enumerated β] (c : Carrier α) (d : Carrier β) :
      Carrier (Fiber α β)
  /-- The well-formed tables of listed values, on any domain and of any family. -/
  | table (α F : Type) [Enumerated α] [DecidableEq α] [Family α F] [Enumerated F]
      [DecidableEq F] : Carrier (ListedTable α F)

namespace Carrier

/-- The steps to the number of a value. -/
def reckoning : {α : Type} → [Enumerated α] → Carrier α → α → Reckoning
  | _, _, unit, _ => .number 0
  | _, _, bool, b => .number b.toNat
  | _, _, fin _, i => .number i.val
  | _, _, option _, none => .number 0
  | _, _, option c, some a => (c.reckoning a).succ
  | _, _, prod (β := β) c d, (a, b) => (c.reckoning a).row (cardinality β) (d.reckoning b)
  | _, _, path c, p => c.reckoning p.source
  | _, _, fiber (β := β) c d, u => (c.reckoning u.index).row (cardinality β) (d.reckoning u.value)
  | _, _, table _ _, f => f.1.reckoning

theorem value_reckoning {α : Type} [Enumerated α] (c : Carrier α) (x : α) :
    (c.reckoning x).value = position x := by
  induction c with
  | empty => exact x.elim
  | unit | bool | fin => rfl
  | option c ih =>
      cases x with
      | none => rfl
      | some a =>
          rw [reckoning, Reckoning.value_succ, ih a]
          rfl
  | prod c d ihc ihd =>
      obtain ⟨a, b⟩ := x
      rw [reckoning, Reckoning.value_row, ihc a, ihd b]
      rfl
  | path c ih => exact ih x.source
  | fiber c d ihc ihd =>
      rw [reckoning, Reckoning.value_row, ihc x.index, ihd x.value]
      rfl
  | table α F => exact Table.value_reckoning x.1

theorem reckoning_below {α : Type} [Enumerated α] (c : Carrier α) (x : α) :
    (c.reckoning x).Below (cardinality α) := by
  induction c with
  | empty => exact x.elim
  | unit => exact Nat.zero_lt_one
  | bool => exact Bool.toNat_lt x
  | fin bound =>
      rw [Enumerated.cardinality_fin]
      exact x.isLt
  | option c ih =>
      rw [Enumerated.cardinality_option]
      cases x with
      | none => exact Nat.succ_pos _
      | some a => exact (ih a).succ
  | prod c d ihc ihd =>
      rw [Enumerated.cardinality_prod]
      exact (ihc x.1).row (ihd x.2)
  | path c ih =>
      rw [Enumerated.cardinality_path]
      exact ih x.source
  | fiber c d ihc ihd =>
      rw [Enumerated.cardinality_fiber]
      exact (ihc x.index).row (ihd x.value)
  | table α F =>
      rw [ListedTable.cardinality_eq]
      exact x.2.1.reckoning_below x.2.2

/-- **Numbering stays below the number of values.** For every carrier that is built from the
constructors of the library, to any depth, the steps to the number of a value have this number as
their result, and every number that is read off, every product and every sum on the way is below
the number of all values. So is every step of the fold over a well-formed table of listed values,
where the tables of the family are listed. If the number of all values fits into a word of 64 bits,
then nothing overflows, and the computation in words is the exact one. -/
theorem reckoning_computes_position :
    (∀ (α : Type) [Enumerated α] (c : Carrier α) (x : α),
      (c.reckoning x).Computes (position x) (cardinality α)) ∧
    ∀ (α F : Type) [Enumerated α] [DecidableEq α] [Family α F] [Enumerated F] [DecidableEq F]
      (tables : List (Table α F)), Table.elements α F = .ok tables →
      (Enumerated.elements : List (ListedTable α F)).map Subtype.val = tables ∧
      ∀ f : ListedTable α F, f.1.position = .ok (position f) ∧
        f.1.reckoning.Computes (position f) tables.length := by
  have hcarrier (α : Type) [Enumerated α] (c : Carrier α) (x : α) :
      (c.reckoning x).Computes (position x) (cardinality α) := by
    rw [← c.value_reckoning x]
    exact (c.reckoning_below x).computes
  refine ⟨fun α _ c x => hcarrier α c x, fun α F _ _ _ _ _ tables htables => ?_⟩
  obtain ⟨hval, hposition⟩ := ListedTable.of_elements_eq_ok htables
  refine ⟨hval, fun f => ⟨hposition f, ?_⟩⟩
  have hlength : tables.length = cardinality (ListedTable α F) := by
    rw [← hval]
    exact List.length_map _
  rw [hlength]
  exact hcarrier (ListedTable α F) (.table α F) f

/-- In the family of initial segments below 3 there are six tables, and the last of them has the
number 5, with all steps below 6. The last of the optional pairs of a truth value and a table has
the number 12. -/
theorem reckoning_computes_position_upto :
    ∃ (tables : List (Table (Fin 3) (Upto 3))) (f : ListedTable (Fin 3) (Upto 3)),
      Table.elements (Fin 3) (Upto 3) = .ok tables ∧ tables.length = 6 ∧
      f.1.values = [⟨0, 0⟩, ⟨1, 1⟩, ⟨2, 2⟩] ∧ f.1.position = .ok 5 ∧
      f.1.reckoning.Computes 5 6 ∧
      ((option (prod bool (table (Fin 3) (Upto 3)))).reckoning (some (true, f))).Computes 12 13 ∧
      ∃ w, ((option (prod bool (table (Fin 3) (Upto 3)))).reckoning (some (true, f))).checked =
        some w ∧ w.toNat = 12 := by
  have hf : (⟨[⟨0, 0⟩, ⟨1, 1⟩, ⟨2, 2⟩]⟩ : Table (Fin 3) (Upto 3)).WellFormed :=
    .cons rfl (.cons rfl (.cons rfl .nil))
  have hl : (⟨[⟨0, 0⟩, ⟨1, 1⟩, ⟨2, 2⟩]⟩ : Table (Fin 3) (Upto 3)).Listed := by
    show ∀ u ∈ [_, _, _], u ∈ (Enumerated.elements : List (Upto 3))
    decide
  obtain ⟨hcarrier, htable⟩ := reckoning_computes_position
  obtain ⟨-, hf'⟩ := htable (Fin 3) (Upto 3) _ rfl
  obtain ⟨hposition, hcomputes⟩ := hf' ⟨_, hf, hl⟩
  have hpair := hcarrier _ (option (prod bool (table (Fin 3) (Upto 3)))) (some (true, ⟨_, hf, hl⟩))
  obtain ⟨w, hw, -, hvalue⟩ := hpair.exists_word (by decide)
  exact ⟨_, ⟨_, hf, hl⟩, rfl, rfl, rfl, hposition, hcomputes, hpair, w, hw, hvalue⟩

end Carrier

end PathAlgebra
