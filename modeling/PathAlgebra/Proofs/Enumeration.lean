import PathAlgebra.Carrier

set_option autoImplicit false

/-! # Lawful enumerations

An enumeration is lawful if the number of a value is its position in the listing: the value is
found there, and nowhere else. So the listing has every value exactly once. The listing and the
numbers are computed apart from each other; `LawfulEnumerated` says that they agree.
-/

namespace PathAlgebra

open Enumerated (elements position cardinality)

variable {ι α β : Type}

/-- A list in which every value tells its position has no repetitions. -/
theorem nodup_of_number_eq {ν : Type} {l : List α} {number : α → ν} {label : Nat → ν}
    (hlabel : ∀ {i j : Nat}, label i = label j → i = j)
    (h : ∀ {i : Nat} {a : α}, l[i]? = some a → number a = label i) : l.Nodup := by
  refine List.pairwise_iff_getElem.mpr fun i j hi hj hij heq => ?_
  -- a value that is listed twice would tell both positions
  have hnumber := h (List.getElem?_eq_getElem hi)
  rw [heq, h (List.getElem?_eq_getElem hj)] at hnumber
  exact Nat.ne_of_gt hij (hlabel hnumber)

/-- The listing has every value once, at the position that is its number. -/
class LawfulEnumerated (α : Type) [Enumerated α] : Prop where
  /-- Every value is listed at its number. -/
  getElem?_position : ∀ a : α, (elements : List α)[position a]? = some a
  /-- No value is listed anywhere else. -/
  position_eq : ∀ {i : Nat} {a : α}, (elements : List α)[i]? = some a → position a = i

namespace LawfulEnumerated

instance : LawfulEnumerated Empty where
  getElem?_position := nofun
  position_eq := nofun

instance : LawfulEnumerated Unit where
  getElem?_position _ := rfl
  position_eq := by
    intro i a h
    match i, h with
    | 0, rfl => rfl

instance : LawfulEnumerated Bool where
  getElem?_position := by decide
  position_eq := by
    intro i a h
    match i, h with
    | 0, rfl => rfl
    | 1, rfl => rfl

instance {n : Nat} : LawfulEnumerated (Fin n) where
  getElem?_position a := by
    show (List.finRange n)[a.val]? = some a
    rw [List.getElem?_eq_getElem (by simp), List.getElem_finRange]
    rfl
  position_eq := by
    intro i a h
    obtain ⟨hi, rfl⟩ := List.getElem?_eq_some_iff.mp h
    show ((List.finRange n)[i]).val = i
    rw [List.getElem_finRange]
    rfl

/-- Every value but `none` comes one later than without it. -/
instance [Enumerated α] [LawfulEnumerated α] : LawfulEnumerated (Option α) where
  getElem?_position := by
    intro x
    cases x with
    | none => rfl
    | some a =>
        show (none :: elements.map some)[1 + position a]? = some (some a)
        rw [Nat.add_comm, List.getElem?_cons_succ, List.getElem?_map, getElem?_position a]
        rfl
  position_eq := by
    intro i x h
    have h : (none :: (elements : List α).map some)[i]? = some x := h
    cases i with
    | zero =>
        cases h
        rfl
    | succ i =>
        rw [List.getElem?_cons_succ, List.getElem?_map] at h
        obtain ⟨a, ha, rfl⟩ := Option.map_eq_some_iff.mp h
        show 1 + position a = i + 1
        rw [position_eq ha, Nat.add_comm]

theorem position_lt [Enumerated α] [LawfulEnumerated α] (a : α) :
    position a < cardinality α :=
  (List.getElem?_eq_some_iff.mp (getElem?_position a)).1

/-- Row `i` of a grid of pairs starts after `i` full rows. -/
theorem getElem?_pairs (as : List α) (bs : List β) (i : Nat) {j : Nat} (hj : j < bs.length) :
    (as.flatMap fun a => bs.map fun b => (a, b))[i * bs.length + j]? =
      as[i]?.bind fun a => bs[j]?.map fun b => (a, b) := by
  induction as generalizing i with
  | nil => simp
  | cons a as ih =>
      rw [List.flatMap_cons]
      cases i with
      | zero =>
          rw [Nat.zero_mul, Nat.zero_add, List.getElem?_append_left (by simpa using hj)]
          simp
      | succ i =>
          have hle : bs.length ≤ (i + 1) * bs.length + j := by
            rw [Nat.succ_mul]
            omega
          have hsub : (i + 1) * bs.length + j - bs.length = i * bs.length + j := by
            rw [Nat.succ_mul]
            omega
          rw [List.getElem?_append_right (by simpa using hle), List.length_map, hsub, ih]
          rfl

/-- Pairs are numbered row by row, as they are listed. -/
instance [Enumerated α] [LawfulEnumerated α] [Enumerated β] [LawfulEnumerated β] :
    LawfulEnumerated (α × β) where
  getElem?_position := by
    rintro ⟨a, b⟩
    show (elements.flatMap fun a => elements.map fun b => (a, b))[
      position a * cardinality β + position b]? = some (a, b)
    rw [cardinality, getElem?_pairs _ _ _ (position_lt b), getElem?_position a,
      getElem?_position b]
    rfl
  position_eq := by
    rintro k ⟨a, b⟩ h
    have hpos : 0 < cardinality β := Nat.zero_lt_of_lt (position_lt b)
    -- the row and the column of the position
    have hk : k / cardinality β * cardinality β + k % cardinality β = k := Nat.div_add_mod' _ _
    have hcol : k % cardinality β < cardinality β := Nat.mod_lt _ hpos
    have hrow : (elements : List (α × β))[k]? = (elements[k / cardinality β]?).bind fun a =>
        (elements[k % cardinality β]?).map fun b => (a, b) :=
      (congrArg (fun i => (elements : List (α × β))[i]?) hk).symm.trans
        (getElem?_pairs _ _ _ hcol)
    rw [hrow, Option.bind_eq_some_iff] at h
    obtain ⟨a', ha', h⟩ := h
    obtain ⟨b', hb', hab⟩ := Option.map_eq_some_iff.mp h
    cases hab
    show position a * cardinality β + position b = k
    rw [position_eq ha', position_eq hb']
    exact hk

/-- A type that is listed and numbered like another one, value for value. -/
theorem of_bijection [Enumerated α] [LawfulEnumerated α] [Enumerated β] (f : α → β) (g : β → α)
    (hgf : ∀ a, g (f a) = a) (hfg : ∀ b, f (g b) = b)
    (helements : (elements : List β) = elements.map f)
    (hposition : ∀ b : β, position b = position (g b)) : LawfulEnumerated β where
  getElem?_position b := by
    rw [helements, hposition, List.getElem?_map, getElem?_position, Option.map_some, hfg]
  position_eq := by
    intro i b h
    rw [helements, List.getElem?_map] at h
    obtain ⟨a, ha, rfl⟩ := Option.map_eq_some_iff.mp h
    rw [hposition, hgf]
    exact position_eq ha

instance [Enumerated α] [LawfulEnumerated α] : LawfulEnumerated (Path α) :=
  of_bijection .refl Path.source (fun _ => rfl) Path.refl_source rfl fun _ => rfl

/-- The total space of the family with one fiber is listed like the pairs of an index and a
value. -/
instance [Enumerated ι] [LawfulEnumerated ι] [Enumerated α] [LawfulEnumerated α] :
    LawfulEnumerated (Fiber ι α) :=
  of_bijection (fun z : ι × α => ⟨z.1, z.2⟩) (fun u => (u.index, u.value)) (fun _ => rfl)
    (fun _ => rfl) rfl fun _ => rfl

/-! ## What lawfulness says of the listing -/

variable [Enumerated α] [LawfulEnumerated α]

theorem mem_elements (a : α) : a ∈ (elements : List α) :=
  List.mem_of_getElem? (getElem?_position a)

theorem nodup_elements : (elements : List α).Nodup := nodup_of_number_eq id position_eq

theorem position_injective {a b : α} (h : position a = position b) : a = b :=
  Option.some.inj ((getElem?_position a).symm.trans (h ▸ getElem?_position b))

/-- The values that are listed before `a` are those with a smaller number. -/
theorem mem_before_iff {before after : List α} {a b : α}
    (h : (elements : List α) = before ++ a :: after) : b ∈ before ↔ position b < position a := by
  have ha : position a = before.length :=
    position_eq (by
      rw [h, List.getElem?_append_right (Nat.le_refl _), Nat.sub_self, List.getElem?_cons_zero])
  rw [ha]
  constructor
  · intro hb
    obtain ⟨i, hi, rfl⟩ := List.getElem_of_mem hb
    have hposition : position before[i] = i :=
      position_eq (by rw [h, List.getElem?_append_left hi, List.getElem?_eq_getElem hi])
    omega
  · intro hb
    have hentry := getElem?_position b
    rw [h, List.getElem?_append_left hb] at hentry
    exact List.mem_of_getElem? hentry

/-- Pairs come in the order of their rows, and in one row in the order of the columns. -/
theorem position_pair_lt [Enumerated β] [LawfulEnumerated β] {a a' : α} {b b' : β} :
    position (a', b') < position (a, b) ↔
      position a' < position a ∨ a' = a ∧ position b' < position b := by
  show position a' * cardinality β + position b' < position a * cardinality β + position b ↔ _
  have hb := position_lt b
  have hb' := position_lt b'
  -- a full row lies between the beginnings of two rows
  have hrow : ∀ {i j : Nat}, i < j → i * cardinality β + cardinality β ≤ j * cardinality β :=
    fun {i j} hij => Nat.succ_mul i _ ▸ Nat.mul_le_mul_right _ hij
  rcases Nat.lt_trichotomy (position a') (position a) with h | h | h
  · have := hrow h
    exact iff_of_true (by omega) (Or.inl h)
  · cases position_injective h
    rw [Nat.add_lt_add_iff_left]
    exact ⟨fun hlt => Or.inr ⟨rfl, hlt⟩, by rintro (hlt | ⟨-, hlt⟩) <;> omega⟩
  · have := hrow h
    refine iff_of_false (by omega) ?_
    rintro (hlt | ⟨rfl, -⟩) <;> omega

end LawfulEnumerated

/-! ## The number of values -/

namespace Enumerated

theorem cardinality_fin (n : Nat) : cardinality (Fin n) = n := List.length_finRange

theorem cardinality_option [Enumerated α] : cardinality (Option α) = cardinality α + 1 := by
  show (none :: elements.map some).length = _
  rw [List.length_cons, List.length_map]
  rfl

theorem cardinality_prod [Enumerated α] [Enumerated β] :
    cardinality (α × β) = cardinality α * cardinality β := by
  show (elements.flatMap fun a => elements.map fun b => (a, b)).length = _
  simp only [List.length_flatMap, List.length_map]
  rw [List.map_const', List.sum_replicate_nat]
  rfl

theorem cardinality_path [Enumerated α] : cardinality (Path α) = cardinality α :=
  List.length_map _

theorem cardinality_fiber [Enumerated ι] [Enumerated α] :
    cardinality (Fiber ι α) = cardinality ι * cardinality α := by
  rw [← cardinality_prod]
  exact List.length_map _

end Enumerated

end PathAlgebra
