import PathAlgebra.Proofs.Sequencing
import PathAlgebra.Proofs.Theory.Declaration

set_option autoImplicit false

/-! # Checking the obligations of a theory

All obligations of a theory are checked, by a runner that may take them in any order, and each one
that is refused adds a report. A runner is lawful if the reports stand in the order of the
obligations all the same. Then the refused obligations, with the reports of their checks, tell how
checking a theory ends: well if there is none, with the report itself in one more context if there
is a single one, and otherwise with one message that lists the texts of all
(`Theory.check_reports_failures`).
-/

namespace PathAlgebra

/-! ## Lawful runners -/

/-- What a task gives is collected in the order of the list. -/
class LawfulTaskRunner [TaskRunner] : Prop where
  /-- Where the task breaks no assertion, all that it gives is collected, in order. -/
  collect_eq_ok : ∀ {α β : Type} {task : α → Asserted (Option β)} {give : α → Option β}
    {l : List α}, (∀ x ∈ l, task x = .ok (give x)) →
      TaskRunner.collect task l = .ok (l.filterMap give)

instance : LawfulTaskRunner where
  collect_eq_ok {_ _ task give l} h := by
    have hall : l.mapM task = .ok (l.map give) := by
      rw [mapM_eq_ok, List.forall₂_map_right_iff, List.forall₂_same]
      exact h
    show (l.mapM task >>= fun given => .ok (given.filterMap id)) = _
    rw [hall, ok_bind, List.filterMap_map]
    rfl

/-! ## The texts of several reports -/

/-- The message for several texts lists them after their number, with blank lines between. -/
theorem Cause.message_several_of_ne_nil {texts : List String} (h : texts ≠ []) :
    (several texts).message = "\n\n".intercalate (s!"{texts.length} errors:" :: texts) := by
  have hheader : " errors:\n\n" = " errors:" ++ "\n\n" := by decide
  rw [message_several, String.intercalate_cons_of_ne_nil h, hheader, ← String.append_assoc]
  rfl

namespace Theory

/-! ## The failures of obligations -/

/-- The obligations whose checks do not go through, in order, with the reports of these. -/
structure AreFailures (os : List Obligation) (failures : List (Obligation × Report)) : Prop where
  /-- Exactly the obligations whose checks do not go through are there. -/
  fst_eq : failures.map Prod.fst = os.filter fun o => !(o.check ()).isOk
  /-- Each one has the report of its check. -/
  check_eq : ∀ p ∈ failures, p.1.check () = .error (.refused p.2)

/-- A failure as it is reported: in the context of its obligation. -/
def failureReport (p : Obligation × Report) : Report :=
  p.2.within (.lemmaCheck p.1.name p.1.statement)

/-- The failure of an obligation, if its check is refused. -/
def failure? (o : Obligation) : Option (Obligation × Report) :=
  match o.check () with
  | .error (.refused report) => some (o, report)
  | _ => none

section

variable {o : Obligation}

theorem failure?_of_ok (h : o.check () = .ok ()) : failure? o = none := by
  rw [failure?, h]

theorem failure?_of_refused {report : Report} (h : o.check () = .error (.refused report)) :
    failure? o = some (o, report) := by
  rw [failure?, h]

/-- A failure is that of an obligation, with the report of its check. -/
theorem check_of_failure? {p : Obligation × Report} (h : failure? o = some p) :
    p.1.check () = .error (.refused p.2) := by
  unfold failure? at h
  split at h
  next report hcheck =>
    cases h
    exact hcheck
  next => cases h

/-- A check that breaks no assertion goes through, or its obligation fails. -/
theorem map_fst_failure? (h : ∀ breach, o.check () ≠ .error (.broken breach)) :
    (failure? o).map Prod.fst = Option.guard (fun o => !(o.check ()).isOk) o := by
  rcases (Outcome.Answers.of_ne_broken h).eq_ok_or_refused with hok | ⟨report, hrefused, -⟩
  · rw [failure?_of_ok hok, Option.guard, hok]
    rfl
  · rw [failure?_of_refused hrefused, Option.guard, hrefused]
    rfl

theorem refusal_eq_ok (h : ∀ breach, o.check () ≠ .error (.broken breach)) :
    refusal o = .ok ((failure? o).map failureReport) := by
  rcases (Outcome.Answers.of_ne_broken h).eq_ok_or_refused with hok | ⟨report, hrefused, -⟩
  · rw [failure?_of_ok hok, refusal, hok]
    rfl
  · rw [failure?_of_refused hrefused, refusal, hrefused]
    rfl

end

section

variable {os : List Obligation} {failures : List (Obligation × Report)}

/-- Where no check breaks an assertion, the checks that do not go through are refused. -/
theorem areFailures_filterMap (h : ∀ o ∈ os, ∀ breach, o.check () ≠ .error (.broken breach)) :
    AreFailures os (os.filterMap failure?) := by
  constructor
  · rw [List.map_filterMap, ← List.filterMap_eq_filter]
    exact List.filterMap_congr fun o ho => map_fst_failure? (h o ho)
  · intro p hp
    obtain ⟨o, -, hfails⟩ := List.mem_filterMap.mp hp
    exact check_of_failure? hfails

theorem AreFailures.eq_nil_iff (h : AreFailures os failures) :
    failures = [] ↔ ∀ o ∈ os, o.check () = .ok () := by
  rw [← List.map_eq_nil_iff, h.fst_eq, List.filter_eq_nil_iff]
  refine forall₂_congr fun o _ => ?_
  cases o.check () with
  | ok u => simp [Except.isOk, Except.toBool]
  | error failure => simp [Except.isOk, Except.toBool]

end

/-! ## How checking ends -/

/-- What the failures of a theory are reported as. -/
def verdict : List (Obligation × Report) → Outcome Unit
  | [] => .ok ()
  | failures => .error (.refused (Report.combine (failures.map failureReport)))

theorem verdict_eq_ok {failures : List (Obligation × Report)} :
    verdict failures = .ok () ↔ failures = [] := by
  cases failures with
  | nil => simp [verdict]
  | cons p failures => simp [verdict]

/-- Two failures or more are merged. -/
theorem verdict_of_two_le {failures : List (Obligation × Report)} (h : 2 ≤ failures.length) :
    verdict failures = .error (.refused (.ofCause
      (.several ((failures.map failureReport).map Report.text)))) := by
  match failures with
  | _ :: _ :: _ => rfl

/-- The text of a failure names its obligation and goes on with the messages of its report. -/
theorem message_several_failures {failures : List (Obligation × Report)} (h : failures ≠ []) :
    (Cause.several ((failures.map failureReport).map Report.text)).message =
      "\n\n".intercalate (s!"{failures.length} errors:" :: failures.map fun p =>
        ": ".intercalate (s!"failed to check «{p.1.name}» ({p.1.statement})" :: p.2.messages)) := by
  have hne : (failures.map failureReport).map Report.text ≠ [] := by
    rwa [List.map_map, ne_eq, List.map_eq_nil_iff]
  rw [Cause.message_several_of_ne_nil hne, List.length_map, List.length_map, List.map_map]
  rfl

section

variable {σ κ : Type} [SymbolTable σ κ] [TaskRunner] [LawfulTaskRunner]

/-- Checking a theory collects its failures in the order of the obligations. -/
theorem check_eq_verdict {theory : Theory σ κ}
    (h : ∀ o ∈ theory.obligations, ∀ breach, o.check () ≠ .error (.broken breach)) :
    theory.check = verdict (theory.obligations.filterMap failure?) := by
  have hcollect := LawfulTaskRunner.collect_eq_ok fun o ho => refusal_eq_ok (h o ho)
  rw [← List.map_filterMap] at hcollect
  rw [check, hcollect]
  cases theory.obligations.filterMap failure? with
  | nil => rfl
  | cons p failures => rfl

variable [LawfulSymbolTable σ] [DecidableEq κ]

/-- **Checking a theory reports every failure, once and in order.** Let a theory be made of a list
of declarations of which no check breaks an assertion, and let any names have been looked for. It
is accepted exactly if every check goes through. A single failure is reported as it is, with all
its contexts, in the one context that names the obligation. Several failures become one message,
which lists the texts of exactly the obligations that fail, in the order of declaration. -/
theorem check_reports_failures {declared : List Obligation} {theory : Theory σ κ}
    (hlist : ofList declared = .ok theory)
    (hsafe : ∀ o ∈ declared, ∀ breach, o.check () ≠ .error (.broken breach))
    (queries : List String) :
    ((theory.asked queries).check = .ok () ↔ ∀ o ∈ declared, o.check () = .ok ()) ∧
    ∃ failures, AreFailures (declared.map Obligation.trimmed) failures ∧
      (∀ o report, failures = [(o, report)] → ∃ context : Context,
        context.message = s!"failed to check «{o.name}» ({o.statement})" ∧
        (theory.asked queries).check = .error (.refused (report.within context))) ∧
      (2 ≤ failures.length → ∃ cause : Cause,
        cause.message = "\n\n".intercalate (s!"{failures.length} errors:" ::
          failures.map fun p =>
            ": ".intercalate (s!"failed to check «{p.1.name}» ({p.1.statement})" ::
              p.2.messages)) ∧
        (theory.asked queries).check = .error (.refused (.ofCause cause))) := by
  obtain ⟨-, hrep⟩ := ofList_eq_ok hlist
  have hobligations := (hrep.asked queries).obligations_eq
  -- without the blanks around names and statements, the checks are the same
  have hsafe' : ∀ o ∈ declared.map Obligation.trimmed, ∀ breach,
      o.check () ≠ .error (.broken breach) :=
    List.forall_mem_map.mpr hsafe
  have hfailures := areFailures_filterMap hsafe'
  have hcheck := check_eq_verdict (hobligations ▸ hsafe')
  rw [hobligations] at hcheck
  rw [hcheck]
  refine ⟨?_, _, hfailures, ?_, ?_⟩
  · rw [verdict_eq_ok, hfailures.eq_nil_iff]
    exact List.forall_mem_map
  · intro o report hone
    exact ⟨.lemmaCheck o.name o.statement, rfl, by rw [hone]; rfl⟩
  · intro htwo
    have hne := List.ne_nil_of_length_pos (Nat.zero_lt_of_lt htwo)
    exact ⟨_, message_several_failures hne, verdict_of_two_le htwo⟩

end

/-- Of three obligations two fail, the first one in a context of its own. -/
theorem check_reports_failures_two :
    LawfulSymbolTable NameTable ∧ LawfulTaskRunner ∧ ∃ theory : Theory NameTable Nat,
      ofList [⟨" bad", "false", fun _ => .error (.refused ⟨[.remark "inner"], .remark "no"⟩)⟩,
        ⟨"good", "true", fun _ => .ok ()⟩,
        ⟨"worse", " false", fun _ => .error (.refused ⟨[], .remark "never"⟩)⟩] = .ok theory ∧
      ∃ cause : Cause,
        cause.message = "2 errors:\n\nfailed to check «bad» (false): inner: no\n\n" ++
          "failed to check «worse» (false): never" ∧
        theory.check = .error (.refused (.ofCause cause)) := by
  have hlist : ofList [
      ⟨" bad", "false", fun _ => .error (.refused ⟨[.remark "inner"], .remark "no"⟩)⟩,
      ⟨"good", "true", fun _ => .ok ()⟩,
      ⟨"worse", " false", fun _ => .error (.refused ⟨[], .remark "never"⟩)⟩] =
    .ok (⟨⟨["bad", "good", "worse"]⟩,
      [⟨0, "false", fun _ => .error (.refused ⟨[.remark "inner"], .remark "no"⟩)⟩,
        ⟨1, "true", fun _ => .ok ()⟩,
        ⟨2, "false", fun _ => .error (.refused ⟨[], .remark "never"⟩)⟩]⟩ : Theory NameTable Nat) :=
    rfl
  obtain ⟨-, failures, ⟨hfst, hreports⟩, -, hseveral⟩ :=
    check_reports_failures hlist (by simp) []
  -- the obligations that fail are known, and their reports are those of their checks
  obtain ⟨⟨o, report⟩, _, rfl, ho, hrest⟩ := List.map_eq_cons_iff.mp (hfst.trans rfl)
  obtain ⟨⟨o', report'⟩, _, rfl, ho', hrest⟩ := List.map_eq_cons_iff.mp hrest
  obtain rfl := List.map_eq_nil_iff.mp hrest
  have hreport := hreports _ List.mem_cons_self
  have hreport' := hreports _ (List.mem_cons_of_mem _ List.mem_cons_self)
  cases ho
  cases ho'
  cases hreport
  cases hreport'
  obtain ⟨cause, hmessage, hcheck⟩ := hseveral (Nat.le_refl 2)
  exact ⟨inferInstance, inferInstance, _, hlist, cause, hmessage.trans rfl, hcheck⟩

end Theory

end PathAlgebra
