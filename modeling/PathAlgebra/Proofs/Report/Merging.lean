import PathAlgebra.Report

set_option autoImplicit false

/-! # Merging loses no text

A nested report comes about by contexts and merging. A context adds one message to the report that
it is put around. Merging keeps a single report with all its messages, and turns any other number
of reports into one message, which lists their texts. So a context inside of such a merge is no
message of the outcome any more, while one outside still is.

The text does not show the difference. Each context and each cause that a nested report was built
from has a span of the text for itself, and the spans stand one after the other, in the order of
the contexts and causes (`ReportTree.merging_loses_no_text`). What carries the induction is
`HasSpans`, which is closed under putting texts one behind the other, and so under listing them
with a separator. An empty message has an empty span.
-/

namespace PathAlgebra

/-! ## Spans of a text -/

/-- A text at a place in a longer one. -/
structure Span where
  /-- The number of characters before it. -/
  start : Nat
  /-- The text itself. -/
  text : String

namespace Span

/-- The number of characters up to the end of a span. -/
def stop (span : Span) : Nat := span.start + span.text.length

/-- The text of a span stands at its place in `whole`. -/
def IsIn (span : Span) (whole : String) : Prop :=
  ∃ before after, whole = before ++ span.text ++ after ∧ before.length = span.start

/-- The span behind `n` more characters. -/
def shift (n : Nat) (span : Span) : Span := { span with start := n + span.start }

variable {span : Span} {whole : String}

theorem IsIn.stop_le (h : span.IsIn whole) : span.stop ≤ whole.length := by
  obtain ⟨before, after, rfl, hbefore⟩ := h
  rw [stop, String.length_append, String.length_append]
  omega

theorem IsIn.append (h : span.IsIn whole) (later : String) : span.IsIn (whole ++ later) := by
  obtain ⟨before, after, rfl, hbefore⟩ := h
  exact ⟨before, after ++ later, String.append_assoc, hbefore⟩

theorem IsIn.shift (h : span.IsIn whole) (earlier : String) :
    (span.shift earlier.length).IsIn (earlier ++ whole) := by
  obtain ⟨before, after, rfl, hbefore⟩ := h
  refine ⟨earlier ++ before, after, ?_, ?_⟩
  · simp only [Span.shift, String.append_assoc]
  · rw [String.length_append, hbefore, Span.shift]

end Span

/-! ## Texts that stand one after the other -/

/-- The texts stand in `whole` at spans of their own, each of which ends before the later ones
start. Anything may stand between them. -/
def HasSpans (texts : List String) (whole : String) : Prop :=
  ∃ spans : List Span, spans.map Span.text = texts ∧ (∀ span ∈ spans, span.IsIn whole) ∧
    spans.Pairwise fun span later => span.stop ≤ later.start

namespace HasSpans

variable {texts texts' : List String} {whole whole' : String}

theorem nil (whole : String) : HasSpans [] whole :=
  ⟨[], rfl, fun _ h => absurd h List.not_mem_nil, .nil⟩

theorem self (text : String) : HasSpans [text] text := by
  refine ⟨[⟨0, text⟩], rfl, fun span hspan => ?_, List.pairwise_singleton _ _⟩
  obtain rfl := List.mem_singleton.mp hspan
  exact ⟨"", "", by simp, rfl⟩

theorem append (h : HasSpans texts whole) (h' : HasSpans texts' whole') :
    HasSpans (texts ++ texts') (whole ++ whole') := by
  obtain ⟨spans, rfl, hin, hpairwise⟩ := h
  obtain ⟨spans', rfl, hin', hpairwise'⟩ := h'
  refine ⟨spans ++ spans'.map (Span.shift whole.length), ?_, ?_, ?_⟩
  · rw [List.map_append, List.map_map]
    rfl
  · intro span hspan
    rcases List.mem_append.mp hspan with hspan | hspan
    · exact (hin span hspan).append whole'
    · obtain ⟨inner, hinner, rfl⟩ := List.mem_map.mp hspan
      exact (hin' inner hinner).shift whole
  · refine List.pairwise_append.mpr ⟨hpairwise, ?_, fun span hspan later hlater => ?_⟩
    · -- among themselves, the spans that were moved stand as before
      refine List.pairwise_map.mpr (hpairwise'.imp fun {span later} h => ?_)
      simp only [Span.stop, Span.shift] at h ⊢
      omega
    · -- whatever stands in the first text ends before the second one starts
      obtain ⟨inner, -, rfl⟩ := List.mem_map.mp hlater
      have hstop : span.stop ≤ whole.length := (hin span hspan).stop_le
      simp only [Span.shift]
      omega

theorem behind (earlier : String) (h : HasSpans texts whole) : HasSpans texts (earlier ++ whole) :=
  (nil earlier).append h

theorem intercalate {α : Type} {texts : α → List String} {whole : α → String} {l : List α}
    (separator : String) (h : ∀ x ∈ l, HasSpans (texts x) (whole x)) :
    HasSpans (l.flatMap texts) (separator.intercalate (l.map whole)) := by
  induction l with
  | nil => exact nil _
  | cons x l ih =>
      obtain ⟨hx, hl⟩ := List.forall_mem_cons.mp h
      rw [List.flatMap_cons, List.map_cons]
      cases l with
      | nil => simpa using hx
      | cons y l =>
          have hne : (y :: l).map whole ≠ [] := List.cons_ne_nil _ _
          rw [String.intercalate_cons_of_ne_nil hne, String.append_assoc]
          exact hx.append (behind separator (ih hl))

end HasSpans

/-! ## The text of a report -/

namespace Report

theorem text_ofCause (cause : Cause) : (ofCause cause).text = cause.message :=
  String.intercalate_singleton

theorem text_within (context : Context) (report : Report) :
    (report.within context).text = context.message ++ ": " ++ report.text := by
  have hne : report.messages ≠ [] := List.append_ne_nil_of_right_ne_nil _ (List.cons_ne_nil _ _)
  rw [text, messages_within, String.intercalate_cons_of_ne_nil hne]
  rfl

theorem combine_of_length_ne_one {reports : List Report} (h : reports.length ≠ 1) :
    combine reports = ofCause (.several (reports.map text)) := by
  match reports with
  | [] => rfl
  | [_] => exact absurd rfl h
  | _ :: _ :: _ => rfl

theorem messages_combine {reports : List Report} (h : reports.length ≠ 1) :
    (combine reports).messages = [toString reports.length ++ " errors:\n\n" ++
      "\n\n".intercalate (reports.map text)] := by
  rw [combine_of_length_ne_one h, messages_ofCause, Cause.message_several, List.length_map]

end Report

/-! ## The text of a nested report -/

namespace ReportTree

mutual

/-- The messages of all contexts and causes that a nested report is built from. A context comes
before what it is put around, and merged reports come in their order. -/
def allMessages : ReportTree → List String
  | leaf cause => [cause.message]
  | inside context tree => context.message :: tree.allMessages
  | merged trees => allMessagesOf trees

/-- The messages of all contexts and causes that nested reports are built from. -/
def allMessagesOf : List ReportTree → List String
  | [] => []
  | tree :: trees => tree.allMessages ++ allMessagesOf trees

end

theorem allMessages_merged (trees : List ReportTree) :
    (merged trees).allMessages = trees.flatMap allMessages := by
  rw [allMessages]
  induction trees with
  | nil => rw [allMessagesOf, List.flatMap_nil]
  | cons tree trees ih => rw [allMessagesOf, List.flatMap_cons, ih]

theorem report_merged_singleton (tree : ReportTree) : (merged [tree]).report = tree.report := by
  rw [report, reports, reports, Report.combine_singleton]

theorem messages_merged {trees : List ReportTree} (h : trees.length ≠ 1) :
    (merged trees).report.messages = [toString trees.length ++ " errors:\n\n" ++
      "\n\n".intercalate (trees.map fun tree => tree.report.text)] := by
  have h' : (trees.map report).length ≠ 1 := by rwa [List.length_map]
  rw [report, reports_eq_map, Report.messages_combine h', List.length_map, List.map_map]
  rfl

theorem hasSpans_text (tree : ReportTree) : HasSpans tree.allMessages tree.report.text := by
  induction tree with
  | leaf cause =>
      rw [allMessages, report, Report.text_ofCause]
      exact .self _
  | inside context tree ih =>
      rw [allMessages, report, Report.text_within, String.append_assoc]
      exact (HasSpans.self _).append (.behind ": " ih)
  | merged trees ih =>
      rw [allMessages_merged]
      by_cases h : trees.length = 1
      · -- a single report keeps its messages, and there is nothing to list
        obtain ⟨tree, rfl⟩ := List.length_eq_one_iff.mp h
        rw [report_merged_singleton, List.flatMap_singleton]
        exact ih tree List.mem_cons_self
      · rw [Report.text, messages_merged h, String.intercalate_singleton]
        exact .behind _ (.intercalate "\n\n" ih)

/-- **Merging loses no text.** The text of a nested report is made of its messages, outermost
first, joined by a colon. One more context adds one message before them. Merged alone, the report
stays what it is. Any other number of nested reports is merged into one message, which gives the
number and lists their texts in order, with blank lines between. And all contexts and causes that
the report is built from, however deep, stand in its text, from left to right and each in a span of
its own. -/
theorem merging_loses_no_text (tree : ReportTree) :
    tree.report.text = ": ".intercalate tree.report.messages ∧
    (∀ context, (inside context tree).report.messages =
      context.message :: tree.report.messages) ∧
    (merged [tree]).report = tree.report ∧
    (∀ trees : List ReportTree, trees.length ≠ 1 → (merged trees).report.messages =
      [toString trees.length ++ " errors:\n\n" ++
        "\n\n".intercalate (trees.map fun tree => tree.report.text)]) ∧
    HasSpans tree.allMessages tree.report.text :=
  ⟨rfl, fun _ => rfl, report_merged_singleton tree, fun _ h => messages_merged h,
    hasSpans_text tree⟩

/-- A single report and no report at all are merged inside of a merge, and so is a report whose
messages are empty. -/
theorem merging_loses_no_text_nested :
    let trees := [merged [inside (.remark "a") (leaf (.remark "b"))], merged [],
      inside (.remark "") (leaf (.remark ""))]
    trees.length ≠ 1 ∧
    (merged trees).report.messages = ["3 errors:\n\na: b\n\n0 errors:\n\n\n\n: "] ∧
    HasSpans ["outer", "a", "b", "", ""]
      "outer: 3 errors:\n\na: b\n\n0 errors:\n\n\n\n: " := by
  intro trees
  have hlength : trees.length ≠ 1 := by decide
  have htexts : (trees.map fun tree => tree.report.text) = ["a: b", "0 errors:\n\n", ": "] := rfl
  obtain ⟨-, -, -, hmessages, hspans⟩ :=
    merging_loses_no_text (inside (.remark "outer") (merged trees))
  have hmessage := hmessages trees hlength
  rw [htexts] at hmessage
  exact ⟨hlength, hmessage.trans (by decide), hspans⟩

end ReportTree

end PathAlgebra
