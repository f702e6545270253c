import CostTape.Command.Run
import CostTape.Proofs.Evaluation.Isolation
import CostTape.Proofs.Graph.JsonExchange
import CostTape.Proofs.Graph.YamlExchange

/-! Whether a command fails is decided by what its program evaluates to; the format counts
only where it has no form for a number that is to be written. -/

namespace CostTape

section

variable {α β ε : Type}

theorem isOk_map (convert : α → β) (outcome : Except ε α) :
    (outcome.map convert).isOk = outcome.isOk := by
  cases outcome <;> rfl

theorem isOk_mapM_iff {step : α → Except ε β} {items : List α} :
    (items.mapM step).isOk = true ↔ ∀ item ∈ items, (step item).isOk = true := by
  induction items with
  | nil => simp [Except.isOk, Except.toBool, pure, Except.pure]
  | cons item items induction =>
      rw [List.mapM_cons, List.forall_mem_cons, ← induction]
      cases step item with
      | error fault => simp [Except.isOk, Except.toBool, bind, Except.bind]
      | ok first =>
          cases items.mapM step with
          | error fault => simp [Except.isOk, Except.toBool, bind, Except.bind]
          | ok others =>
              simp [Except.isOk, Except.toBool, bind, Except.bind, pure, Except.pure]

end

namespace Session

/-- What was recorded from the start on has listed kinds. -/
theorem Grows.isListed {before after : Session}
    (grown : before.Grows (fun node => node.kind.isListed = true) after)
    (listed : ∀ node ∈ before.graph.nodes, node.kind.isListed = true) :
    ∀ node ∈ after.graph.nodes, node.kind.isListed = true := by
  induction grown with
  | refl => exact listed
  | record _ _ sorted accepted induction =>
      intro node member
      rw [Graph.nodes_of_append accepted, Array.mem_push] at member
      rcases member with earlier | rfl
      · exact induction node earlier
      · exact sorted

end Session

namespace Graph

variable {graph : Graph}

theorem isOk_toYaml (listed : ∀ node ∈ graph.nodes, node.kind.isListed = true) :
    graph.toYaml.isOk = true := by
  rw [toYaml_eq listed]
  rfl

theorem isOk_toJson_iff (listed : ∀ node ∈ graph.nodes, node.kind.isListed = true) :
    graph.toJson.isOk = true ↔ ∀ node ∈ graph.nodes, node.value.isFinite = true := by
  have written : graph.toJson.isOk = (graph.nodes.toList.mapM Node.toJson).isOk :=
    isOk_map _ _
  rw [written, isOk_mapM_iff]
  simp only [Array.mem_toList_iff]
  refine forall₂_congr fun node member => ?_
  rw [Node.toJson_eq (listed node member)]
  by_cases finite : node.value.isFinite = true
  · rw [if_pos finite]
    exact iff_of_true rfl finite
  · rw [if_neg finite]
    exact iff_of_false Bool.false_ne_true finite

end Graph

namespace Report

variable {report : Report} {yaml : YamlTree → String}

theorem isOk_render_iff (listed : ∀ node ∈ report.graph.nodes, node.kind.isListed = true)
    (format : Format) :
    (report.render format yaml).isOk = true ↔
      (format = .json → ∀ node ∈ report.graph.nodes, node.value.isFinite = true) := by
  cases format with
  | text => simp [render, Except.isOk, Except.toBool]
  | json =>
      have written : (report.render .json yaml).isOk = report.graph.toJson.isOk :=
        (isOk_map _ _).trans (isOk_map _ _)
      rw [written, Graph.isOk_toJson_iff listed]
      simp
  | yaml =>
      have written : (report.render .yaml yaml).isOk = report.graph.toYaml.isOk :=
        (isOk_map _ _).trans (isOk_map _ _)
      rw [written, Graph.isOk_toYaml listed]
      simp

/-- Flaws are errors and advice is none, so that advice alone leaves a report all
right. -/
theorem ok_recorded_iff (graph : Graph) :
    (recorded graph).ok = true ↔ graph.assess.flaws = [] := by
  have flawsFail : graph.assess.flaws.any (fun flaw => flaw.finding.remark.isError) =
      !graph.assess.flaws.isEmpty := by
    cases graph.assess.flaws <;> rfl
  have advicePasses :
      graph.assess.advice.any (fun advice => advice.finding.remark.isError) = false := by
    rw [List.any_eq_false]
    exact fun _ _ => Bool.false_ne_true
  have passes : (recorded graph).ok = graph.assess.flaws.isEmpty := by
    simp only [ok, recorded, Graph.Assessment.findings, List.map_append, List.map_map,
      List.any_append, List.any_map, Function.comp_def, flawsFail, advicePasses]
    simp
  rw [passes, List.isEmpty_iff]

theorem ok_failed {errors : List Diagnostic} (nonempty : errors ≠ []) :
    (failed errors).ok = false := by
  simp [ok, failed, nonempty]

end Report

namespace Evaluation

/-- The script has failed, or something has kept it from coming to an end. -/
def ReportsErrors (outcome : Except Fault Outcome) : Prop :=
  (∃ fault, outcome = .error fault) ∨
    ∃ graph diagnostics, outcome = .ok ⟨graph, diagnostics⟩ ∧ diagnostics ≠ []

/-- The script has run to its end and left a graph. -/
def Records (outcome : Except Fault Outcome) (graph : Graph) : Prop :=
  outcome = .ok ⟨some graph, []⟩

namespace Records

variable {outcome : Except Fault Outcome} {graph : Graph}

theorem of_toOption (found : outcome.toOption = some ⟨some graph, []⟩) :
    Records outcome graph := by
  cases outcome with
  | error fault => cases found
  | ok outcome => exact congrArg Except.ok (Option.some.inj found)

theorem not_reportsErrors (records : Records outcome graph) : ¬ReportsErrors outcome := by
  rintro (⟨fault, failed⟩ | ⟨other, diagnostics, failed, nonempty⟩) <;>
    cases records.symm.trans failed
  exact nonempty rfl

/-- No other graph is recorded. -/
theorem exists_iff (records : Records outcome graph) {condition : Graph → Prop} :
    (∃ other, Records outcome other ∧ condition other) ↔ condition graph := by
  constructor
  · rintro ⟨other, same, holds⟩
    cases records.symm.trans same
    exact holds
  · exact fun holds => ⟨graph, records, holds⟩

end Records

/-- An evaluation reports errors or records a graph, and then all kinds in it are
listed. -/
theorem evaluate_cases (limit : Duration) {interpreter : Interpreter}
    (acts : ∀ text, Script.ActsThroughBuiltins (interpreter text))
    (label source : String) :
    ReportsErrors (evaluate limit .empty label source interpreter).outcome ∨
      ∃ graph, Records (evaluate limit .empty label source interpreter).outcome graph ∧
        ∀ node ∈ graph.nodes, node.kind.isListed = true := by
  have alone := (@evaluate_of_idle .empty interpreter limit acts rfl label source).1
  rw [alone]
  unfold soleOutcome
  cases isBlank source with
  | true => exact .inr ⟨_, rfl, by simp [Graph.empty]⟩
  | false =>
      have grown := (acts (Spelling.respell source)).confined.grows (.fresh "")
      rcases ran : (interpreter (Spelling.respell source)).run (.fresh "") with
        ⟨_ | ending, session⟩ <;> rw [ran] at grown
      · exact .inl (.inl ⟨_, rfl⟩)
      · cases ending with
        | done =>
            exact .inr ⟨_, rfl, grown.isListed (by simp [Session.fresh, Graph.empty])⟩
        | failed message => exact .inl (.inr ⟨_, _, rfl, List.cons_ne_nil _ _⟩)
        | broken message => exact .inl (.inl ⟨_, rfl⟩)

end Evaluation

namespace Report

open Evaluation

variable {outcome : Except Fault Outcome} {yaml : YamlTree → String}

theorem ofOutcome_of_reportsErrors (reports : ReportsErrors outcome) :
    ∃ errors, errors ≠ [] ∧ ofOutcome outcome = failed errors := by
  rcases reports with ⟨fault, rfl⟩ | ⟨graph, diagnostics, rfl, nonempty⟩
  · exact ⟨_, List.cons_ne_nil _ _, rfl⟩
  · refine ⟨diagnostics, nonempty, ?_⟩
    simp [ofOutcome, nonempty]

theorem ofOutcome_of_records {graph : Graph} (records : Records outcome graph) :
    ofOutcome outcome = recorded graph := by
  rw [records]
  rfl

theorem errors_ofOutcome_iff
    (ends : ReportsErrors outcome ∨ ∃ graph, Records outcome graph) :
    (ofOutcome outcome).errors ≠ [] ↔ ReportsErrors outcome := by
  rcases ends with reports | ⟨graph, records⟩
  · obtain ⟨errors, nonempty, failed⟩ := ofOutcome_of_reportsErrors reports
    rw [failed]
    exact iff_of_true nonempty reports
  · rw [ofOutcome_of_records records]
    exact iff_of_false (fun nonempty => nonempty rfl) records.not_reportsErrors

theorem ok_ofOutcome_iff (ends : ReportsErrors outcome ∨ ∃ graph, Records outcome graph) :
    (ofOutcome outcome).ok = false ↔
      ReportsErrors outcome ∨ ∃ graph, Records outcome graph ∧
        graph.assess.flaws ≠ [] := by
  rcases ends with reports | ⟨graph, records⟩
  · obtain ⟨errors, nonempty, failed⟩ := ofOutcome_of_reportsErrors reports
    rw [failed]
    exact iff_of_true (ok_failed nonempty) (.inl reports)
  · rw [ofOutcome_of_records records, records.exists_iff,
      or_iff_right records.not_reportsErrors, ne_eq, ← ok_recorded_iff, Bool.not_eq_true]

theorem isOk_render_ofOutcome_iff
    (ends : ReportsErrors outcome ∨ ∃ graph, Records outcome graph ∧
      ∀ node ∈ graph.nodes, node.kind.isListed = true) (format : Format) :
    ((ofOutcome outcome).render format yaml).isOk = false ↔
      format = .json ∧ ∃ graph, Records outcome graph ∧
        ∃ node ∈ graph.nodes, node.value.isNaN = true ∨ node.value.isInf = true := by
  rcases ends with reports | ⟨graph, records, listed⟩
  · -- What has failed is reported without a graph, and that can be written.
    obtain ⟨errors, -, failed⟩ := ofOutcome_of_reportsErrors reports
    have written : ((ofOutcome outcome).render format yaml).isOk = true := by
      rw [failed]
      exact (isOk_render_iff (by simp [Report.failed, Graph.empty]) format).mpr
        (by simp [Report.failed, Graph.empty])
    refine iff_of_false (by simp [written]) ?_
    rintro ⟨-, graph, records, -⟩
    exact records.not_reportsErrors reports
  · have written := @isOk_render_iff (recorded graph) yaml listed format
    rw [ofOutcome_of_records records, records.exists_iff, ← Bool.not_eq_true, written]
    simp only [recorded, NumberLayout.isFinite_iff, Classical.not_imp, not_forall,
      not_and_or, Bool.not_eq_false]

end Report

namespace Command

/-- Whatever the format, what a check writes has a written form: it shows no node. -/
theorem isOk_written_check (format : Format) (report : Report)
    (yaml : YamlTree → String) : (check.written format report yaml).isOk = true := by
  have blank (format : Format) :
      ({ report with graph := .empty : Report }.render format yaml).isOk = true :=
    (Report.isOk_render_iff (by simp [Graph.empty]) format).mpr (by simp [Graph.empty])
  cases format with
  | text => rfl
  | json => exact blank .json
  | yaml => exact blank .yaml

/-- The report of a program that a command is run on. -/
def report (toolkit : Toolkit) (settings : Settings) (label source : String) : Report :=
  .ofOutcome (Evaluation.evaluate (limit settings) .empty label source
    (toolkit.interpreter (limit settings))).outcome

variable {toolkit : Toolkit} {command : Command} {settings : Settings} {format : Format}
  {time label path source : String}

theorem fault_runOn_of_written
    (written : (command.written format (report toolkit settings label source)
      toolkit.yaml).isOk = true) :
    (command.runOn settings format time label path source toolkit).fault =
      command.verdict path (report toolkit settings label source) := by
  unfold runOn
  unfold report at written ⊢
  simp only
  split
  · rfl
  · rename_i fault unwritten
    rw [unwritten] at written
    cases written

theorem fault_runOn_of_unwritten
    (unwritten : (command.written format (report toolkit settings label source)
      toolkit.yaml).isOk = false) :
    (command.runOn settings format time label path source toolkit).fault ≠ none := by
  unfold runOn
  unfold report at unwritten
  simp only
  split
  · rename_i output written
    rw [written] at unwritten
    cases unwritten
  · exact Option.some_ne_none _

theorem fault_check :
    (check.runOn settings format time label path source toolkit).fault =
      if (report toolkit settings label source).ok then none else some .checkFailed :=
  fault_runOn_of_written (isOk_written_check format _ _)

theorem fault_check_ne_none_iff :
    (check.runOn settings format time label path source toolkit).fault ≠ none ↔
      (report toolkit settings label source).ok = false := by
  rw [fault_check]
  cases (report toolkit settings label source).ok <;> simp

theorem fault_record_ne_none_iff :
    (record.runOn settings format time label path source toolkit).fault ≠ none ↔
      (report toolkit settings label source).errors ≠ [] ∨
        ((report toolkit settings label source).render format toolkit.yaml).isOk =
          false := by
  have same : record.written format (report toolkit settings label source) toolkit.yaml =
      (report toolkit settings label source).render format toolkit.yaml := rfl
  cases written :
      ((report toolkit settings label source).render format toolkit.yaml).isOk with
  | false => simp [fault_runOn_of_unwritten ((congrArg Except.isOk same).trans written)]
  | true =>
      rw [fault_runOn_of_written ((congrArg Except.isOk same).trans written)]
      simp [verdict]

end Command

namespace Request

open Evaluation

/-- A command on a program that can be read ends as the evaluation of the program does,
with any interpreter that acts through the builtin functions alone, and however YAML is
written.  A check fails exactly if errors are reported or the recorded graph has flaws,
in every format alike, and never for advice alone.  A recording fails exactly if errors
are reported, or if the graph is to be written as JSON and holds a number that is not
finite. -/
theorem verdicts_across_formats (toolkit : Toolkit)
    (acts : ∀ limit text, Script.ActsThroughBuiltins (toolkit.interpreter limit text))
    {reading : String → Except SourceFault String} {path source : String}
    (readable : reading path = .ok source) (settings : Settings) (time label : String) :
    let limit := Command.limit settings
    let outcome :=
      (evaluate limit .empty label source (toolkit.interpreter limit)).outcome
    let fault := fun command format =>
      ((run command settings format path).answer time label reading toolkit).fault
    (ReportsErrors outcome ∨ ∃ graph, Records outcome graph) ∧
    (∀ format, fault .check format ≠ none ↔
      ReportsErrors outcome ∨ ∃ graph, Records outcome graph ∧ graph.assess.flaws ≠ []) ∧
    (∀ format other, fault .check format = fault .check other) ∧
    (∀ graph, Records outcome graph → graph.assess.flaws = [] →
      ∀ format, fault .check format = none) ∧
    ∀ format, fault .record format ≠ none ↔
      ReportsErrors outcome ∨
        format = .json ∧ ∃ graph, Records outcome graph ∧
          ∃ node ∈ graph.nodes, node.value.isNaN = true ∨ node.value.isInf = true := by
  intro limit outcome fault
  have answered (command : Command) (format : Format) : fault command format =
      (command.runOn settings format time label path source toolkit).fault := by
    simp only [fault, answer, readable]
  have cases := evaluate_cases limit (acts limit) label source
  have ends : ReportsErrors outcome ∨ ∃ graph, Records outcome graph :=
    cases.imp_right (Exists.imp fun _ => And.left)
  refine ⟨ends, fun format => ?_, fun format other => ?_,
    fun graph records flawless format => ?_, fun format => ?_⟩
  · rw [answered, Command.fault_check_ne_none_iff]
    exact Report.ok_ofOutcome_iff ends
  · rw [answered, answered, Command.fault_check, Command.fault_check]
  · have passes : (Command.report toolkit settings label source).ok = true := by
      rw [Command.report, Report.ofOutcome_of_records records, Report.ok_recorded_iff]
      exact flawless
    rw [answered, Command.fault_check, passes, if_pos rfl]
  · rw [answered, Command.fault_record_ne_none_iff]
    exact or_congr (Report.errors_ofOutcome_iff ends)
      (Report.isOk_render_ofOutcome_iff cases format)

/-- A number that JSON has no form for, and that nothing uses. -/
def unusedNumber : Graph :=
  ⟨#[⟨0, .constant, 0, 0.0 / 0.0, "", []⟩], true⟩

theorem verdicts_on_unused_number :
    let reading : String → Except SourceFault String := fun _ => .ok "(constant NaN)\n"
    let fault := fun command format =>
      ((run command .initial format "-").answer "" "" reading).fault
    reading "-" = .ok "(constant NaN)\n" ∧ unusedNumber.assess.advice ≠ [] ∧
      (∀ format, fault .check format = none) ∧ fault .record .json ≠ none ∧
      fault .record .text = none ∧ fault .record .yaml = none := by
  intro reading fault
  have readable : reading "-" = .ok "(constant NaN)\n" := rfl
  obtain ⟨-, -, -, checked, recorded⟩ :=
    verdicts_across_formats {} Script.acts_interpreter readable .initial "" ""
  have records :
      Records (evaluate (Command.limit .initial) .empty "" "(constant NaN)\n").outcome
        unusedNumber :=
    .of_toOption (by decide +kernel)
  have passes (format : Format) (other : format ≠ .json) :
      fault .record format = none := by
    by_contra failed
    rcases (recorded format).mp failed with reports | ⟨same, -⟩
    · exact records.not_reportsErrors reports
    · exact other same
  refine ⟨readable, by decide +kernel, checked _ records (by decide +kernel), ?_,
    passes .text (by decide), passes .yaml (by decide)⟩
  exact (recorded .json).mpr
    (.inr ⟨rfl, unusedNumber, records, _, Array.mem_singleton.mpr rfl,
      .inl (by decide +kernel)⟩)

end Request

end CostTape
