import Mathlib.Data.List.Basic
import CostTape.Graph.Analysis
import CostTape.Proofs.Recording.Lifecycle

/-! Recorded traces are sound but for names that were left empty. -/

namespace CostTape

namespace Node

def takesName (node : Node) : Bool :=
  node.kind = .input || node.kind = .output || node.kind = .call

def lacksName (node : Node) : Bool :=
  node.takesName && node.symbol == ""

/-- The node has the shape of its kind, but may lack its name. -/
def WellShaped (node : Node) : Prop :=
  node.shapeDefects = if node.lacksName then [.noSymbol node.kind] else []

end Node

namespace Graph

/-- One flaw for each node without its name. -/
def missingNames (graph : Graph) : List Flaw :=
  graph.nodes.toList.zipIdx.filterMap fun (node, position) =>
    if node.lacksName then some ⟨position, .noSymbol node.kind⟩ else none

/-- Every node stands in its place, refers backwards and has its shape. -/
def WellRecorded (graph : Graph) : Prop :=
  ∀ (position : Nat) (node : Node), graph.nodes[position]? = some node →
    node.placementDefects position = [] ∧ node.referenceDefects position = [] ∧
      node.WellShaped

theorem wellRecorded_empty : empty.WellRecorded := by
  intro position node found
  cases found

theorem referenceDefects_placedAt {position : Nat} {node : Node}
    (backward : ∀ arg ∈ node.args, arg.precedes position = true)
    (targeted : node.kind = .assignment → node.target.precedes position = true) :
    (placedAt position node).referenceDefects position = [] := by
  have none : node.args.filter (fun arg => !arg.precedes position) = [] := by
    simpa using backward
  by_cases assigns : node.kind = .assignment
  · simp [Node.referenceDefects, placedAt, none, assigns, targeted assigns]
  · simp [Node.referenceDefects, placedAt, none, assigns]

theorem WellRecorded.append {graph next : Graph} {node : Node}
    (recorded : graph.WellRecorded) (shaped : node.WellShaped)
    (accepted : graph.append node = .ok next) : next.WellRecorded := by
  obtain ⟨-, backward, targeted, rfl⟩ := append_eq_ok_iff.mp accepted
  intro position found stored
  rw [Array.getElem?_push] at stored
  split at stored
  · rename_i last
    cases stored
    subst last
    refine ⟨?_, ?_, shaped⟩
    · simp [Node.placementDefects, size]
    · exact referenceDefects_placedAt backward targeted
  · exact recorded position found stored

theorem WellRecorded.freeze {graph : Graph} (recorded : graph.WellRecorded) :
    graph.freeze.WellRecorded :=
  recorded

theorem WellRecorded.flaws_eq {graph : Graph} (recorded : graph.WellRecorded) :
    graph.flaws = graph.missingNames := by
  have placed : graph.flawsBy Node.placementDefects = [] :=
    flawsBy_eq_nil fun position node found => (recorded position node found).1
  have referring : graph.flawsBy Node.referenceDefects = [] :=
    flawsBy_eq_nil fun position node found => (recorded position node found).2.1
  rw [flaws, placed, referring, List.nil_append, List.nil_append, flawsBy, missingNames,
    List.filterMap_eq_flatMap_toList]
  apply List.flatMap_congr
  rintro ⟨node, position⟩ member
  have found : graph.nodes[position]? = some node := by
    simpa using List.mem_zipIdx_iff_getElem?.mp member
  have shaped : node.shapeDefects = _ := (recorded position node found).2.2
  simp only [shaped]
  split <;> rfl

theorem length_missingNames (graph : Graph) :
    graph.missingNames.length = graph.nodes.toList.countP Node.lacksName := by
  have unzipped := congrArg (List.countP Node.lacksName)
    (List.zipIdx_map_fst 0 graph.nodes.toList)
  rw [List.countP_map] at unzipped
  rw [← unzipped, missingNames, List.length_filterMap_eq_countP]
  congr 1
  funext entry
  by_cases lacking : entry.1.lacksName <;> simp [lacking]

theorem missingNames_eq_nil_iff (graph : Graph) :
    graph.missingNames = [] ↔
      ∀ node ∈ graph.nodes, node.takesName → node.symbol ≠ "" := by
  rw [← List.length_eq_zero_iff, length_missingNames, List.countP_eq_zero]
  simp [Node.lacksName]

end Graph

namespace Node

open Recording

/-- The node has the shape of its kind, and a name if it takes one. -/
def Complete (node : Node) : Prop :=
  node.shapeDefects = [] ∧ node.lacksName = false

theorem Complete.wellShaped (node : Node) (complete : node.Complete) :
    node.WellShaped := by
  rw [WellShaped, complete.1, complete.2]
  rfl

theorem admits_complete : Admits Complete where
  literal := by
    rintro node ⟨value, rfl⟩
    exact ⟨rfl, rfl⟩
  unary := by
    intro operator arg
    cases operator <;> exact ⟨rfl, rfl⟩
  binary := by
    intro operator left right
    cases operator <;> exact ⟨rfl, rfl⟩
  assignment := fun _ _ => ⟨rfl, rfl⟩
  ternary := fun _ => ⟨rfl, rfl⟩
  nop := ⟨rfl, rfl⟩

theorem admitsName_complete {name : String} (given : name ≠ "") :
    AdmitsName Complete name := by
  constructor <;> intros <;>
    simp [Complete, shapeDefects, lacksName, operation, given, Kind.isListed, Kind.arity?]

theorem admitsName_wellShaped (name : String) : AdmitsName WellShaped name := by
  constructor <;> intros <;>
    simp [WellShaped, shapeDefects, lacksName, takesName, operation, Kind.isListed,
      Kind.arity?, Kind.needsSymbol]

end Node

namespace Session

variable {sort : Node → Prop} {before after : Session}

theorem Grows.wellRecorded
    (grown : before.Grows Node.WellShaped after)
    (recorded : before.graph.WellRecorded) : after.graph.WellRecorded := by
  induction grown with
  | refl => exact recorded
  | record _ _ shaped accepted induction => exact induction.append shaped accepted

def unnamed (session : Session) : Nat :=
  session.graph.nodes.toList.countP Node.lacksName

theorem unnamed_of_append {graph : Graph} {node : Node}
    (accepted : before.graph.append node = .ok graph) :
    unnamed { before with graph } = before.unnamed + if node.lacksName then 1 else 0 := by
  simp only [unnamed, Graph.nodes_of_append accepted, Array.toList_push,
    List.countP_append, List.countP_singleton]
  rfl

theorem Grows.unnamed_eq
    (named : ∀ node, sort node → node.lacksName = false)
    (grown : before.Grows sort after) : after.unnamed = before.unnamed := by
  induction grown with
  | refl => rfl
  | record _ _ sorted accepted induction =>
      rw [unnamed_of_append accepted, named _ sorted, induction]
      rfl

end Session

namespace Recording

theorem IsLiteral.lacksName_eq (node : Node) (literal : IsLiteral node) :
    node.lacksName = false := by
  obtain ⟨value, rfl⟩ := literal
  rfl

theorem unnamed_apply
    {kind : Kind} (takes : ∀ args, (operation kind "" args).lacksName = true)
    (operands : List Handle) (session : Session) :
    ((apply kind "" operands).runOn session).2.unnamed =
      session.unnamed +
        if ((apply kind "" operands).runOn session).1.isOk then 1 else 0 := by
  obtain ⟨middle, grown, ⟨fault, failed⟩ |
    ⟨args, graph, -, -, accepted, succeeded⟩⟩ := runOn_apply kind "" operands session
  · rw [failed]
    exact grown.unnamed_eq IsLiteral.lacksName_eq
  · rw [succeeded]
    simp only [Session.unnamed_of_append accepted, takes args,
      grown.unnamed_eq IsLiteral.lacksName_eq]
    rfl

end Recording

namespace Studio

variable {sort : Node → Prop} {studio next : Studio}

def WellRecorded (studio : Studio) : Prop :=
  ∀ (place : Nat) (session : Session), studio.sessions[place]? = some session →
    session.graph.WellRecorded

theorem WellRecorded.move
    (recorded : studio.WellRecorded) (moves : studio.Moves Node.WellShaped next) :
    next.WellRecorded := by
  intro place session found
  have step := moves.step place
  rw [found] at step
  cases before : studio.sessions[place]? with
  | none =>
      rw [before] at step
      cases step
      exact Graph.wellRecorded_empty
  | some earlier =>
      rw [before] at step
      cases step with
      | stop recording => exact recorded place earlier before
      | grow grown => exact grown.wellRecorded (recorded place earlier before)

theorem unnamed_of_moves
    (named : ∀ node, sort node → node.lacksName = false)
    (moves : studio.Moves sort next) (place : Nat) :
    (next.session (some place)).unnamed = (studio.session (some place)).unnamed := by
  have step := moves.step place
  change (next.sessions[place]?.getD .absent).unnamed =
    (studio.sessions[place]?.getD .absent).unnamed
  generalize studio.sessions[place]? = before at step
  generalize next.sessions[place]? = after at step
  cases step with
  | absent => rfl
  | start label => rfl
  | stop recording => rfl
  | grow grown => exact grown.unnamed_eq named

theorem session_runStep_self {place : Nat} {step : StateM Session α}
    (grows : ∀ session : Session, session.Grows sort (step.run session).2) :
    (studio.runStep (some place) step).2.session (some place) =
      (step.run (studio.session (some place))).2 := by
  rw [runStep_some]
  by_cases inside : place < studio.sessions.size
  · simp [Studio.session, inside]
  · have absent : studio.session (some place) = .absent := by
      simp [Studio.session, inside]
    have unchanged := (grows .absent).eq_of_not_recording rfl
    rw [absent, unchanged]
    simp [Studio.session, inside]

theorem session_runStep_of_ne {place : Option Nat} {other : Nat} {step : StateM Session α}
    (different : place ≠ some other) :
    (studio.runStep place step).2.session (some other) = studio.session (some other) := by
  cases place with
  | none => rfl
  | some place =>
      have apart : place ≠ other := fun same => different (congrArg some same)
      rw [runStep_some]
      simp [Studio.session, Array.getElem?_setIfInBounds, apart]

end Studio

namespace Workbench

open Recording

theorem isOk_perform_scalar
    (bench : Workbench) (name : String) (out : Option String) (request : ScalarRequest) :
    (bench.perform name out (.scalar request)).1.isOk =
      (bench.studio.runStep (bench.sessions.find? name)
        (bench.scalarStep request).run).1.isOk := by
  simp only [perform]
  rcases bench.studio.runStep (bench.sessions.find? name)
    (bench.scalarStep request).run with ⟨fault | handle, studio⟩ <;> rfl

/-- The command succeeds in recording an empty name in the session at a place. -/
def RecordsEmptyName (bench : Workbench) (place : Nat) (command : Command) : Prop :=
  command.request.name? = some "" ∧ bench.sessions.find? command.session = some place ∧
    (bench.perform command.session command.out command.request).1.isOk = true

instance (bench : Workbench) (place : Nat) (command : Command) :
    Decidable (bench.RecordsEmptyName place command) :=
  inferInstanceAs (Decidable (_ ∧ _ ∧ _))

def emptyNames (place : Nat) : Workbench → List Command → Nat
  | _, [] => 0
  | bench, command :: commands =>
      (if bench.RecordsEmptyName place command then 1 else 0) +
        emptyNames place
          (bench.perform command.session command.out command.request).2 commands

theorem scalarStep_of_name
    (bench : Workbench) {request : ScalarRequest} {name : String}
    (named : request.name? = some name) :
    ∃ kind operands, bench.scalarStep request = apply kind name operands ∧
      ∀ args, (operation kind "" args).lacksName = true := by
  cases request with
  | parameter given =>
      cases named
      exact ⟨.input, _, rfl, fun _ => rfl⟩
  | output given value =>
      cases named
      exact ⟨.output, _, rfl, fun _ => rfl⟩
  | call given operands =>
      cases named
      exact ⟨.call, _, rfl, fun _ => rfl⟩
  | _ => cases named

theorem unnamed_perform (bench : Workbench) (place : Nat) (command : Command) :
    ((bench.perform command.session command.out command.request).2.studio.session
        (some place)).unnamed =
      (bench.studio.session (some place)).unnamed +
        if bench.RecordsEmptyName place command then 1 else 0 := by
  obtain ⟨name, out, request⟩ := command
  by_cases empty : request.name? = some ""
  · cases request with
    | scalar request =>
        obtain ⟨kind, operands, same, takes⟩ := bench.scalarStep_of_name empty
        simp only [RecordsEmptyName, empty, true_and, studio_perform_scalar,
          isOk_perform_scalar, same]
        by_cases here : bench.sessions.find? name = some place
        · rw [here, Studio.session_runStep_self
            (Appends.apply (fun _ literal => trivial) fun _ _ => trivial)]
          refine (unnamed_apply takes operands _).trans ?_
          simp only [Studio.runStep_some, true_and]
          rfl
        · rw [Studio.session_runStep_of_ne here]
          simp [here]
    | _ => cases empty
  · have moves := moves_of_perform Node.admits_complete bench name out request
      fun symbol named => Node.admitsName_complete fun same => empty (same ▸ named)
    rw [Studio.unnamed_of_moves (fun _ complete => complete.2) moves]
    simp [RecordsEmptyName, empty]

theorem unnamed_after (bench : Workbench) (place : Nat) (commands : List Command) :
    ((bench.after commands).studio.session (some place)).unnamed =
      (bench.studio.session (some place)).unnamed +
        emptyNames place bench commands := by
  induction commands generalizing bench with
  | nil => rfl
  | cons command commands induction =>
      rw [after_cons, induction, unnamed_perform, emptyNames, Nat.add_assoc]

theorem wellRecorded_after (bench : Workbench) (commands : List Command)
    (recorded : bench.studio.WellRecorded) :
    (bench.after commands).studio.WellRecorded := by
  induction commands generalizing bench with
  | nil => exact recorded
  | cons command commands induction =>
      refine induction _ (recorded.move (moves_of_perform ?_ _ _ _ _ ?_))
      · exact Node.admits_complete.mono Node.Complete.wellShaped
      · exact fun symbol _ => Node.admitsName_wellShaped symbol

private theorem map_ne_ok_graph
    {wrap : α → Answer} {graph : Graph} (outcome : Except RecordingFault α)
    (apart : ∀ value, wrap value ≠ .graph graph) :
    outcome.map wrap ≠ .ok (.graph graph) := by
  cases outcome with
  | error fault => exact fun same => nomatch same
  | ok value => exact fun same => apart value (Except.ok.inj same)

theorem stops_of_answer
    {bench : Workbench} {name : String} {out : Option String} {request : Request}
    {graph : Graph} (answered : (bench.perform name out request).1 = .ok (.graph graph)) :
    request = .stop ∨ request = .stopActive := by
  cases request with
  | stop => exact .inl rfl
  | stopActive => exact .inr rfl
  | active => cases answered
  | isRecording => cases answered
  | inspect handle => cases answered
  | size => exact (map_ne_ok_graph _ nofun answered).elim
  | node handle => exact (map_ne_ok_graph _ nofun answered).elim
  | assignDual destination source => exact (map_ne_ok_graph _ nofun answered).elim
  | start label =>
      simp only [perform] at answered
      split at answered <;> cases answered
  | scalar request =>
      simp only [perform] at answered
      split at answered <;> cases answered
  | assign destination source =>
      simp only [perform] at answered
      split at answered <;> cases answered
  | dual request =>
      simp only [perform] at answered
      split at answered <;> cases answered

theorem graph_of_answer
    {bench : Workbench} {name : String} {out : Option String} {request : Request}
    {graph : Graph} (consistent : bench.studio.Consistent)
    (answered : (bench.perform name out request).1 = .ok (.graph graph)) :
    ∃ place, bench.studio.active = some place ∧
      graph = (bench.studio.session (some place)).graph.freeze := by
  rcases stops_of_answer answered with rfl | rfl
  · by_cases active : bench.NamesActive name
    · obtain ⟨place, named, active⟩ := active
      rw [perform_stop_of_active name out consistent named active] at answered
      cases answered
      exact ⟨place, active, rfl⟩
    · rw [perform_stop_of_not_namesActive name out active] at answered
      cases answered
  · cases active : bench.studio.active with
    | none =>
        rw [perform_stopActive_of_idle name out active] at answered
        cases answered
    | some place =>
        rw [perform_stopActive_of_active name out consistent active] at answered
        cases answered
        exact ⟨place, rfl, rfl⟩

/-- Whatever was done before, failing requests included, a graph that is handed
out is frozen, and its flaws are the names that were left empty. -/
theorem flaws_of_handed_out_graph
    (handles : Names Handle) (duals : Names Dual) (commands : List Command)
    (name : String) (out : Option String) (request : Request) (graph : Graph)
    (answered : (((withVariables handles duals).after commands).perform
      name out request).1 = .ok (.graph graph)) :
    graph.frozen = true ∧ graph.flaws = graph.missingNames ∧
      (graph.flaws = [] ↔ ∀ node ∈ graph.nodes, node.takesName → node.symbol ≠ "") ∧
      ∃ place, ((withVariables handles duals).after commands).studio.active = some place ∧
        graph.flaws.length = emptyNames place (withVariables handles duals) commands := by
  have consistent := consistent_after (withVariables handles duals) commands
    Studio.consistent_empty
  have wellRecorded := wellRecorded_after (withVariables handles duals) commands
    fun _ _ found => nomatch found
  obtain ⟨place, active, rfl⟩ := graph_of_answer consistent answered
  have found := Studio.session_eq_of_inside (consistent.active_started place active)
  have recorded := (wellRecorded place _ found).freeze.flaws_eq
  have counted := unnamed_after (withVariables handles duals) place commands
  refine ⟨rfl, recorded, ?_, place, active, ?_⟩
  · rw [recorded]
    exact Graph.missingNames_eq_nil_iff _
  · rw [recorded, Graph.length_missingNames]
    exact counted.trans (Nat.zero_add _)

/-- A name left empty, then a handle to a node that is not there. -/
def carelessCommands : List Command :=
  [⟨"old", none, .start "1"⟩, ⟨"old", none, .stop⟩, ⟨"new", none, .start "2"⟩,
    ⟨"new", none, .scalar (.parameter "")⟩,
    ⟨"new", none, .scalar (.binary .add (.literal 2.0) (.named "far"))⟩,
    ⟨"old", none, .scalar (.call "" [])⟩,
    ⟨"new", none, .scalar (.unary .sin (.literal 2.0))⟩]

def carelessGraph : Graph :=
  ⟨#[⟨0, .input, 0, 0.0, "", []⟩, ⟨1, .constant, 1, 2.0, "", []⟩,
    ⟨2, .constant, 2, 2.0, "", []⟩, ⟨3, .call, 3, 0.0, "sin", [2]⟩], true⟩

theorem flaws_of_careless_commands :
    (((withVariables [("far", .bound 5)] []).after carelessCommands).perform
        "new" none .stop).1 = .ok (.graph carelessGraph) ∧
      carelessGraph.flaws = [⟨0, .noSymbol .input⟩] := by
  have answered : (((withVariables [("far", .bound 5)] []).after carelessCommands).perform
      "new" none .stop).1 = .ok (.graph carelessGraph) := rfl
  have flaws :=
    (flaws_of_handed_out_graph _ _ carelessCommands "new" none .stop _ answered).2.1
  exact ⟨answered, flaws.trans rfl⟩

end Workbench

end CostTape
