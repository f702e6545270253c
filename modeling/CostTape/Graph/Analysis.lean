import CostTape.Graph.SlotTable
import CostTape.Graph.Validation

/-! What can be found out about a trace beyond its flaws: nodes that nothing
reads, repeated computations, results that are never used.  The analyses look up
slots and stretches of the trace where nodes say, so they can fail on a list of
nodes that is no trace.  The assessment of a graph never does. -/

namespace CostTape

inductive Hint where
  | replaceableBy (id : NodeId)
  | unused (kind : Kind)
deriving DecidableEq

def Hint.message : Hint → String
  | .replaceableBy id => "replaceable by " ++ id.text
  | .unused kind => "result of " ++ kind.name ++ " is never used"

structure Advice where
  node : NodeId
  hint : Hint
deriving DecidableEq

def Advice.finding (advice : Advice) : Finding :=
  ⟨advice.node, advice.hint.message, .warning⟩

section

variable {α β ε : Type} {items : List α}

theorem filterMapM_eq_ok {select : α → Except ε (Option β)} {selected : α → Option β}
    (each : ∀ item ∈ items, select item = .ok (selected item)) :
    items.filterMapM select = .ok (items.filterMap selected) := by
  induction items with
  | nil => rfl
  | cons item items induction =>
      rw [List.filterMapM_cons, each item List.mem_cons_self,
        induction fun other member => each other (List.mem_cons_of_mem _ member),
        List.filterMap_cons]
      cases selected item <;> rfl

theorem findM?_eq_ok {test : α → Except ε Bool} {tested : α → Bool}
    (each : ∀ item ∈ items, test item = .ok (tested item)) :
    items.findM? test = .ok (items.find? tested) := by
  induction items with
  | nil => rfl
  | cons item items induction =>
      rw [List.findM?, each item List.mem_cons_self, List.find?_cons]
      cases tested item with
      | true => rfl
      | false =>
          exact induction fun other member => each other (List.mem_cons_of_mem _ member)

end

namespace Graph

/-- Marks the slots that a node reads.  Arguments beyond the last slot are passed
over. -/
def markReads (table : SlotTable) (node : Node) : Except IndexFault SlotTable :=
  node.args.foldlM
    (fun table (arg : NodeId) => if arg < table.size then table.mark arg else pure table)
    table

def readSlots (graph : Graph) : Except IndexFault SlotTable :=
  graph.nodes.toList.foldlM markReads (.blank graph.size)

def roots (graph : Graph) : Except IndexFault (List Node) := do
  let used ← graph.readSlots
  graph.nodes.toList.filterMapM fun node => do
    let isUsed ← used.read node.id
    pure (if isUsed then none else some node)

def stretch (graph : Graph) (first last : Int) : Except IndexFault (List Node) :=
  if first < 0 ∨ last < first then .error ⟨first, graph.size⟩
  else if graph.size < last then .error ⟨last, graph.size⟩
  else .ok (graph.nodes.extract first.toNat last.toNat).toList

/-- An assignment after `earlier` and before `later` overwrites the slot of
`earlier` or an operand of `later`. -/
def reassignedBetween (graph : Graph) (earlier later : Node) :
    Except IndexFault Bool := do
  let between ← graph.stretch (earlier.id + 1) later.id
  pure (between.any fun node =>
    node.kind = .assignment &&
      (node.target == earlier.target || later.dependsOn node.target))

/-- The first of the earlier nodes whose slot already holds the node's value. -/
def representative? (graph : Graph) (position : Nat) (node : Node) :
    Except IndexFault (Option Node) :=
  (graph.nodes.extract 0 position).toList.findM? fun earlier => do
    if node.replaceableBy earlier then
      let overwritten ← graph.reassignedBetween earlier node
      pure !overwritten
    else
      pure false

/-- Repeated computations.  Transfers are left alone: repeating one can be
observed. -/
def redundant (graph : Graph) : Except IndexFault (List Advice) :=
  graph.nodes.toList.zipIdx.filterMapM fun (node, position) => do
    if node.isTransfer || node.kind = .nop then
      pure none
    else
      let earlier? ← graph.representative? position node
      pure (earlier?.map fun earlier => ⟨node.id, .replaceableBy earlier.id⟩)

def markUses (table : SlotTable) (node : Node) : Except IndexFault SlotTable := do
  let table ← node.args.foldlM SlotTable.mark table
  if node.kind = .assignment then table.mark node.target else pure table

def usedSlots (graph : Graph) : Except IndexFault SlotTable :=
  graph.nodes.toList.foldlM markUses (.blank graph.size)

/-- Nodes without effect whose slots are neither read nor overwritten. -/
def dead (graph : Graph) : Except IndexFault (List Advice) := do
  let used ← graph.usedSlots
  graph.nodes.toList.filterMapM fun node => do
    let isUsed ← used.read node.id
    pure (if isUsed || node.hasEffect || node.kind = .nop then none
      else some ⟨node.id, .unused node.kind⟩)

structure Assessment where
  flaws : List Flaw
  advice : List Advice
deriving DecidableEq

def Assessment.ok (assessment : Assessment) : Bool :=
  assessment.flaws.isEmpty

def Assessment.findings (assessment : Assessment) : List Finding :=
  assessment.flaws.map Flaw.finding ++ assessment.advice.map Advice.finding

/-- Advice is looked for only where references can be resolved. -/
def analyse (graph : Graph) : Except IndexFault Assessment := do
  let flaws := graph.flaws
  if flaws.isEmpty then
    let redundant ← graph.redundant
    let dead ← graph.dead
    pure ⟨flaws, redundant ++ dead⟩
  else
    pure ⟨flaws, []⟩

theorem rule_eq_nil_of_flawsBy {Symbol : Type} {graph : Graph Symbol}
    {rule : Nat → Node Symbol → List Defect} (clean : graph.flawsBy rule = [])
    {position : Nat} {node : Node Symbol}
    (found : graph.nodes[position]? = some node) : rule position node = [] := by
  rw [flawsBy, List.flatMap_eq_nil_iff] at clean
  have member : (node, position) ∈ graph.nodes.toList.zipIdx := by
    rw [List.mem_zipIdx_iff_getElem?]
    simpa using found
  simpa using clean _ member

theorem flawsBy_eq_nil {graph : Graph} {rule : Nat → Node → List Defect}
    (clean : ∀ (position : Nat) (node : Node), graph.nodes[position]? = some node →
      rule position node = []) :
    graph.flawsBy rule = [] := by
  unfold flawsBy
  rw [List.flatMap_eq_nil_iff]
  rintro ⟨node, position⟩ member
  have found : graph.nodes[position]? = some node := by
    simpa using List.mem_zipIdx_iff_getElem?.mp member
  simp [clean position node found]

/-- Every node stands at its id and reads earlier slots only. -/
def Ordered (graph : Graph) : Prop :=
  ∀ (position : Nat) (node : Node), graph.nodes[position]? = some node →
    node.id = position ∧ ∀ arg ∈ node.args, arg.precedes position = true

theorem ordered_of_flawless {graph : Graph} (flawless : graph.flaws = []) :
    graph.Ordered := by
  intro position node found
  rw [flaws, List.append_eq_nil_iff, List.append_eq_nil_iff] at flawless
  have placed := rule_eq_nil_of_flawsBy flawless.1.1 found
  have referring := rule_eq_nil_of_flawsBy flawless.1.2 found
  rw [Node.referenceDefects, List.append_eq_nil_iff] at referring
  constructor
  · simpa [Node.placementDefects] using placed
  · simpa using referring.1

theorem target_precedes_of_flawless {graph : Graph} (flawless : graph.flaws = [])
    {position : Nat} {node : Node} (found : graph.nodes[position]? = some node)
    (assigns : node.kind = .assignment) : node.target.precedes position = true := by
  rw [flaws, List.append_eq_nil_iff, List.append_eq_nil_iff] at flawless
  have referring := rule_eq_nil_of_flawsBy flawless.1.2 found
  rw [Node.referenceDefects, List.append_eq_nil_iff, if_pos assigns] at referring
  by_cases precedes : node.target.precedes position = true
  · exact precedes
  · rw [if_neg precedes] at referring
    exact nomatch referring.2

namespace Ordered

variable {graph : Graph} {position : Nat} {node : Node}

theorem id_precedes (ordered : graph.Ordered) (member : node ∈ graph.nodes.toList) :
    node.id.precedes graph.size = true := by
  obtain ⟨position, found⟩ := List.mem_iff_getElem?.mp member
  have inside := (List.getElem?_eq_some_iff.mp found).1
  rw [(ordered position node (by simpa using found)).1, NodeId.precedes_natCast]
  exact inside

theorem arg_precedes (ordered : graph.Ordered) (member : node ∈ graph.nodes.toList)
    {arg : NodeId} (reads : arg ∈ node.args) : arg.precedes graph.size = true := by
  obtain ⟨position, found⟩ := List.mem_iff_getElem?.mp member
  have inside := (List.getElem?_eq_some_iff.mp found).1
  exact NodeId.precedes_mono (Nat.le_of_lt inside)
    ((ordered position node (by simpa using found)).2 arg reads)

theorem stretch_eq_ok (ordered : graph.Ordered) {place : Nat} {earlier : Node}
    (found : graph.nodes[position]? = some node)
    (before : graph.nodes[place]? = some earlier) (sooner : place < position) :
    graph.stretch (earlier.id + 1) node.id =
      .ok (graph.nodes.extract (place + 1) position).toList := by
  have inside : position < graph.size := (Array.getElem?_eq_some_iff.mp found).1
  unfold stretch
  rw [(ordered position node found).1, (ordered place earlier before).1,
    if_neg (by omega), if_neg (by omega)]
  rfl

end Ordered

def overwrittenBetween (graph : Graph) (earlier later : Node) : Bool :=
  (graph.nodes.extract (earlier.id + 1).toNat later.id.toNat).toList.any fun node =>
    node.kind = .assignment &&
      (node.target == earlier.target || later.dependsOn node.target)

def reusable? (graph : Graph) (position : Nat) (node : Node) : Option Node :=
  (graph.nodes.extract 0 position).toList.find? fun earlier =>
    node.replaceableBy earlier && !graph.overwrittenBetween earlier node

namespace Ordered

variable {graph : Graph} {position : Nat} {node : Node}

theorem reassignedBetween_eq_ok (ordered : graph.Ordered) {earlier : Node}
    (found : graph.nodes[position]? = some node)
    (before : earlier ∈ graph.nodes.extract 0 position) :
    graph.reassignedBetween earlier node =
      .ok (graph.overwrittenBetween earlier node) := by
  obtain ⟨place, less, same⟩ := Array.mem_extract_iff_getElem.mp before
  have stored : graph.nodes[place]? = some earlier := by
    rw [← same]
    simp
  have ran := ordered.stretch_eq_ok found stored (by omega)
  have first : (earlier.id + 1).toNat = place + 1 := by
    rw [(ordered place earlier stored).1]
    omega
  have last : node.id.toNat = position := by
    rw [(ordered position node found).1]
    omega
  simp only [reassignedBetween, ran, overwrittenBetween, first, last]
  rfl

theorem representative?_eq_ok (ordered : graph.Ordered)
    (found : graph.nodes[position]? = some node) :
    graph.representative? position node = .ok (graph.reusable? position node) := by
  refine findM?_eq_ok fun earlier before => ?_
  have ran := ordered.reassignedBetween_eq_ok found (Array.mem_toList_iff.mp before)
  cases replaceable : node.replaceableBy earlier with
  | true =>
      simp only [ran]
      rfl
  | false => rfl

/-- The repeated computations, without the stretches that are searched for them. -/
theorem redundant_eq_ok (ordered : graph.Ordered) :
    graph.redundant = .ok (graph.nodes.toList.zipIdx.filterMap fun (node, position) =>
      if node.isTransfer || node.kind = .nop then none
      else (graph.reusable? position node).map fun earlier =>
        ⟨node.id, .replaceableBy earlier.id⟩) := by
  refine filterMapM_eq_ok fun ⟨node, position⟩ member => ?_
  have found : graph.nodes[position]? = some node := by
    simpa using List.mem_zipIdx_iff_getElem?.mp member
  simp only [ordered.representative?_eq_ok found]
  cases node.isTransfer || node.kind = .nop <;> rfl

end Ordered

def uses (node : Node) (id : NodeId) : Bool :=
  node.dependsOn id || (node.kind = .assignment && node.target == id)

theorem marked_markUses {table : SlotTable} {node : Node}
    (reads : ∀ arg ∈ node.args, arg.precedes table.size = true)
    (writes : node.kind = .assignment → node.target.precedes table.size = true) :
    ∃ after, markUses table node = .ok after ∧ table.Marked (uses node) after := by
  obtain ⟨middle, ran, marked⟩ := SlotTable.marked_args reads fun _ _ _ _ => rfl
  unfold markUses
  rw [ran]
  by_cases assigns : node.kind = .assignment
  · obtain ⟨after, wrote, overwritten⟩ :=
      SlotTable.marked_mark (by rw [marked.size_eq]; exact writes assigns)
    refine ⟨after, ?_, ?_⟩
    · simp only [if_pos assigns]
      exact wrote
    · have both : uses node = fun id => node.args.contains id || node.target == id := by
        funext id
        simp [uses, assigns, Node.dependsOn]
      rw [both]
      exact marked.trans overwritten
  · refine ⟨middle, ?_, ?_⟩
    · simp only [if_neg assigns]
      rfl
    · have argsOnly : uses node = node.args.contains := by
        funext id
        simp [uses, assigns, Node.dependsOn]
      rw [argsOnly]
      exact marked

theorem exists_usedSlots {graph : Graph} (flawless : graph.flaws = []) :
    ∃ used, graph.usedSlots = .ok used ∧
      (SlotTable.blank graph.size).Marked (fun id => graph.nodes.toList.any (uses · id))
        used := by
  have ordered := ordered_of_flawless flawless
  refine SlotTable.Marked.foldlM fun node member current same => ?_
  rw [SlotTable.size_blank] at same
  apply marked_markUses
  · intro arg reads
    rw [same]
    exact ordered.arg_precedes member reads
  · intro assigns
    obtain ⟨position, found⟩ := List.mem_iff_getElem?.mp member
    have inside := (List.getElem?_eq_some_iff.mp found).1
    rw [same]
    exact NodeId.precedes_mono (Nat.le_of_lt inside)
      (target_precedes_of_flawless flawless (by simpa using found) assigns)

/-- The dead nodes, without the table that finds them. -/
theorem dead_eq_ok {graph : Graph} (flawless : graph.flaws = []) :
    graph.dead = .ok (graph.nodes.toList.filterMap fun node =>
      if graph.nodes.toList.any (uses · node.id) || node.hasEffect ||
          node.kind = .nop then
        none
      else
        some ⟨node.id, .unused node.kind⟩) := by
  obtain ⟨used, ran, marked⟩ := exists_usedSlots flawless
  unfold dead
  rw [ran]
  refine filterMapM_eq_ok fun node member => ?_
  have inside := (ordered_of_flawless flawless).id_precedes member
  have known : used.read node.id = .ok (graph.nodes.toList.any (uses · node.id)) := by
    rw [SlotTable.read_eq_ok (by rw [marked.size_eq, SlotTable.size_blank]; exact inside),
      marked.flag_eq _ (by rw [SlotTable.size_blank]; exact inside), SlotTable.flag_blank,
      Bool.false_or]
  rw [known]
  rfl

/-- The analysis never looks where nothing is: without flaws all that nodes refer to
is there, and with flaws nothing is looked up. -/
theorem exists_analyse (graph : Graph) :
    ∃ assessment, graph.analyse = .ok assessment ∧ assessment.flaws = graph.flaws := by
  unfold analyse
  by_cases flawless : graph.flaws = []
  · have ran := (ordered_of_flawless flawless).redundant_eq_ok
    simp only [flawless, ran, dead_eq_ok flawless]
    exact ⟨_, rfl, rfl⟩
  · have flawed : graph.flaws.isEmpty = false := by simpa using flawless
    simp only [flawed]
    exact ⟨_, rfl, rfl⟩

def assess (graph : Graph) : Assessment :=
  graph.analyse.toOption.get (by
    obtain ⟨assessment, ran, -⟩ := graph.exists_analyse
    rw [ran]
    rfl)

theorem analyse_eq_ok (graph : Graph) : graph.analyse = .ok graph.assess := by
  obtain ⟨assessment, ran, -⟩ := graph.exists_analyse
  have found : graph.analyse.toOption = some assessment := by
    rw [ran]
    rfl
  rw [ran, assess, Option.get_of_eq_some _ found]

end Graph

end CostTape
