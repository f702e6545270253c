import Mathlib
import CostTape.Proofs.Graph.Advice
import CostTape.Proofs.Trace.Outputs

/-! Repeated computations.  The slot that advice names holds the value that the node would
compute again, and can be used in its stead for as long as both slots stay what they are.

The lemmas on the equality of `Float` values are in none of the parts of Mathlib; they
come with the whole of it. -/

namespace CostTape

universe u

namespace Node

theorem replaceableBy_iff {node other : Node} :
    node.replaceableBy other = true ↔
      (node.kind = .constant ∧ other.kind = .constant ∧
        (node.value == other.value) = true) ∨
      (node.kind ≠ .constant ∧ node.kind = other.kind ∧ node.symbol = other.symbol ∧
        node.args = other.args) := by
  unfold replaceableBy isConstant
  by_cases constant : node.kind = .constant
  · by_cases otherConstant : other.kind = .constant
    · simp [constant, otherConstant]
    · simp [constant, otherConstant, Ne.symm otherConstant]
  · simp [constant, and_assoc]

theorem isOperation_of_computes {node : Node} (inner : node.isTransfer = false)
    (computed : node.kind ≠ .constant) : node.kind.isOperation = true := by
  unfold isTransfer at inner
  cases kind : node.kind <;> first | rfl | simp_all

end Node

namespace Graph.Repeats

variable {graph : Graph} {position place : Nat} {node earlier : Node}
  {V : Type u} (meaning : Interpretation V)

include meaning in
/-- Between the two nodes neither the result nor an operand changes. -/
theorem execute_take_eq (repeats : graph.Repeats position place node earlier)
    (flawless : graph.flaws = []) {slot : NodeId} (old : slot.precedes (place + 1) = true)
    (kept : slot = earlier.target ∨ slot ∈ node.args) :
    meaning.execute (graph.nodes.toList.take position) slot =
      meaning.execute (graph.nodes.toList.take (place + 1)) slot := by
  have split := List.take_append_drop (place + 1) (graph.nodes.toList.take position)
  rw [List.take_take, Nat.min_eq_left repeats.sooner] at split
  rw [← split, meaning.execute_append]
  apply meaning.resume_of_untouched
  intro other member
  obtain ⟨offset, stored⟩ := List.mem_iff_getElem?.mp member
  rw [List.getElem?_drop, List.getElem?_take] at stored
  split at stored
  · rename_i before
    have fits := fitsAt_of_flawless flawless stored
    rintro rfl
    by_cases assigns : other.kind = .assignment
    · have untouched := repeats.untouched _ other (by omega) before stored assigns
      exact kept.elim untouched.1 untouched.2
    · exact NodeId.ne_of_precedes old (Nat.le_add_right _ offset) (fits.target_eq assigns)
  · cases stored

theorem execute_take_succ (repeats : graph.Repeats position place node earlier) :
    meaning.execute (graph.nodes.toList.take (place + 1)) =
      meaning.step (meaning.execute (graph.nodes.toList.take place)) earlier := by
  rw [List.take_add_one, repeats.found_earlier]
  exact meaning.execute_concat _ _

/-- Just before a repeated operation the slot of the first holds what it would compute. -/
theorem holds_result (repeats : graph.Repeats position place node earlier)
    (flawless : graph.flaws = []) (computed : node.kind ≠ .constant) :
    meaning.execute (graph.nodes.toList.take position) place =
      meaning.result (meaning.execute (graph.nodes.toList.take position)) node := by
  obtain ⟨constant, -⟩ | ⟨-, kind_eq, symbol_eq, args_eq⟩ :=
    Node.replaceableBy_iff.mp repeats.replaceable
  · exact absurd constant computed
  have fits := fitsAt_of_flawless flawless repeats.found_earlier
  have computes := Node.isOperation_of_computes repeats.computes.1 computed
  have own : earlier.target = place := by
    apply fits.target_eq
    intro assigns
    rw [kind_eq, assigns] at computes
    cases computes
  have operands : node.args.map (meaning.execute (graph.nodes.toList.take place)) =
      node.args.map (meaning.execute (graph.nodes.toList.take position)) := by
    apply List.map_congr_left
    intro arg member
    have early := fits.args_precede arg (by rwa [← args_eq])
    rw [repeats.execute_take_eq meaning flawless
      (NodeId.precedes_mono (Nat.le_succ place) early) (.inr member),
      repeats.execute_take_succ meaning, meaning.step_of_ne]
    rw [own]
    exact NodeId.ne_of_precedes early (Nat.le_refl place)
  calc
    meaning.execute (graph.nodes.toList.take position) place
    _ = meaning.execute (graph.nodes.toList.take (place + 1)) place := by
        apply repeats.execute_take_eq meaning flawless _ (.inl own.symm)
        rw [NodeId.precedes_natCast]
        exact Nat.lt_succ_self place
    _ = meaning.result (meaning.execute (graph.nodes.toList.take place)) earlier := by
        rw [repeats.execute_take_succ meaning, ← own, meaning.step_target]
    _ = meaning.operation node.kind node.symbol
          (node.args.map (meaning.execute (graph.nodes.toList.take place))) := by
        rw [meaning.result_of_isOperation _ (kind_eq ▸ computes), kind_eq, symbol_eq,
          args_eq]
    _ = meaning.result (meaning.execute (graph.nodes.toList.take position)) node := by
        rw [operands, meaning.result_of_isOperation _ computes]

end Graph.Repeats

namespace Graph

/-- Whatever the advice to replace a node by an earlier one: just before the node is
executed, the slot of the earlier one holds exactly what the node is about to compute.  If
the node is a constant, both are, and their literals differ in the sign of zero at
most. -/
theorem advised_slot_holds_result {graph : Graph} {id representative : NodeId}
    (flawless : graph.flaws = [])
    (advised : ⟨id, .replaceableBy representative⟩ ∈ graph.assess.advice) :
    ∃ (position place : Nat) (node earlier : Node),
      graph.nodes[position]? = some node ∧ graph.nodes[place]? = some earlier ∧
      place < position ∧ id = position ∧ representative = place ∧
      (node.kind ≠ .constant → ∀ (V : Type u) (meaning : Interpretation V),
        meaning.execute (graph.nodes.toList.take position) representative =
          meaning.result (meaning.execute (graph.nodes.toList.take position)) node) ∧
      (node.kind = .constant →
        earlier.kind = .constant ∧ (node.value == earlier.value) = true ∧
        node.value.isNaN = false ∧ earlier.value.isNaN = false ∧
        (node.value = earlier.value ∨ node.value = 0 ∧ earlier.value = -0 ∨
          node.value = -0 ∧ earlier.value = 0)) := by
  obtain ⟨position, place, node, earlier, repeats, rfl, rfl⟩ :=
    exists_repeats_of_advised flawless advised
  refine ⟨position, place, node, earlier, by simpa using repeats.found,
    by simpa using repeats.found_earlier, repeats.sooner, rfl, rfl, ?_, ?_⟩
  · intro computed V meaning
    exact repeats.holds_result meaning flawless computed
  · intro constant
    obtain ⟨-, earlierConstant, equal⟩ | ⟨computed, -⟩ :=
      Node.replaceableBy_iff.mp repeats.replaceable
    · obtain ⟨number, earlierNumber, sameOrZero⟩ := Float.beq_iff_ne_nan_and_eq.mp equal
      refine ⟨earlierConstant, equal, ?_, ?_, sameOrZero⟩
      · simpa [Float.isNaN_eq_decide_eq_nan] using number
      · simpa [Float.isNaN_eq_decide_eq_nan] using earlierNumber
    · exact absurd constant computed

/-- A call is repeated across an assignment, and a zero with the other sign. -/
def repeatingTrace : Graph :=
  ⟨#[⟨0, .input, 0, 0.0, "x", []⟩, ⟨1, .constant, 1, 0.0, "", []⟩,
    ⟨2, .constant, 2, -0.0, "", []⟩, ⟨3, .call, 3, 0.0, "f", [0, 1, 0]⟩,
    ⟨4, .assignment, 2, 0.0, "", [3]⟩, ⟨5, .call, 5, 0.0, "f", [0, 1, 0]⟩,
    ⟨6, .output, 6, 0.0, "y", [5]⟩], true⟩

theorem repeatingTrace_holds_result :
    repeatingTrace.flaws = [] ∧
    repeatingTrace.assess.advice = [⟨2, .replaceableBy 1⟩, ⟨5, .replaceableBy 3⟩] ∧
    ∀ (V : Type) (meaning : Interpretation V),
      meaning.execute (repeatingTrace.nodes.toList.take 5) 3 =
        meaning.result (meaning.execute (repeatingTrace.nodes.toList.take 5))
          ⟨5, .call, 5, 0.0, "f", [0, 1, 0]⟩ := by
  have flawless : repeatingTrace.flaws = [] := by decide
  have advice : repeatingTrace.assess.advice =
      [⟨2, .replaceableBy 1⟩, ⟨5, .replaceableBy 3⟩] := by decide +kernel
  refine ⟨flawless, advice, ?_⟩
  have advised : ⟨5, .replaceableBy 3⟩ ∈ repeatingTrace.assess.advice := by
    rw [advice]
    simp
  obtain ⟨position, place, node, earlier, found, -, -, here, -, holds, -⟩ :=
    advised_slot_holds_result flawless advised
  have fifth : position = 5 := (Int.natCast_inj.mp here).symm
  subst fifth
  cases found
  exact holds (by decide)

end Graph

/-- The id, or the one that takes its place. -/
def NodeId.redirect (id old new : NodeId) : NodeId :=
  if id = old then new else id

/-- The node with one slot in the place of another, where it reads and where it
assigns. -/
def Node.redirect (old new : NodeId) (node : Node) : Node :=
  { node with
    args := node.args.map (·.redirect old new)
    target := if node.kind = .assignment then node.target.redirect old new else
      node.target }

/-- The node becomes idle, and the nodes after it use the slot of its representative. -/
def Graph.reuse (graph : Graph) (id representative : NodeId) : Graph :=
  { graph with
    nodes := graph.nodes.map fun node =>
      if node.id < id then node
      else if node.id = id then .idle id
      else node.redirect id representative }

/-- Of the two slots, the one overwritten last. -/
def lastOverwritten (first second : NodeId) (last : Option NodeId) (node : Node) :
    Option NodeId :=
  if node.kind = .assignment ∧ (node.target = first ∨ node.target = second) then
    some node.target
  else
    last

/-- Of two slots that hold the same value at first, none is read after the other one was
overwritten last. -/
def Interchangeable (first second : NodeId) : Option NodeId → List Node → Prop
  | _, [] => True
  | last, node :: nodes =>
      (∀ arg ∈ node.args, arg = first ∨ arg = second → ∀ slot ∈ last, arg = slot) ∧
        Interchangeable first second (lastOverwritten first second last node) nodes

variable {V : Type u}

/-- One store does without a slot.  Its representative stands for it, and for itself, as
long as the other of the two was not overwritten last. -/
structure Merges (representative dropped : NodeId) (last : Option NodeId)
    (store merged : NodeId → V) : Prop where
  elsewhere : ∀ slot : NodeId, slot ≠ representative → slot ≠ dropped →
    merged slot = store slot
  represents : ∀ slot : NodeId, slot = representative ∨ slot = dropped →
    (∀ written ∈ last, slot = written) → merged representative = store slot

namespace Merges

variable {representative dropped : NodeId} {last : Option NodeId}
    {store merged : NodeId → V}

theorem read (merges : Merges representative dropped last store merged)
    {args : List NodeId} (latest : ∀ arg ∈ args, arg = representative ∨ arg = dropped →
      ∀ slot ∈ last, arg = slot) :
    (args.map (·.redirect dropped representative)).map merged = args.map store := by
  rw [List.map_map]
  apply List.map_congr_left
  intro arg member
  simp only [Function.comp_apply, NodeId.redirect]
  split
  · rename_i same
    exact merges.represents arg (.inr same) (latest arg member (.inr same))
  · rename_i other
    by_cases same : arg = representative
    · have current := latest arg member (.inl same)
      rw [same]
      exact merges.represents representative (.inl rfl) (same ▸ current)
    · exact merges.elsewhere arg same other

theorem step (meaning : Interpretation V)
    (merges : Merges representative dropped last store merged) {node : Node}
    (own : node.kind ≠ .assignment → node.target ≠ representative ∧ node.target ≠ dropped)
    (supplied : node.kind = .assignment → node.args ≠ [])
    (latest : ∀ arg ∈ node.args, arg = representative ∨ arg = dropped →
      ∀ slot ∈ last, arg = slot) :
    Merges representative dropped (lastOverwritten representative dropped last node)
      (meaning.step store node)
      (meaning.step merged (node.redirect dropped representative)) := by
  have computed : meaning.result merged (node.redirect dropped representative) =
      meaning.result store node :=
    meaning.result_congr rfl rfl rfl (merges.read latest) supplied
  unfold lastOverwritten
  split
  · -- One of the two slots is overwritten: in the merged store it is the representative.
    rename_i overwrites
    obtain ⟨assigns, either⟩ := overwrites
    have target : (node.redirect dropped representative).target = representative := by
      simp only [Node.redirect, if_pos assigns, NodeId.redirect]
      rcases either with same | same
      · rw [same, ite_self]
      · rw [if_pos same]
    constructor
    · intro slot apart distinct
      have untouched : slot ≠ node.target := by
        rintro rfl
        exact either.elim apart distinct
      rw [meaning.step_of_ne _ _ (by rw [target]; exact apart),
        meaning.step_of_ne _ _ untouched]
      exact merges.elsewhere slot apart distinct
    · intro slot _ current
      have written := current node.target rfl
      rw [written, meaning.step_target, ← computed, ← meaning.step_target, target]
  · -- Another slot is written, with the same value on both sides.
    rename_i spares
    have others : node.target ≠ representative ∧ node.target ≠ dropped := by
      by_cases assigns : node.kind = .assignment
      · exact not_or.mp fun either => spares ⟨assigns, either⟩
      · exact own assigns
    have target : (node.redirect dropped representative).target = node.target := by
      simp only [Node.redirect, NodeId.redirect, if_neg others.2, ite_self]
    constructor
    · intro slot apart distinct
      by_cases here : slot = node.target
      · rw [here, meaning.step_target, ← computed, ← meaning.step_target, target]
      · rw [meaning.step_of_ne _ _ (by rw [target]; exact here),
          meaning.step_of_ne _ _ here]
        exact merges.elsewhere slot apart distinct
    · intro slot either current
      have untouched : slot ≠ node.target := by
        rintro rfl
        exact either.elim others.1 others.2
      rw [meaning.step_of_ne _ _ (by rw [target]; exact others.1.symm),
        meaning.step_of_ne _ _ untouched]
      exact merges.represents slot either current

theorem outputsFrom_eq (meaning : Interpretation V) {nodes : List Node}
    (merges : Merges representative dropped last store merged)
    (own : ∀ node ∈ nodes, node.kind ≠ .assignment →
      node.target ≠ representative ∧ node.target ≠ dropped)
    (supplied : ∀ node ∈ nodes, node.kind = .assignment → node.args ≠ [])
    (interchangeable : Interchangeable representative dropped last nodes) :
    meaning.outputsFrom merged (nodes.map (Node.redirect dropped representative)) =
      meaning.outputsFrom store nodes := by
  induction nodes generalizing last store merged with
  | nil => rfl
  | cons node nodes induction =>
      rw [List.forall_mem_cons] at own supplied
      obtain ⟨latest, rest⟩ := interchangeable
      have emitted : (node.redirect dropped representative).emitted merged =
          node.emitted store := Node.emitted_congr rfl rfl (merges.read latest)
      rw [List.map_cons, Interpretation.outputsFrom, Interpretation.outputsFrom, emitted,
        induction (merges.step meaning own.1 supplied.1 latest) own.2 supplied.2 rest]

end Merges

namespace Graph

variable {graph : Graph} {position place : Nat} {node earlier : Node}

theorem fitsAt_redirect {other : Node} (fits : other.FitsAt position)
    (sooner : place < position) (old : NodeId) :
    (other.redirect old place).FitsAt position := by
  have redirected (id : NodeId) (precedes : id.precedes position = true) :
      (id.redirect old place).precedes position = true := by
    unfold NodeId.redirect
    split
    · exact NodeId.precedes_natCast.mpr sooner
    · exact precedes
  refine ⟨fits.id_eq, ?_, ?_, ?_, ?_⟩
  · intro arg member
    obtain ⟨id, reads, rfl⟩ := List.mem_map.mp member
    exact redirected id (fits.args_precede id reads)
  · intro (assigns : other.kind = .assignment)
    simp only [Node.redirect, if_pos assigns]
    exact redirected _ (fits.target_precedes assigns)
  · intro (own : other.kind ≠ .assignment)
    simp only [Node.redirect, if_neg own]
    exact fits.target_eq own
  · have same : (other.redirect old place).shapeDefects = other.shapeDefects :=
      Node.shapeDefects_congr rfl rfl (List.length_map _)
    rw [same]
    exact fits.shaped

theorem flaws_reuse (flawless : graph.flaws = []) (sooner : place < position) :
    (graph.reuse position place).flaws = [] := by
  apply flaws_map_eq_nil flawless
  intro there other fits
  split
  · exact fits
  · split
    · rename_i here
      rw [← here, fits.id_eq]
      exact Node.fitsAt_idle there
    · rename_i reached apart
      rw [fits.id_eq, Int.ofNat_lt] at reached
      rw [fits.id_eq, Int.natCast_inj] at apart
      exact fitsAt_redirect fits (by omega) position

theorem toList_around (found : graph.nodes.toList[position]? = some node) :
    graph.nodes.toList = graph.nodes.toList.take position ++
      node :: graph.nodes.toList.drop (position + 1) := by
  obtain ⟨inside, same⟩ := List.getElem?_eq_some_iff.mp found
  rw [← same, ← List.drop_eq_getElem_cons inside, List.take_append_drop]

theorem fitsAt_of_mem_take {other : Node} (flawless : graph.flaws = [])
    (member : other ∈ graph.nodes.toList.take position) :
    ∃ there, there < position ∧ other.FitsAt there := by
  obtain ⟨there, stored⟩ := List.mem_iff_getElem?.mp member
  rw [List.getElem?_take] at stored
  split at stored
  · rename_i before
    exact ⟨there, before, fitsAt_of_flawless flawless stored⟩
  · cases stored

theorem fitsAt_of_mem_drop {other : Node} (flawless : graph.flaws = [])
    (member : other ∈ graph.nodes.toList.drop (position + 1)) :
    ∃ there, position < there ∧ other.FitsAt there := by
  obtain ⟨offset, stored⟩ := List.mem_iff_getElem?.mp member
  rw [List.getElem?_drop] at stored
  exact ⟨position + 1 + offset, by omega, fitsAt_of_flawless flawless stored⟩

theorem toList_reuse (flawless : graph.flaws = [])
    (found : graph.nodes.toList[position]? = some node) (representative : NodeId) :
    (graph.reuse position representative).nodes.toList =
      graph.nodes.toList.take position ++ .idle position ::
        (graph.nodes.toList.drop (position + 1)).map
          (Node.redirect position representative) := by
  have here := (fitsAt_of_flawless flawless found).id_eq
  simp only [reuse, Array.toList_map]
  conv_lhs => rw [toList_around found]
  rw [List.map_append, List.map_cons, if_neg (by simp [here]), if_pos here]
  congr 1
  · refine (List.map_congr_left ?_).trans (List.map_id _)
    intro other member
    obtain ⟨there, before, fits⟩ := fitsAt_of_mem_take flawless member
    rw [fits.id_eq, if_pos (Int.ofNat_lt.mpr before), id_eq]
  · congr 1
    apply List.map_congr_left
    intro other member
    obtain ⟨there, after, fits⟩ := fitsAt_of_mem_drop flawless member
    rw [fits.id_eq, if_neg (Int.ofNat_lt.not.mpr after.asymm),
      if_neg (Int.natCast_inj.not.mpr after.ne')]

/-- Dropping a repeated operation leaves the stores merged, both slots being current. -/
theorem Repeats.merges (repeats : graph.Repeats position place node earlier)
    (flawless : graph.flaws = []) (computed : node.kind ≠ .constant)
    (meaning : Interpretation V) :
    Merges place position none
      (meaning.step (meaning.execute (graph.nodes.toList.take position)) node)
      (meaning.step (meaning.execute (graph.nodes.toList.take position))
        (.idle position)) := by
  have computes := Node.isOperation_of_computes repeats.computes.1 computed
  have own : node.target = position := by
    apply (fitsAt_of_flawless flawless repeats.found).target_eq
    intro assigns
    rw [assigns] at computes
    cases computes
  have apart : (place : NodeId) ≠ position := Int.natCast_inj.not.mpr repeats.sooner.ne
  have idle : (Node.idle position).target = position := rfl
  constructor
  · intro slot _ other
    rw [meaning.step_of_ne _ _ (by rw [idle]; exact other),
      meaning.step_of_ne _ _ (by rw [own]; exact other)]
  · intro slot either _
    rw [meaning.step_of_ne _ _ (by rw [idle]; exact apart)]
    rcases either with rfl | rfl
    · rw [meaning.step_of_ne _ _ (by rw [own]; exact apart)]
    · rw [repeats.holds_result meaning flawless computed, ← own, meaning.step_target]

theorem Repeats.outputs_reuse (repeats : graph.Repeats position place node earlier)
    (flawless : graph.flaws = []) (computed : node.kind ≠ .constant)
    (interchangeable : Interchangeable place position none
      (graph.nodes.toList.drop (position + 1)))
    (meaning : Interpretation V) :
    meaning.outputs (graph.reuse position place) = meaning.outputs graph := by
  have silent : ∀ store : NodeId → V, node.emitted store = [] := by
    intro store
    apply if_neg
    intro outputs
    have inner := repeats.computes.1
    simp [Node.isTransfer, outputs] at inner
  have continued := (repeats.merges flawless computed meaning).outputsFrom_eq meaning
    (fun other member own => by
      obtain ⟨there, after, fits⟩ := fitsAt_of_mem_drop flawless member
      rw [fits.target_eq own]
      have sooner := repeats.sooner
      exact ⟨Int.natCast_inj.not.mpr (by omega), Int.natCast_inj.not.mpr (by omega)⟩)
    (fun other member => by
      obtain ⟨there, -, fits⟩ := fitsAt_of_mem_drop flawless member
      exact Node.args_ne_nil_of_shaped fits.shaped)
    interchangeable
  unfold Interpretation.outputs
  rw [toList_reuse flawless repeats.found]
  conv_rhs => rw [toList_around repeats.found]
  rw [meaning.outputsFrom_append, meaning.outputsFrom_append]
  congr 1
  rw [Interpretation.outputsFrom, Interpretation.outputsFrom, silent]
  exact congrArg _ continued

/-- A node that advice declares a repeated operation can be dropped and its representative
used in its stead.  The trace stays sound, and it performs the same writes to external
variables if, of the two slots, none is read after the other was overwritten last. -/
theorem reuse_of_advised_slot {node : Node} {representative : NodeId}
    (flawless : graph.flaws = []) (found : graph.nodes[position]? = some node)
    (computed : node.kind ≠ .constant)
    (advised : ⟨position, .replaceableBy representative⟩ ∈ graph.assess.advice) :
    (graph.reuse position representative).flaws = [] ∧
      (Interchangeable representative position none
          (graph.nodes.toList.drop (position + 1)) →
        ∀ (V : Type u) (meaning : Interpretation V),
          meaning.outputs (graph.reuse position representative) =
            meaning.outputs graph) := by
  obtain ⟨there, place, repeated, earlier, repeats, here, rfl⟩ :=
    exists_repeats_of_advised flawless advised
  cases Int.natCast_inj.mp here
  have same : repeated = node := by
    have stored := repeats.found
    rw [Array.getElem?_toList, found] at stored
    exact (Option.some.inj stored).symm
  rw [← same] at computed
  refine ⟨flaws_reuse flawless repeats.sooner, ?_⟩
  intro interchangeable V meaning
  exact repeats.outputs_reuse flawless computed interchangeable meaning

/-- Both slots are overwritten after the repetition, and each is read when it is the one
that was overwritten last. -/
def takingTurns : Graph :=
  ⟨#[⟨0, .input, 0, 0.0, "x", []⟩, ⟨1, .unary, 1, 0.0, "-", [0]⟩,
    ⟨2, .unary, 2, 0.0, "-", [0]⟩, ⟨3, .output, 3, 0.0, "a", [2]⟩,
    ⟨4, .assignment, 2, 0.0, "", [0]⟩, ⟨5, .output, 5, 0.0, "b", [2]⟩,
    ⟨6, .assignment, 1, 0.0, "", [3]⟩, ⟨7, .output, 7, 0.0, "c", [1]⟩], true⟩

theorem takingTurns_reuse :
    takingTurns.flaws = [] ∧ ⟨2, .replaceableBy 1⟩ ∈ takingTurns.assess.advice ∧
      (takingTurns.reuse 2 1).flaws = [] ∧
      ∀ (V : Type) (meaning : Interpretation V),
        meaning.outputs (takingTurns.reuse 2 1) = meaning.outputs takingTurns := by
  have flawless : takingTurns.flaws = [] := by decide
  have advised : ⟨2, .replaceableBy 1⟩ ∈ takingTurns.assess.advice := by decide +kernel
  have found : takingTurns.nodes[2]? = some ⟨2, .unary, 2, 0.0, "-", [0]⟩ := rfl
  obtain ⟨sound, preserved⟩ := reuse_of_advised_slot flawless found (by decide) advised
  refine ⟨flawless, advised, sound, preserved ?_⟩
  simp [takingTurns, Interchangeable, lastOverwritten]

/-- The representative is overwritten before the repeated result is written out. -/
def overwrittenTrace : Graph :=
  ⟨#[⟨0, .input, 0, 0.0, "x", []⟩, ⟨1, .unary, 1, 0.0, "-", [0]⟩,
    ⟨2, .unary, 2, 0.0, "-", [0]⟩, ⟨3, .assignment, 1, 0.0, "", [0]⟩,
    ⟨4, .output, 4, 0.0, "y", [2]⟩], true⟩

/-- Every operation negates, and `1` is read from outside. -/
def negating : Interpretation Int :=
  ⟨fun _ => 0, fun _ => 0, fun _ => 1, fun _ _ args => -args.sum⟩

/-- Without the condition on later reads the writes can change: here from `-x` to `x`. -/
theorem reuse_can_change_outputs :
    ¬∀ (graph : Graph) (position : Nat) (node : Node) (representative : NodeId),
      graph.flaws = [] → graph.nodes[position]? = some node → node.kind ≠ .constant →
      ⟨position, .replaceableBy representative⟩ ∈ graph.assess.advice →
      (graph.reuse position representative).flaws = [] ∧
        ∀ (V : Type) (meaning : Interpretation V),
          meaning.outputs (graph.reuse position representative) =
            meaning.outputs graph := by
  intro preserved
  have advised : ⟨2, .replaceableBy 1⟩ ∈ overwrittenTrace.assess.advice := by
    decide +kernel
  obtain ⟨-, same⟩ :=
    preserved overwrittenTrace 2 _ 1 (by decide) rfl (by decide) advised
  have negated : negating.outputs overwrittenTrace = [("y", -1)] := rfl
  have plain : negating.outputs (overwrittenTrace.reuse 2 1) = [("y", 1)] := by
    decide +kernel
  have equal := plain.symm.trans ((same Int negating).trans negated)
  cases equal

end Graph

end CostTape
