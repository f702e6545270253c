import CostTape.Graph.Analysis

/-! What advice on a sound trace says of the nodes that it names. -/

namespace CostTape

namespace Node

/-- The node can stand at a position of a sound trace. -/
structure FitsAt (position : Nat) (node : Node) : Prop where
  id_eq : node.id = position
  args_precede : ∀ arg ∈ node.args, arg.precedes position = true
  target_precedes : node.kind = .assignment → node.target.precedes position = true
  target_eq : node.kind ≠ .assignment → node.target = position
  shaped : node.shapeDefects = []

theorem isListed_of_shaped {node : Node} (shaped : node.shapeDefects = []) :
    node.kind.isListed = true := by
  unfold shapeDefects at shaped
  cases listed : node.kind.isListed with
  | true => rfl
  | false =>
      rw [listed] at shaped
      cases shaped

theorem length_args_of_shaped {node : Node} {count : Nat}
    (shaped : node.shapeDefects = []) (fixed : node.kind.arity? = some count) :
    node.args.length = count := by
  have listed := isListed_of_shaped shaped
  simp only [shapeDefects, listed, if_true, fixed, List.append_eq_nil_iff] at shaped
  have counted := shaped.1
  split at counted
  next same => exact same
  next => cases counted

theorem args_ne_nil_of_shaped {node : Node} (shaped : node.shapeDefects = [])
    (assigns : node.kind = .assignment) : node.args ≠ [] := by
  apply List.ne_nil_of_length_pos
  rw [length_args_of_shaped shaped (by rw [assigns]; rfl)]
  exact Nat.one_pos

theorem shapeDefects_congr {node other : Node} (kind_eq : other.kind = node.kind)
    (symbol_eq : other.symbol = node.symbol)
    (length_eq : other.args.length = node.args.length) :
    other.shapeDefects = node.shapeDefects := by
  simp only [shapeDefects, kind_eq, symbol_eq, length_eq]

/-- The idle node of a slot. -/
def idle (id : NodeId) : Node :=
  { zero with id, kind := .nop, target := id }

theorem fitsAt_idle (position : Nat) : (idle position).FitsAt position where
  id_eq := rfl
  args_precede := fun _ member => nomatch member
  target_precedes := fun assigns => nomatch assigns
  target_eq := fun _ => rfl
  shaped := rfl

end Node

namespace Graph

variable {graph : Graph}

theorem flaws_eq_nil_iff : graph.flaws = [] ↔
    ∀ (position : Nat) (node : Node), graph.nodes[position]? = some node →
      node.FitsAt position := by
  constructor
  · intro flawless position node found
    obtain ⟨placed, backward⟩ := ordered_of_flawless flawless position node found
    have sound := flawless
    rw [flaws, List.append_eq_nil_iff, List.append_eq_nil_iff] at sound
    have referring := rule_eq_nil_of_flawsBy sound.1.2 found
    refine ⟨placed, backward, target_precedes_of_flawless flawless found, fun own => ?_,
      rule_eq_nil_of_flawsBy sound.2 found⟩
    rw [Node.referenceDefects, List.append_eq_nil_iff, if_neg own] at referring
    have targeted := referring.2
    split at targeted
    next same => exact same
    next => cases targeted
  · intro fits
    rw [flaws, List.append_eq_nil_iff, List.append_eq_nil_iff]
    refine ⟨⟨?_, ?_⟩, ?_⟩ <;> apply flawsBy_eq_nil <;> intro position node found
    · exact if_pos (fits position node found).id_eq
    · have fit := fits position node found
      rw [Node.referenceDefects, List.append_eq_nil_iff, List.map_eq_nil_iff,
        List.filter_eq_nil_iff]
      refine ⟨fun arg member => by simp [fit.args_precede arg member], ?_⟩
      split
      · rename_i assigns
        exact if_pos (fit.target_precedes assigns)
      · rename_i own
        exact if_pos (fit.target_eq own)
    · exact (fits position node found).shaped

theorem fitsAt_of_flawless (flawless : graph.flaws = []) {position : Nat} {node : Node}
    (found : graph.nodes.toList[position]? = some node) : node.FitsAt position :=
  flaws_eq_nil_iff.mp flawless position node (by simpa using found)

/-- Nodes that are changed one by one, each so that it still fits its place. -/
theorem flaws_map_eq_nil {transform : Node → Node} (flawless : graph.flaws = [])
    (fits : ∀ (position : Nat) (node : Node), node.FitsAt position →
      (transform node).FitsAt position) :
    (Graph.mk (graph.nodes.map transform) graph.frozen).flaws = [] := by
  rw [flaws_eq_nil_iff] at flawless ⊢
  intro position node found
  rw [Array.getElem?_map, Option.map_eq_some_iff] at found
  obtain ⟨original, stored, rfl⟩ := found
  exact fits position original (flawless position original stored)

theorem advice_of_flawless (flawless : graph.flaws = []) :
    graph.assess.advice =
      (graph.nodes.toList.zipIdx.filterMap fun (node, position) =>
        if node.isTransfer || node.kind = .nop then none
        else (graph.reusable? position node).map fun earlier =>
          ⟨node.id, .replaceableBy earlier.id⟩) ++
      graph.nodes.toList.filterMap fun node =>
        if graph.nodes.toList.any (uses · node.id) || node.hasEffect ||
            node.kind = .nop then
          none
        else
          some ⟨node.id, .unused node.kind⟩ := by
  have ran := graph.analyse_eq_ok
  have repeated := (ordered_of_flawless flawless).redundant_eq_ok
  simp only [analyse, flawless, repeated, dead_eq_ok flawless] at ran
  exact congrArg Assessment.advice (Except.ok.inj ran).symm

/-- The node at a position repeats what the node at an earlier place computes, and nothing
between them overwrites the result or an operand. -/
structure Repeats (graph : Graph) (position place : Nat) (node earlier : Node) :
    Prop where
  found : graph.nodes.toList[position]? = some node
  found_earlier : graph.nodes.toList[place]? = some earlier
  sooner : place < position
  computes : node.isTransfer = false ∧ node.kind ≠ .nop
  replaceable : node.replaceableBy earlier = true
  untouched : ∀ (between : Nat) (other : Node), place < between → between < position →
    graph.nodes.toList[between]? = some other → other.kind = .assignment →
    other.target ≠ earlier.target ∧ other.target ∉ node.args

theorem exists_repeats_of_advised (flawless : graph.flaws = [])
    {id representative : NodeId} (advised : ⟨id, .replaceableBy representative⟩ ∈
      graph.assess.advice) :
    ∃ (position place : Nat) (node earlier : Node),
      graph.Repeats position place node earlier ∧ id = position ∧
        representative = place := by
  rw [advice_of_flawless flawless, List.mem_append] at advised
  rcases advised with repeated | unused
  · obtain ⟨⟨node, position⟩, member, selected⟩ := List.mem_filterMap.mp repeated
    have found : graph.nodes.toList[position]? = some node :=
      List.mem_zipIdx_iff_getElem?.mp member
    simp only at selected
    split at selected
    · cases selected
    · rename_i computes
      obtain ⟨earlier, first, same⟩ := Option.map_eq_some_iff.mp selected
      cases same
      have passed := List.find?_some first
      rw [Bool.and_eq_true, Bool.not_eq_true'] at passed
      obtain ⟨place, less, stored⟩ :=
        Array.mem_extract_iff_getElem.mp
          (Array.mem_toList_iff.mp (List.mem_of_find?_eq_some first))
      have foundEarlier : graph.nodes.toList[place]? = some earlier := by
        rw [← stored]
        simp
      have placed := (fitsAt_of_flawless flawless found).id_eq
      have placedEarlier := (fitsAt_of_flawless flawless foundEarlier).id_eq
      refine ⟨position, place, node, earlier,
        ⟨found, foundEarlier, by omega, by simpa using computes, passed.1, ?_⟩, placed,
        placedEarlier⟩
      intro between other after before stored assigns
      have inside : other ∈
          (graph.nodes.extract (earlier.id + 1).toNat node.id.toNat).toList := by
        rw [placed, placedEarlier, Array.mem_toList_iff, Array.mem_extract_iff_getElem]
        obtain ⟨within, same⟩ := List.getElem?_eq_some_iff.mp stored
        refine ⟨between - (place + 1), ?_, ?_⟩
        · simp only [Array.length_toList] at within
          omega
        · simp only [← same, Array.getElem_toList]
          congr 1
          omega
      have kept := List.any_eq_false.mp passed.2 other inside
      simpa [assigns, Node.dependsOn] using kept
  · obtain ⟨node, -, selected⟩ := List.mem_filterMap.mp unused
    split at selected <;> cases selected

end Graph

end CostTape
