import CostTape.Proofs.Trace.Redundancy
import CostTape.Proofs.Trace.Usage

/-! The node that stands for a repeated computation.  Repetition is an equivalence but for
constants that are no number, so where no slot is written twice, advice leads from every
repetition to the first of its class, and never further. -/

namespace CostTape

namespace Node

variable {node other third : Node}

theorem replaceableBy_symm (replaceable : node.replaceableBy other = true) :
    other.replaceableBy node = true := by
  rw [replaceableBy_iff] at replaceable ⊢
  obtain ⟨constant, otherConstant, equal⟩ | ⟨computed, kind_eq, symbol_eq, args_eq⟩ :=
    replaceable
  · exact .inl ⟨otherConstant, constant, BEq.symm equal⟩
  · exact .inr ⟨kind_eq ▸ computed, kind_eq.symm, symbol_eq.symm, args_eq.symm⟩

theorem replaceableBy_trans (first : node.replaceableBy other = true)
    (second : other.replaceableBy third = true) : node.replaceableBy third = true := by
  rw [replaceableBy_iff] at first second ⊢
  obtain ⟨constant, otherConstant, equal⟩ | ⟨computed, kind_eq, symbol_eq, args_eq⟩ :=
    first
  · obtain ⟨-, thirdConstant, further⟩ | ⟨otherComputed, -⟩ := second
    · exact .inl ⟨constant, thirdConstant, BEq.trans equal further⟩
    · exact absurd otherConstant otherComputed
  · obtain ⟨otherConstant, -⟩ | ⟨-, kind_eq', symbol_eq', args_eq'⟩ := second
    · exact absurd (kind_eq.trans otherConstant) computed
    · exact .inr ⟨computed, kind_eq.trans kind_eq', symbol_eq.trans symbol_eq',
        args_eq.trans args_eq'⟩

theorem replaceableBy_self_iff :
    node.replaceableBy node = true ↔
      ¬(node.kind = .constant ∧ node.value.isNaN = true) := by
  rw [replaceableBy_iff, Float.beq_self_iff, Float.isNaN_eq_decide_eq_nan,
    decide_eq_true_iff]
  by_cases constant : node.kind = .constant <;> simp [constant]

end Node

def Hint.isRepetition : Hint → Bool
  | .replaceableBy _ => true
  | .unused _ => false

namespace Graph

variable {graph : Graph} {position : Nat} {node earlier : Node}

/-- Advice declares the node with that id a repetition. -/
def isRepeated (graph : Graph) (id : NodeId) : Bool :=
  graph.assess.advice.any fun advice => advice.node == id && advice.hint.isRepetition

/-- The ids of the nodes that the node is replaceable by. -/
def replacements (graph : Graph) (node : Node) : Set NodeId :=
  {id | ∃ other, graph.node id = .ok other ∧ node.replaceableBy other = true}

/-- No slot is written twice. -/
def WritesOnce (graph : Graph) : Prop :=
  ∀ node ∈ graph.nodes, node.kind ≠ .assignment

theorem isRepeated_iff {id : NodeId} :
    graph.isRepeated id = true ↔
      ∃ representative, ⟨id, .replaceableBy representative⟩ ∈ graph.assess.advice := by
  unfold isRepeated
  rw [List.any_eq_true]
  constructor
  · rintro ⟨⟨there, hint⟩, member, passes⟩
    rw [Bool.and_eq_true, beq_iff_eq] at passes
    obtain ⟨rfl, repetition⟩ := passes
    cases hint with
    | replaceableBy representative => exact ⟨representative, member⟩
    | unused kind => cases repetition
  · rintro ⟨representative, member⟩
    exact ⟨_, member, by simp [Hint.isRepetition]⟩

theorem filter_isRepetition_advice (flawless : graph.flaws = []) :
    graph.assess.advice.filter (·.hint.isRepetition) = graph.repetitions := by
  have opposite (advice : Advice) : advice.hint.isRepetition = !advice.hint.isUnused := by
    cases advice.hint <;> rfl
  have others : graph.unusedResults.filter (·.hint.isRepetition) = [] := by
    rw [List.filter_eq_nil_iff]
    intro advice member
    rw [opposite, isUnused_of_mem_unusedResults member]
    exact Bool.false_ne_true
  rw [advice_eq_append flawless, List.filter_append, others, List.append_nil,
    List.filter_eq_self]
  intro advice member
  rw [opposite, isUnused_of_mem_repetitions member]
  rfl

theorem repetitions_ascend (flawless : graph.flaws = []) :
    graph.repetitions.Pairwise fun advice later => advice.node < later.node := by
  have ascend : graph.nodes.toList.zipIdx.Pairwise fun place later =>
      place.1.id < later.1.id := by
    rw [← List.pairwise_map (f := Prod.fst)
      (R := fun node later : Node => node.id < later.id), List.zipIdx_map_fst]
    exact ids_ascend flawless
  unfold repetitions
  rw [List.pairwise_filterMap]
  refine ascend.imp ?_
  intro place later sooner advice selected laterAdvice laterSelected
  obtain ⟨-, -, earlier, -, rfl⟩ := repetition?_eq_some_iff.mp selected
  obtain ⟨-, -, laterEarlier, -, rfl⟩ := repetition?_eq_some_iff.mp laterSelected
  exact sooner

theorem repetition_mem_advice_iff (flawless : graph.flaws = [])
    {id representative : NodeId} :
    ⟨id, .replaceableBy representative⟩ ∈ graph.assess.advice ↔
      ∃ (position : Nat) (node earlier : Node), graph.nodes.toList[position]? =
        some node ∧ node.isTransfer = false ∧ node.kind ≠ .nop ∧
        graph.reusable? position node = some earlier ∧ id = position ∧
        representative = earlier.id := by
  rw [advice_eq_append flawless, List.mem_append]
  constructor
  · rintro (repeated | unused)
    · obtain ⟨⟨node, position⟩, member, selected⟩ := List.mem_filterMap.mp repeated
      have found := List.mem_zipIdx_iff_getElem?.mp member
      obtain ⟨inner, active, earlier, first, same⟩ := repetition?_eq_some_iff.mp selected
      cases same
      exact ⟨position, node, earlier, found, inner, active, first,
        (fitsAt_of_flawless flawless found).id_eq, rfl⟩
    · cases isUnused_of_mem_unusedResults unused
  · rintro ⟨position, node, earlier, found, inner, active, first, rfl, rfl⟩
    refine .inl (List.mem_filterMap.mpr
      ⟨(node, position), List.mem_zipIdx_iff_getElem?.mpr found, ?_⟩)
    rw [← (fitsAt_of_flawless flawless found).id_eq]
    exact repetition?_eq_some_iff.mpr ⟨inner, active, earlier, first, rfl⟩

namespace WritesOnce

theorem overwrittenBetween_eq_false (once : graph.WritesOnce) (earlier later : Node) :
    graph.overwrittenBetween earlier later = false := by
  unfold overwrittenBetween
  rw [List.any_eq_false]
  intro other member
  obtain ⟨place, _, same⟩ := Array.mem_extract_iff_getElem.mp
    (Array.mem_toList_iff.mp member)
  have written := once other (same ▸ Array.getElem_mem _)
  simp [written]

theorem reusable?_eq (once : graph.WritesOnce) (position : Nat) (node : Node) :
    graph.reusable? position node =
      (graph.nodes.toList.take position).find? node.replaceableBy := by
  unfold reusable?
  rw [Array.toList_extract, List.extract_eq_take_drop]
  congr 1
  funext earlier
  rw [once.overwrittenBetween_eq_false, Bool.not_false, Bool.and_true]

/-- Of all nodes that a node is replaceable by, advice names the first. -/
theorem isLeast_of_reusable? (once : graph.WritesOnce) (flawless : graph.flaws = [])
    (first : graph.reusable? position node = some earlier) :
    earlier.id < position ∧ IsLeast (graph.replacements node) earlier.id := by
  rw [once.reusable?_eq, List.find?_eq_some_iff_getElem] at first
  obtain ⟨replaceable, place, inside, same, before⟩ := first
  rw [List.getElem_take] at same
  rw [List.length_take, Nat.lt_min] at inside
  have found : graph.nodes.toList[place]? = some earlier :=
    List.getElem?_eq_some_iff.mpr ⟨inside.2, same⟩
  rw [(fitsAt_of_flawless flawless found).id_eq]
  refine ⟨?_, ⟨earlier, node_eq_ok_iff.mpr ⟨place, rfl, found⟩, replaceable⟩, ?_⟩
  · exact Int.ofNat_lt.mpr inside.1
  · rintro id ⟨other, looked, repeats⟩
    obtain ⟨there, rfl, stored⟩ := node_eq_ok_iff.mp looked
    refine Int.ofNat_le.mpr (Nat.le_of_not_lt fun sooner => ?_)
    have fails := before there sooner
    rw [List.getElem_take, (List.getElem?_eq_some_iff.mp stored).2, repeats] at fails
    cases fails

theorem isLeast_of_advised (once : graph.WritesOnce) (flawless : graph.flaws = [])
    {id representative : NodeId}
    (advised : ⟨id, .replaceableBy representative⟩ ∈ graph.assess.advice) :
    representative < id ∧
      ∃ node, graph.node id = .ok node ∧
        IsLeast (graph.replacements node) representative := by
  obtain ⟨position, node, earlier, found, -, -, first, rfl, rfl⟩ :=
    (repetition_mem_advice_iff flawless).mp advised
  obtain ⟨sooner, least⟩ := once.isLeast_of_reusable? flawless first
  exact ⟨sooner, node, node_eq_ok_iff.mpr ⟨position, rfl, found⟩, least⟩

/-- What the representative could be replaced by, the node could be as well. -/
theorem isRepeated_representative_eq_false (once : graph.WritesOnce)
    (flawless : graph.flaws = []) {id representative : NodeId}
    (advised : ⟨id, .replaceableBy representative⟩ ∈ graph.assess.advice) :
    graph.isRepeated representative = false := by
  rw [Bool.eq_false_iff]
  intro repeated
  obtain ⟨deeper, further⟩ := isRepeated_iff.mp repeated
  obtain ⟨-, node, -, ⟨earlier, looked, replaceable⟩, least⟩ :=
    once.isLeast_of_advised flawless advised
  obtain ⟨sooner, same, found, ⟨first, lookedFirst, again⟩, -⟩ :=
    once.isLeast_of_advised flawless further
  cases Except.ok.inj (looked.symm.trans found)
  have reached := least ⟨first, lookedFirst, Node.replaceableBy_trans replaceable again⟩
  exact absurd reached (Int.not_le.mpr sooner)

theorem isRepeated_of_replaceableBy {place : Nat} (once : graph.WritesOnce)
    (flawless : graph.flaws = []) (found : graph.nodes.toList[position]? = some node)
    (stored : graph.nodes.toList[place]? = some earlier) (sooner : place < position)
    (active : node.kind ∉ [.input, .output, .nop])
    (replaceable : node.replaceableBy earlier = true) :
    graph.isRepeated node.id = true := by
  have assigns := once node (by simpa using List.mem_of_getElem? found)
  simp only [List.mem_cons, List.not_mem_nil, or_false, not_or] at active
  have inner : node.isTransfer = false := by
    simp [Node.isTransfer, assigns, active]
  have kept : (graph.nodes.toList.take position)[place]? = some earlier := by
    rw [List.getElem?_take_of_lt sooner, stored]
  obtain ⟨first, reused⟩ := Option.isSome_iff_exists.mp
    (List.find?_isSome.mpr ⟨earlier, List.mem_of_getElem? kept, replaceable⟩)
  rw [← once.reusable?_eq] at reused
  exact isRepeated_iff.mpr ⟨first.id, (repetition_mem_advice_iff flawless).mpr
    ⟨position, node, first, found, inner, active.2.2, reused,
      (fitsAt_of_flawless flawless found).id_eq, rfl⟩⟩

theorem replaceableBy_eq_false {other : Node} (once : graph.WritesOnce)
    (flawless : graph.flaws = []) (member : node ∈ graph.nodes)
    (among : other ∈ graph.nodes) (apart : node ≠ other)
    (single : graph.isRepeated node.id = false)
    (otherSingle : graph.isRepeated other.id = false)
    (active : node.kind ∉ [.input, .output, .nop])
    (otherActive : other.kind ∉ [.input, .output, .nop]) :
    node.replaceableBy other = false := by
  rw [Bool.eq_false_iff]
  intro replaceable
  obtain ⟨position, found⟩ := List.mem_iff_getElem?.mp (Array.mem_toList_iff.mpr member)
  obtain ⟨place, stored⟩ := List.mem_iff_getElem?.mp (Array.mem_toList_iff.mpr among)
  -- The later of the two would be a repetition.
  rcases Nat.lt_trichotomy place position with sooner | same | later
  · rw [once.isRepeated_of_replaceableBy flawless found stored sooner active replaceable]
      at single
    cases single
  · rw [same, found] at stored
    exact apart (Option.some.inj stored)
  · rw [once.isRepeated_of_replaceableBy flawless stored found later otherActive
      (Node.replaceableBy_symm replaceable)] at otherSingle
    cases otherSingle

end WritesOnce

/-- Being replaceable is symmetric and transitive, and every node is replaceable by itself
but for constants that are no number.  In a sound trace that writes no slot twice, advice
declares a node a repetition at most once, and names the first of all nodes that it is
replaceable by, which is no repetition itself.  Nodes that are no repetitions compute
different things. -/
theorem representatives_are_canonical :
    (∀ node other : Node, node.replaceableBy other = true →
      other.replaceableBy node = true) ∧
    (∀ node other third : Node, node.replaceableBy other = true →
      other.replaceableBy third = true → node.replaceableBy third = true) ∧
    (∀ node : Node,
      node.replaceableBy node = true ↔
        ¬(node.kind = .constant ∧ node.value.isNaN = true)) ∧
    ∀ graph : Graph, graph.flaws = [] → graph.WritesOnce →
      (graph.assess.advice.filter (·.hint.isRepetition)).Pairwise
          (fun advice later => advice.node < later.node) ∧
        (∀ id representative,
          ⟨id, .replaceableBy representative⟩ ∈ graph.assess.advice →
            representative < id ∧ graph.isRepeated representative = false ∧
              ∃ node, graph.node id = .ok node ∧
                IsLeast (graph.replacements node) representative) ∧
        ∀ node ∈ graph.nodes, ∀ other ∈ graph.nodes, node ≠ other →
          graph.isRepeated node.id = false → graph.isRepeated other.id = false →
          node.kind ∉ [.input, .output, .nop] → other.kind ∉ [.input, .output, .nop] →
          node.replaceableBy other = false := by
  refine ⟨fun _ _ => Node.replaceableBy_symm, fun _ _ _ => Node.replaceableBy_trans,
    fun _ => Node.replaceableBy_self_iff, fun graph flawless once => ⟨?_, ?_, ?_⟩⟩
  · rw [filter_isRepetition_advice flawless]
    exact repetitions_ascend flawless
  · intro id representative advised
    obtain ⟨sooner, least⟩ := once.isLeast_of_advised flawless advised
    exact ⟨sooner, once.isRepeated_representative_eq_false flawless advised, least⟩
  · intro node member other among
    exact once.replaceableBy_eq_false flawless member among

/-- Zeros of both signs, two constants that are no number, and a call made three times. -/
def repetitiveTrace : Graph :=
  ⟨#[⟨0, .constant, 0, 0.0, "", []⟩, ⟨1, .constant, 1, -0.0, "", []⟩,
    ⟨2, .constant, 2, .nan, "", []⟩, ⟨3, .constant, 3, .nan, "", []⟩,
    ⟨4, .call, 4, 0.0, "f", [0, 1]⟩, ⟨5, .call, 5, 0.0, "f", [0, 1]⟩,
    ⟨6, .call, 6, 0.0, "f", [0, 1]⟩, ⟨7, .output, 7, 0.0, "y", [6]⟩], true⟩

theorem repetitiveTrace_representatives :
    repetitiveTrace.flaws = [] ∧ repetitiveTrace.WritesOnce ∧
    repetitiveTrace.assess.advice.filter (·.hint.isRepetition) =
      [⟨1, .replaceableBy 0⟩, ⟨5, .replaceableBy 4⟩, ⟨6, .replaceableBy 4⟩] ∧
    repetitiveTrace.isRepeated 4 = false := by
  have flawless : repetitiveTrace.flaws = [] := by decide
  have once : repetitiveTrace.WritesOnce := by
    unfold WritesOnce
    decide
  have advised : ⟨6, .replaceableBy 4⟩ ∈ repetitiveTrace.assess.advice := by
    decide +kernel
  obtain ⟨-, -, -, canonical⟩ := representatives_are_canonical
  obtain ⟨-, named, -⟩ := canonical repetitiveTrace flawless once
  exact ⟨flawless, once, by decide +kernel, (named 6 4 advised).2.1⟩

end Graph

end CostTape
