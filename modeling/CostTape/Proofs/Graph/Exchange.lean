import CostTape.Graph.Analysis
import CostTape.Graph.Exchange
import CostTape.Proofs.Decimal.Spelling

/-! What a graph without flaws is made of, as far as its exchange as text depends on
it. -/

namespace CostTape

/-- The integers of a machine word. -/
def InWord (number : ℤ) : Prop :=
  -0x8000000000000000 ≤ number ∧ number < 0x8000000000000000

instance : DecidablePred InWord := fun _ => inferInstanceAs (Decidable (_ ∧ _))

theorem beq_zero_iff (value : Float) : (value == 0.0) = true ↔ value = 0.0 ∨
    value = -0.0 := by
  rw [Float.beq_iff_ne_nan_and_eq]
  constructor
  · rintro ⟨-, -, rfl | ⟨rfl, -⟩ | ⟨rfl, -⟩⟩
    · exact .inl rfl
    · left
      decide +kernel
    · right
      decide +kernel
  · rintro (rfl | rfl) <;> decide +kernel

/-- Negative zero loses its sign; every other value stays as it is. -/
def plainZero (value : Float) : Float :=
  if value = -0.0 then 0.0 else value

theorem plainZero_eq (value : Float) :
    plainZero value = if (value == 0.0) = true then 0.0 else value := by
  by_cases zero : (value == 0.0) = true
  · rw [if_pos zero]
    rcases (beq_zero_iff value).mp zero with rfl | rfl
    · rfl
    · rfl
  · rw [if_neg zero, plainZero, if_neg]
    rintro rfl
    exact zero ((beq_zero_iff _).mpr (.inr rfl))

theorem isFinite_of_beq_zero {value : Float} (zero : (value == 0.0) = true) :
    value.isFinite = true := by
  rcases (beq_zero_iff value).mp zero with rfl | rfl <;> decide +kernel

namespace Node

variable {Symbol : Type}

def withPlainZero (node : Node Symbol) : Node Symbol :=
  { node with value := plainZero node.value }

/-- The kind has a name, and every number fits a machine word. -/
structure Exchangeable (node : Node Symbol) : Prop where
  listed : node.kind.isListed = true
  id : InWord node.id
  target : InWord node.target
  args : ∀ arg ∈ node.args, InWord arg

variable [DecidableEq Symbol] [SymbolType Symbol]

/-- The names of the fields that are written. -/
def writtenFields (node : Node Symbol) : List String :=
  ["id", "kind", "target"] ++ (if node.value == 0.0 then [] else ["value"]) ++
    (if node.symbol == SymbolType.ofText "" then [] else ["symbol"]) ++
    if node.args.isEmpty then [] else ["args"]

/-- What is there, with the field of that name as in the node. -/
def copyField (node kept : Node Symbol) (name : String) : Node Symbol :=
  match name with
  | "id" => { kept with id := node.id }
  | "kind" => { kept with kind := node.kind }
  | "target" => { kept with target := node.target }
  | "value" => { kept with value := node.value }
  | "symbol" => { kept with symbol := node.symbol }
  | "args" => { kept with args := node.args }
  | _ => kept

/-- The fields that are left out say what a node with nothing set says. -/
theorem foldl_copyField (node : Node Symbol) :
    node.writtenFields.foldl node.copyField (zero Symbol) = node.withPlainZero := by
  obtain ⟨id, kind, target, value, symbol, args⟩ := node
  rw [withPlainZero, plainZero_eq]
  simp only [writtenFields, beq_iff_eq, List.isEmpty_iff]
  split <;> split <;> split <;> simp_all [copyField, zero]

end Node

namespace Graph

/-- Fields that are read one after the other, each for what it says. -/
theorem PartRead.foldlM_eq_pure {step : β → α → PartRead β} {next : β → α → β}
    (invariant : β → Prop) {fields : List α} {kept : β} (holds : invariant kept)
    (reads : ∀ kept, invariant kept → ∀ field ∈ fields,
      step kept field = pure (next kept field) ∧ invariant (next kept field)) :
    fields.foldlM step kept = pure (fields.foldl next kept) := by
  induction fields generalizing kept with
  | nil => rfl
  | cons field fields induction =>
      obtain ⟨read, still⟩ := reads kept holds field List.mem_cons_self
      rw [List.foldlM_cons, read, pure_bind, List.foldl_cons]
      exact induction still fun kept holds field member =>
        reads kept holds field (List.mem_cons_of_mem _ member)

theorem inWord_of_precedes {id : ℤ} {position : ℕ}
    (precedes : NodeId.precedes id position = true)
    (fits : position ≤ 0x8000000000000000) : InWord id := by
  obtain ⟨least, less⟩ : 0 ≤ id ∧ id < position := by
    simpa [NodeId.precedes] using precedes
  exact ⟨by omega, by omega⟩

variable {Symbol : Type} [DecidableEq Symbol] [SymbolType Symbol]

/-- No rule looks at the value of a node. -/
theorem flaws_withPlainZero (nodes : Array (Node Symbol)) (frozen : Bool) :
    (Graph.mk (nodes.map Node.withPlainZero) frozen).flaws =
      (Graph.mk nodes frozen).flaws := by
  have kept (rule : ℕ → Node Symbol → List Defect)
      (blind : ∀ position node, rule position (Node.withPlainZero node) =
        rule position node) :
      (Graph.mk (nodes.map Node.withPlainZero) frozen).flawsBy rule =
        (Graph.mk nodes frozen).flawsBy rule := by
    simp only [flawsBy, Array.toList_map, List.zipIdx_map, List.flatMap_map]
    congr 1
    funext entry
    simp [blind]
  rw [flaws, flaws, kept _ fun _ _ => rfl, kept _ fun _ _ => rfl, kept _ fun _ _ => rfl]

theorem exchangeable_of_flawless {graph : Graph Symbol} (flawless : graph.flaws = [])
    (fits : graph.size ≤ 0x8000000000000000) :
    ∀ node ∈ graph.nodes, node.Exchangeable := by
  intro node mem
  obtain ⟨position, found⟩ := Array.mem_iff_getElem?.mp mem
  have inside : position < graph.size := (Array.getElem?_eq_some_iff.mp found).1
  rw [flaws, List.append_eq_nil_iff, List.append_eq_nil_iff] at flawless
  have placed := rule_eq_nil_of_flawsBy flawless.1.1 found
  have referring := rule_eq_nil_of_flawsBy flawless.1.2 found
  have shaped := rule_eq_nil_of_flawsBy flawless.2 found
  have own : node.id = position := by
    simpa [Node.placementDefects] using placed
  rw [Node.referenceDefects, List.append_eq_nil_iff] at referring
  refine ⟨?_, ?_, ?_, ?_⟩
  · by_contra other
    simp [Node.shapeDefects, other] at shaped
  · rw [own]
    exact ⟨by omega, by omega⟩
  · have target := referring.2
    split at target
    · split at target
      · exact inWord_of_precedes ‹_› (by omega)
      · cases target
    · split at target
      · rename_i same
        rw [same]
        exact ⟨by omega, by omega⟩
      · cases target
  · intro arg arg_mem
    have precedes : arg.precedes position = true := by
      have all := referring.1
      simp only [List.map_eq_nil_iff, List.filter_eq_nil_iff] at all
      simpa using all arg arg_mem
    exact inWord_of_precedes precedes (by omega)

/-- Nodes that keep the rules are taken over as a frozen graph. -/
theorem fresh_store {nodes : Array (Node Symbol)} {frozen : Bool}
    (flawless : (Graph.mk nodes frozen).flaws = []) :
    Reception.fresh (Reception.store (nodes.toList.map Node.withPlainZero)) =
      .ok ⟨nodes.map Node.withPlainZero, true⟩ := by
  have accepted : ofNodes (nodes.toList.map Node.withPlainZero).toArray =
      .ok ⟨nodes.map Node.withPlainZero, true⟩ := by
    rw [← Array.toList_map, Array.toArray_toList, ofNodes_eq_ok_iff]
    refine ⟨rfl, ?_⟩
    rw [flaws_withPlainZero]
    exact flawless
  rw [Reception.store, accepted]
  rfl

end Graph

theorem Kind.ofName?_name {kind : Kind} (listed : kind.isListed = true) :
    Kind.ofName? kind.name = some kind := by
  cases kind with
  | unlisted => cases listed
  | _ => decide +kernel

end CostTape
