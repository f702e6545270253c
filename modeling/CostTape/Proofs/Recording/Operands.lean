import CostTape.Proofs.Recording.Denotation

/-! Operands of recorded operations.  Literals are recorded in front of the operation,
and a reference to a node that is still not there then is refused. -/

namespace CostTape

namespace Graph

def literalNodes (start : Nat) (values : List Float) : List Node :=
  (values.zipIdx start).map fun (value, position) =>
    placedAt position { Node.zero with kind := .constant, value }

/-- The graph with a constant for each value at its end. -/
def addConstants (graph : Graph) (values : List Float) : Graph :=
  { graph with nodes := graph.nodes ++ (literalNodes graph.size values).toArray }

@[simp] theorem addConstants_nil (graph : Graph) : graph.addConstants [] = graph := by
  simp [addConstants, literalNodes]

@[simp] theorem size_addConstants (graph : Graph) (values : List Float) :
    (graph.addConstants values).size = graph.size + values.length := by
  simp [addConstants, literalNodes, size]

theorem addConstants_append (graph : Graph) (first second : List Float) :
    graph.addConstants (first ++ second) =
      (graph.addConstants first).addConstants second := by
  rw [addConstants, addConstants, size_addConstants]
  simp [addConstants, literalNodes, List.zipIdx_append]

theorem append_constant {graph : Graph} (value : Float)
    (unfrozen : graph.frozen = false) :
    graph.append { Node.zero with kind := .constant, value } =
      .ok (graph.addConstants [value]) := by
  rw [append_eq_ok_iff]
  refine ⟨unfrozen, by simp [Node.zero], by simp, ?_⟩
  simp [addConstants, literalNodes]

theorem refers_of_mem_literalNodes {start : Nat} {values : List Float} {node : Node}
    (member : node ∈ literalNodes start values) :
    node.args = [] ∧ node.target < start + values.length := by
  unfold literalNodes at member
  rw [List.mem_map] at member
  obtain ⟨⟨value, position⟩, found, rfl⟩ := member
  have inside := List.mem_zipIdx found
  refine ⟨rfl, ?_⟩
  show (position : Int) < start + values.length
  omega

/-- The fault is a reference to a node that is not there yet. -/
def Fault.isForward : Fault → Bool
  | forwardArgument _ _ | forwardTarget _ _ => true
  | _ => false

theorem append_of_forward {graph : Graph} {node : Node} {id : NodeId}
    (unfrozen : graph.frozen = false) (later : (graph.size : Int) ≤ id)
    (refers : id ∈ node.args ∨ node.kind = .assignment ∧ node.target = id) :
    ∃ fault, fault.isForward = true ∧ graph.append node = .error fault := by
  have forward : id.precedes graph.size = false := by
    rw [Bool.eq_false_iff, Ne, NodeId.precedes_iff]
    omega
  unfold append
  rw [unfrozen]
  cases found : node.args.find? fun arg => !arg.precedes graph.size with
  | some arg => exact ⟨_, rfl, rfl⟩
  | none =>
      rcases refers with member | ⟨assigns, rfl⟩
      · have backward := List.find?_eq_none.mp found id member
        simp [forward] at backward
      · refine ⟨.forwardTarget graph.size node.target, rfl, ?_⟩
        simp [assigns, forward]

end Graph

namespace Handle

/-- The literals among handles, in their order. -/
def literals (handles : List Handle) : List Float :=
  handles.filterMap literal?

/-- The nodes that handles stand for once their literals have been recorded from a
position on. -/
def resolve (start : Nat) : List Handle → List NodeId
  | [] => []
  | .literal _ :: rest => start :: resolve (start + 1) rest
  | handle :: rest => handle.id :: resolve start rest

theorem mem_resolve {handles : List Handle} {id : NodeId}
    (member : .bound id ∈ handles) (start : Nat) : id ∈ resolve start handles := by
  induction handles generalizing start with
  | nil => cases member
  | cons handle handles induction =>
      rcases List.mem_cons.mp member with rfl | later
      · exact List.mem_cons_self
      · cases handle <;> exact List.mem_cons_of_mem _ (induction later _)

end Handle

namespace Session

/-- The session after it has recorded literals. -/
def withLiterals (session : Session) (values : List Float) : Session :=
  { session with graph := session.graph.addConstants values }

theorem IsOpen.withLiterals {session : Session} (isOpen : session.IsOpen)
    (values : List Float) : (session.withLiterals values).IsOpen :=
  ⟨isOpen.recording, isOpen.unfrozen⟩

end Session

namespace Recording

variable {session : Session}

theorem runOn_literal (isOpen : session.IsOpen) (value : Float) :
    (operand (.literal value)).runOn session =
      (.ok session.graph.size, session.withLiterals [value]) := by
  have accepted := Graph.append_constant value isOpen.unfrozen
  simp only [operand, constant, runOn_map, runOn_record_of_accepted isOpen accepted]
  rfl

theorem runOn_operands_of_set {operands : List Handle} (isOpen : session.IsOpen)
    (set : .unset ∉ operands) :
    (operands.mapM operand).runOn session =
      (.ok (Handle.resolve session.graph.size operands),
        session.withLiterals (Handle.literals operands)) := by
  induction operands generalizing session with
  | nil => simp [Handle.resolve, Handle.literals, Session.withLiterals]
  | cons handle operands induction =>
      rw [List.mem_cons, not_or] at set
      rw [List.mapM_cons]
      cases handle with
      | unset => exact absurd rfl set.1
      | bound id =>
          have passed : (operand (.bound id)).runOn session = (.ok id, session) := rfl
          rw [runOn_bind_of_ok passed, runOn_bind_of_ok (induction isOpen set.2)]
          rfl
      | literal value =>
          rw [runOn_bind_of_ok (runOn_literal isOpen value),
            runOn_bind_of_ok (induction (isOpen.withLiterals [value]) set.2)]
          simp [Handle.resolve, Handle.literals, Handle.literal?, Session.withLiterals,
            ← Graph.addConstants_append]

theorem runOn_operands_of_unset {operands : List Handle} (isOpen : session.IsOpen)
    (unset : .unset ∈ operands) :
    (operands.mapM operand).runOn session =
      (.error .unsetHandle,
        session.withLiterals (Handle.literals (operands.takeWhile Handle.isSet))) := by
  induction operands generalizing session with
  | nil => cases unset
  | cons handle operands induction =>
      rw [List.mapM_cons]
      cases handle with
      | unset => simp [operand, Handle.isSet, Handle.literals, Session.withLiterals]
      | bound id =>
          have passed : (operand (.bound id)).runOn session = (.ok id, session) := rfl
          have later : Handle.unset ∈ operands := by simpa using unset
          rw [runOn_bind_of_ok passed, runOn_bind, induction isOpen later]
          rfl
      | literal value =>
          have later : Handle.unset ∈ operands := by simpa using unset
          rw [runOn_bind_of_ok (runOn_literal isOpen value), runOn_bind,
            induction (isOpen.withLiterals [value]) later]
          rw [List.takeWhile_cons_of_pos rfl]
          simp [Handle.literals, Handle.literal?, Session.withLiterals,
            ← Graph.addConstants_append]

/-- An operation together with the handles that it works on. -/
inductive Operation where
  | unary (operator : UnaryOperator) (value : Handle)
  | binary (operator : BinaryOperator) (left right : Handle)
  | call (name : String) (operands : List Handle)
  | ternary (condition first second : Handle)
  | output (name : String) (value : Handle)
  | assign (destination source : Handle)

namespace Operation

def step : Operation → Recording Handle
  | unary operator value => Recording.unary operator value
  | binary operator left right => Recording.binary operator left right
  | call name operands => Recording.call name operands
  | ternary condition first second => Recording.ternary condition first second
  | output name value => Recording.output name value
  | assign destination source => Recording.assign destination source

def operands : Operation → List Handle
  | unary _ value => [value]
  | binary _ left right => [left, right]
  | call _ operands => operands
  | ternary condition first second => [condition, first, second]
  | output _ value => [value]
  | assign _ source => [source]

/-- The operation reads the slot of a node or overwrites it. -/
def RefersTo (operation : Operation) (id : NodeId) : Prop :=
  .bound id ∈ operation.operands ∨ ∃ source, operation = assign (.bound id) source

/-- An assignment to a handle that names no node records nothing of its own. -/
def records : Operation → Bool
  | assign (.bound _) _ => true
  | assign _ _ => false
  | _ => true

/-- The node that the operation records once its operands are known. -/
def node (args : List NodeId) : Operation → Node
  | unary operator _ => Recording.operation operator.kind operator.symbol args
  | binary operator _ _ => Recording.operation operator.kind operator.symbol args
  | call name _ => Recording.operation .call name args
  | ternary _ _ _ => Recording.operation .call "ternary" args
  | output name _ => Recording.operation .output name args
  | assign destination _ =>
      { Node.zero with kind := .assignment, target := destination.id, args }

theorem step_eq {operation : Operation} (records : operation.records = true) :
    ∃ result : NodeId → Handle, operation.step =
      operation.operands.mapM operand >>= fun args =>
        result <$> record (operation.node args) := by
  cases operation with
  | assign destination source =>
      cases destination with
      | bound target =>
          refine ⟨fun _ => .bound target, ?_⟩
          simp [step, Recording.assign, operands, node, Handle.id]
      | unset => cases records
      | literal value => cases records
  | _ => exact ⟨.bound, rfl⟩

theorem refers_node {operation : Operation} {id : NodeId} (refers : operation.RefersTo id)
    (start : Nat) :
    let node := operation.node (Handle.resolve start operation.operands)
    id ∈ node.args ∨ node.kind = .assignment ∧ node.target = id := by
  rcases refers with member | ⟨source, rfl⟩
  · left
    have resolved := Handle.mem_resolve member start
    cases operation <;> exact resolved
  · exact .inr ⟨rfl, rfl⟩

end Operation

/-- A reference to a node that is not there even after the literals of the operation
have been recorded makes the operation fail, and only literals are recorded. -/
theorem stale_reference_refused {operation : Operation} {id : NodeId}
    (isOpen : session.IsOpen) (records : operation.records = true)
    (refers : operation.RefersTo id)
    (stale : session.graph.size + (Handle.literals operation.operands).length ≤ id) :
    ∃ fault added,
      operation.step.runOn session =
        (.error fault,
          { session with
            graph := { session.graph with nodes := session.graph.nodes ++ added } }) ∧
      (if .unset ∈ operation.operands then fault = .unsetHandle
        else ∃ cause, fault = .graph cause ∧ cause.isForward = true) ∧
      ∀ node ∈ added, id ∉ node.args ∧ node.target ≠ id := by
  obtain ⟨result, same⟩ := Operation.step_eq records
  rw [same, runOn_bind]
  by_cases unset : .unset ∈ operation.operands
  · rw [runOn_operands_of_unset isOpen unset]
    refine ⟨_, _, rfl, by rw [if_pos unset], fun node member => ?_⟩
    obtain ⟨none, early⟩ := Graph.refers_of_mem_literalNodes (List.mem_toArray.mp member)
    have fewer : (Handle.literals (operation.operands.takeWhile Handle.isSet)).length ≤
        (Handle.literals operation.operands).length :=
      ((List.takeWhile_prefix _).filterMap _).length_le
    have before : node.target < id := by
      refine Int.lt_of_lt_of_le early (Int.le_trans ?_ stale)
      exact Int.add_le_add_left (Int.ofNat_le.mpr fewer) _
    exact ⟨by simp [none], Int.ne_of_lt before⟩
  · have opened := isOpen.withLiterals (Handle.literals operation.operands)
    obtain ⟨cause, forward, refused⟩ := Graph.append_of_forward opened.unfrozen
      (by simpa [Session.withLiterals] using stale)
      (Operation.refers_node refers session.graph.size)
    rw [runOn_operands_of_set isOpen unset]
    simp only [runOn_map, runOn_record, opened.recording, refused]
    refine ⟨_, _, rfl, by rw [if_neg unset]; exact ⟨cause, rfl, forward⟩,
      fun node member => ?_⟩
    obtain ⟨none, early⟩ := Graph.refers_of_mem_literalNodes (List.mem_toArray.mp member)
    exact ⟨by simp [none], Int.ne_of_lt (Int.lt_of_lt_of_le early stale)⟩

/-- One node and the two literals of the call leave the node `7` out of reach. -/
theorem call_of_missing_node_refused :
    let session := (Session.fresh "s").withLiterals [1.0]
    let operation := Operation.call "f" [.literal 2.0, .bound 7, .literal 3.0]
    session.IsOpen ∧ operation.RefersTo 7 ∧
      ∃ fault added,
        operation.step.runOn session =
          (.error fault,
            { session with
              graph := { session.graph with nodes := session.graph.nodes ++ added } }) ∧
        (∃ cause, fault = .graph cause ∧ cause.isForward = true) ∧
        ∀ node ∈ added, 7 ∉ node.args ∧ node.target ≠ 7 := by
  intro session operation
  have isOpen : session.IsOpen := ⟨rfl, rfl⟩
  have refers : operation.RefersTo 7 := .inl (by simp [operation, Operation.operands])
  obtain ⟨fault, added, failed, cause, untouched⟩ :=
    @stale_reference_refused session operation 7 isOpen rfl refers (by decide)
  have set : Handle.unset ∉ operation.operands := by decide
  rw [if_neg set] at cause
  exact ⟨isOpen, refers, fault, added, failed, cause, untouched⟩

/-- In an empty session nothing is there to refer to.  Yet `1 + v_0` is recorded, as the
literal has become `v_0`, and an unset variable takes over the handle of `v_0`. -/
theorem stale_reference_not_always_refused :
    (¬∀ (session : Session) (operation : Operation) (id : NodeId),
      session.IsOpen → operation.records = true → operation.RefersTo id →
      session.graph.size ≤ id →
      ∃ fault, (operation.step.runOn session).1 = .error fault) ∧
    ¬∀ (session : Session) (operation : Operation) (id : NodeId),
      session.IsOpen → operation.records = false → operation.RefersTo id →
      session.graph.size ≤ id →
      ∃ fault, (operation.step.runOn session).1 = .error fault := by
  have isOpen : (Session.fresh "s").IsOpen := ⟨rfl, rfl⟩
  constructor
  · intro refused
    obtain ⟨fault, failed⟩ := refused (.fresh "s")
      (.binary .add (.literal 1.0) (.bound 0)) 0
      isOpen rfl (.inl (by simp [Operation.operands])) (by decide)
    have accepted :
        ((Operation.binary .add (.literal 1.0) (.bound 0)).step.runOn (.fresh "s")).1 =
          .ok (.bound 1) := rfl
    rw [accepted] at failed
    cases failed
  · intro refused
    obtain ⟨fault, failed⟩ := refused (.fresh "s") (.assign .unset (.bound 0)) 0
      isOpen rfl (.inl (by simp [Operation.operands])) (by decide)
    cases failed

end Recording

end CostTape
